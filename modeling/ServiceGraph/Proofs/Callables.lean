import ServiceGraph.Proofs.EntryGrammar
import ServiceGraph.Proofs.References

/-!
# Callables written as a service and a method

A factory or a configurator may be a text `service:method`. Its service part is read behind an `@`,
so it is open to the signs of the reference grammar: behind an `@` a text is the id of a strict
reference exactly when it starts with none of `=`, `?` and `@` and does not end with `=`
(`Reference.read?_at_iff`).

A definition is read field by field, each from keys of its own (`Entry.Reads`), so a text under the
key of a callable is read as it is whatever the rest of the entry holds. In every entry that is
valid without it, a text `service:method` becomes the method of a strict reference to the service
exactly when the service part bears no sign (`Entry.serviceMethod_strict_iff`).
-/

set_option autoImplicit false

namespace ServiceGraph

/-! ## Ids behind a sign -/

namespace Reference

/-- A text to which the grammar gives a meaning of its own when it stands behind an `@`. -/
def BearsSign (id : String) : Prop :=
  id.startsWith '=' = true ∨ id.startsWith '?' = true ∨ id.startsWith '@' = true ∨
    id.endsWith '=' = true

theorem bearsSign_iff {id : String} :
    BearsSign id ↔ id.toList.head? = some '=' ∨ id.toList.head? = some '?' ∨
      id.toList.head? = some '@' ∨ id.toList.getLast? = some '=' := by
  simp only [BearsSign, String.startsWith_char_eq_head?, String.endsWith_char_eq_getLast?,
    beq_iff_eq]

/-- A text is the id of a strict reference behind an `@` exactly when it bears no sign. -/
theorem read?_at_iff {id : String} :
    read? ("@" ++ id) = some (.required id true) ↔ ¬ BearsSign id := by
  have hchars : ("@" ++ id).toList = '@' :: id.toList := by
    rw [String.toList_append]
    rfl
  rw [bearsSign_iff, read?, hchars]
  unfold readChars?
  -- the rules in their order; the first three are those of the three signs in front
  split
  · rename_i source hsource
    rw [(List.cons.inj hsource).2]
    exact iff_of_false (by simp) fun h => h (Or.inl rfl)
  · rename_i rest hrest
    rw [(List.cons.inj hrest).2]
    exact iff_of_false (by simp) fun h => h (Or.inr (Or.inr (Or.inl rfl)))
  · rename_i rest hrest
    rw [(List.cons.inj hrest).2]
    exact iff_of_false (by simp) fun h => h (Or.inr (Or.inl rfl))
  · rename_i rest hexpression hliteral hoptional hrest
    obtain rfl := (List.cons.inj hrest).2
    have hfront : ∀ {c : Char}, (∀ tail, id.toList ≠ c :: tail) → id.toList.head? ≠ some c := by
      intro c hnone hhead
      obtain ⟨tail, htail⟩ := List.head?_eq_some_iff.1 hhead
      exact hnone tail htail
    rw [or_iff_right (hfront hexpression), or_iff_right (hfront hoptional),
      or_iff_right (hfront hliteral)]
    by_cases hmark : id.toList.getLast? = some '='
    · -- the mark makes the reference non-strict
      rw [splitMark_of_marked hmark]
      exact iff_of_false (by simp) fun h => h hmark
    · rw [splitMark_of_not_marked hmark, String.ofList_toList]
      exact iff_of_true rfl hmark
  · rename_i hnone
    exact absurd rfl (hnone id.toList)

end Reference

namespace Entry

open EntryGrammar

variable {site : EntrySite} {fields : List (String × Json)} {key : String}

/-! ## Services and methods in a text -/

/-- A text `service:method` without a sign in front: one colon, and text on both sides of it. -/
structure IsServiceMethod (s service method : String) : Prop where
  eq : s = service ++ ":" ++ method
  bare : ¬ Marked s
  service_ne : service ≠ ""
  service_plain : ':' ∉ service.toList
  method_ne : method ≠ ""
  method_plain : ':' ∉ method.toList

namespace IsServiceMethod

variable {s service method : String}

theorem toList_eq (h : IsServiceMethod s service method) :
    s.toList = service.toList ++ ':' :: method.toList := by
  rw [h.eq]
  simp

theorem not_hasDoubleColon (h : IsServiceMethod s service method) :
    hasDoubleColon s.toList = false := by
  rw [Bool.eq_false_iff, ne_eq, hasDoubleColon_iff]
  intro hinfix
  -- two colons in a row are two colons, and there is only one
  have hcount := hinfix.sublist.count_le ':'
  have hone : s.toList.count ':' = 1 := by
    rw [h.toList_eq, List.count_append, List.count_cons_self,
      List.count_eq_zero_of_not_mem h.service_plain, List.count_eq_zero_of_not_mem h.method_plain]
  rw [hone] at hcount
  exact absurd hcount (by decide)

/-- A service and a method are read, the service behind a sign. -/
theorem readCallableText_eq (h : IsServiceMethod s service method) :
    readCallableText site key s = .ok (.method (Value.ofText ("@" ++ service)) method) := by
  have hbare : ¬ s.toList.head? = some '@' := fun hhead => h.bare (marked_iff.1 hhead)
  have hcolon : ':' ∈ s.toList := by
    rw [h.toList_eq]
    simp
  obtain ⟨hbefore, hafter⟩ := split_colon h.service_plain method.toList
  have hparts : ¬ (service.toList = [] ∨ method.toList = [] ∨ ':' ∈ method.toList) := by
    simp [h.service_ne, h.method_ne, h.method_plain]
  have hat : String.ofList ('@' :: service.toList) = "@" ++ service := by
    simp
  rw [readCallableText]
  simp only [if_neg hbare, h.not_hasDoubleColon, hcolon, not_true_eq_false, decide_false,
    Bool.or_false, Bool.false_eq_true, if_false]
  rw [h.toList_eq, hbefore, hafter, if_neg hparts, hat, String.ofList_toList]

end IsServiceMethod

/-! ## Definitions field by field -/

/-- What the fields of a definition are read from. -/
structure Reads (site : EntrySite) (fields : List (String × Json)) (d : Definition) : Prop where
  parent : readString site fields "parent" = .ok d.parent
  className : readString site fields "class" = .ok d.className
  sharedFlag : readFlag site fields "shared" = .ok d.sharedFlag
  syntheticFlag : readFlag site fields "synthetic" = .ok d.syntheticFlag
  lazyFlag : readFlag site fields "lazy" = .ok d.lazyFlag
  publicFlag : readFlag site fields "public" = .ok d.publicFlag
  abstractFlag : readFlag site fields "abstract" = .ok d.abstractFlag
  deprecation : readDeprecation site fields = .ok d.deprecation
  factory : readCallable site fields "factory" = .ok d.factory
  file : readString site fields "file" = .ok d.file
  arguments : readArguments site fields = .ok d.arguments
  properties : readProperties site fields = .ok d.properties
  configurator : readCallable site fields "configurator" = .ok d.configurator
  calls : readCalls site fields = .ok d.calls
  tags : readTags site fields = .ok d.tags
  decoration : readDecoration site fields = .ok d.decoration
  autowireFlag : readFlag site fields "autowire" = .ok d.autowireFlag
  autowiringTypes : readAutowiringTypes site fields = .ok d.autowiringTypes

/-- A definition is read when each of its fields is. -/
theorem readDefinition_eq_ok_iff {d : Definition} :
    readDefinition site fields = .ok d ↔ Reads site fields d := by
  simp only [readDefinition, bind_eq_ok_iff]
  constructor
  · rintro ⟨_, hparent, _, hclass, _, hshared, _, hsynthetic, _, hlazy, _, hpublic, _, habstract,
      _, hdeprecation, _, hfactory, _, hfile, _, harguments, _, hproperties, _, hconfigurator,
      _, hcalls, _, htags, _, hdecoration, _, hautowire, _, htypes, hd⟩
    obtain rfl := Except.ok.inj hd
    exact ⟨hparent, hclass, hshared, hsynthetic, hlazy, hpublic, habstract, hdeprecation, hfactory,
      hfile, harguments, hproperties, hconfigurator, hcalls, htags, hdecoration, hautowire, htypes⟩
  · intro h
    exact ⟨_, h.parent, _, h.className, _, h.sharedFlag, _, h.syntheticFlag, _, h.lazyFlag,
      _, h.publicFlag, _, h.abstractFlag, _, h.deprecation, _, h.factory, _, h.file,
      _, h.arguments, _, h.properties, _, h.configurator, _, h.calls, _, h.tags, _, h.decoration,
      _, h.autowireFlag, _, h.autowiringTypes, rfl⟩

/-- An object without the members of a key. -/
def without (fields : List (String × Json)) (key : String) : List (String × Json) :=
  fields.filter fun field => field.1 ≠ key

theorem member?_without_of_ne {other : String} (h : other ≠ key) :
    Json.member? other (without fields key) = Json.member? other fields :=
  (OrderedMap.valueAt_filter_ne key other fields).trans (if_neg (Ne.symm h))

theorem usesEntryKeys_without_iff (h : key ∈ entryKeys) :
    UsesEntryKeys (without fields key) ↔ UsesEntryKeys fields := by
  constructor
  · intro huses field hfield
    by_cases hkey : field.1 = key
    · rwa [hkey]
    · exact huses field (List.mem_filter.2 ⟨hfield, decide_eq_true hkey⟩)
  · exact fun huses field hfield => huses field (List.mem_of_mem_filter hfield)

/-! ## The keys of callables -/

/-- A key of an entry that holds a callable. -/
inductive CallableKey where
  | factory
  | configurator

namespace CallableKey

/-- The key itself. -/
def name : CallableKey → String
  | .factory => "factory"
  | .configurator => "configurator"

/-- A definition with the callable of a key set. -/
def set (k : CallableKey) (c : Callable) (d : Definition) : Definition :=
  match k with
  | .factory => { d with factory := some c }
  | .configurator => { d with configurator := some c }

end CallableKey

theorem present?_without_of_ne {other : String} (h : other ≠ key) :
    present? (without fields key) other = present? fields other := by
  rw [present?, present?, member?_without_of_ne h]

/-- A callable under its key joins the definition that is read of the other keys. -/
theorem Reads.set_callable {k : CallableKey} {d : Definition} {c : Callable}
    (h : Reads site (without fields k.name) d)
    (hcallable : readCallable site fields k.name = .ok (some c)) :
    Reads site fields (k.set c d) := by
  obtain ⟨hparent, hclass, hshared, hsynthetic, hlazy, hpublic, habstract, hdeprecation, hfactory,
    hfile, harguments, hproperties, hconfigurator, hcalls, htags, hdecoration, hautowire,
    htypes⟩ := h
  cases k
  -- the other fields are read from keys that are still there
  all_goals
    simp (disch := decide) only [CallableKey.name, readString, readFlag, readDeprecation,
      readCallable, readArguments, readProperties, readCalls, readTags, readDecoration,
      readPriority, readAutowiringTypes, present?_without_of_ne, member?_without_of_ne] at *
  case factory =>
    exact ⟨hparent, hclass, hshared, hsynthetic, hlazy, hpublic, habstract, hdeprecation,
      hcallable, hfile, harguments, hproperties, hconfigurator, hcalls, htags, hdecoration,
      hautowire, htypes⟩
  case configurator =>
    exact ⟨hparent, hclass, hshared, hsynthetic, hlazy, hpublic, habstract, hdeprecation,
      hfactory, hfile, harguments, hproperties, hcallable, hcalls, htags, hdecoration,
      hautowire, htypes⟩

/-- An entry that is valid without the callable of a key is read with the callable under this
key. -/
theorem read_set_callable {k : CallableKey} {d : Definition} {value : Json} {c : Callable}
    (hrest : read site (.object (without fields k.name)) = .ok (.definition d))
    (hvalue : Json.member? k.name fields = some value) (hnull : value ≠ .null)
    (hcallable : readCallableValue site k.name value = .ok c) :
    read site (.object fields) = .ok (.definition (k.set c d)) := by
  have hkey : k.name ∈ entryKeys := by cases k <;> decide
  have halias : "alias" ≠ k.name := by cases k <;> decide
  have hread : readCallable site fields k.name = .ok (some c) := by
    rw [readCallable, present?_eq_some_iff.2 ⟨hvalue, hnull⟩]
    exact congrArg (Except.map some) hcallable
  obtain ⟨huses, ⟨target, -, hd⟩ | ⟨hnone, d', hd', hd⟩⟩ := readObject_eq_ok_iff.1 hrest
  · cases hd
  · cases hd
    rw [member?_without_of_ne halias] at hnone
    have hreads := (readDefinition_eq_ok_iff.1 hd').set_callable hread
    exact readObject_eq_ok_iff.2 ⟨(usesEntryKeys_without_iff hkey).1 huses,
      Or.inr ⟨hnone, _, readDefinition_eq_ok_iff.2 hreads, rfl⟩⟩

/-- In every entry that is valid without it, a text `service:method` becomes a method of the text
after the colon. Its target is what the text before the colon is read as behind an `@`, and that is
a strict reference to this text exactly when it bears no sign. -/
theorem serviceMethod_strict_iff (site : EntrySite) {fields : List (String × Json)}
    (k : CallableKey) {d : Definition} {s service method : String}
    (hs : IsServiceMethod s service method)
    (hvalue : Json.member? k.name fields = some (.string s))
    (hrest : read site (.object (without fields k.name)) = .ok (.definition d)) :
    read site (.object fields) =
        .ok (.definition (k.set (.method (Value.ofText ("@" ++ service)) method) d)) ∧
      (Value.ofText ("@" ++ service) = .reference (.required service true) ↔
        ¬ Reference.BearsSign service) := by
  refine ⟨?_, ?_⟩
  · exact read_set_callable hrest hvalue nofun hs.readCallableText_eq
  · rw [Value.ofText_eq_reference_iff, Reference.read?_at_iff]

/-- An entry whose configurator is a method of a service, beside a class and a factory. -/
def configuredFields : List (String × Json) :=
  [("class", .string "Mailer"), ("configurator", .string "app.setup:boot"),
    ("factory", .string "make_mailer")]

theorem serviceMethod_strict_iff_configured :
    read ⟨"mailer", "app.json"⟩ (.object configuredFields) = .ok (.definition {
      className := some "Mailer"
      factory := some (.function "make_mailer")
      configurator := some (.method (.reference (.required "app.setup" true)) "boot") }) ∧
    (Value.ofText ("@" ++ "app.setup") = .reference (.required "app.setup" true) ↔
      ¬ Reference.BearsSign "app.setup") := by
  have hs : IsServiceMethod "app.setup:boot" "app.setup" "boot" := by
    refine ⟨by decide, ?_, by decide, by decide, by decide, by decide⟩
    rw [← marked_iff]
    decide
  have hrest : read ⟨"mailer", "app.json"⟩
      (.object (without configuredFields CallableKey.configurator.name)) =
        .ok (.definition {
          className := some "Mailer"
          factory := some (.function "make_mailer") }) := by
    rfl
  exact serviceMethod_strict_iff ⟨"mailer", "app.json"⟩ .configurator hs rfl hrest

/-- An entry whose factory is a method of a service with a sign in front. -/
def signedFields : List (String × Json) := [("factory", .string "?mailer:create")]

/-- The sign in front of the service is read, so the target is an optional reference to what follows
the sign, and no strict one to the text before the colon. -/
theorem sign_before_service_not_strict :
    IsServiceMethod "?mailer:create" "?mailer" "create" ∧
    read ⟨"svc", "services.json"⟩ (.object signedFields) = .ok (.definition {
      factory := some (.method (.reference (.optional "mailer" true)) "create") }) ∧
    ∀ d, read ⟨"svc", "services.json"⟩ (.object signedFields) ≠ .ok (.definition
      (CallableKey.factory.set (.method (.reference (.required "?mailer" true)) "create") d)) := by
  have hread : read ⟨"svc", "services.json"⟩ (.object signedFields) = .ok (.definition {
      factory := some (.method (.reference (.optional "mailer" true)) "create") }) := by
    rfl
  refine ⟨⟨by decide, ?_, by decide, by decide, by decide, by decide⟩, hread, fun d hd => ?_⟩
  · rw [← marked_iff]
    decide
  · rw [hread] at hd
    have hfactory := congrArg Definition.factory (Entry.definition.inj (Except.ok.inj hd))
    cases hfactory

end Entry

end ServiceGraph
