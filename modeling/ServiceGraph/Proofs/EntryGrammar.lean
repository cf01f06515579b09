import Mathlib.Data.List.TakeWhile
import ServiceGraph.Entry.Basic
import ServiceGraph.Proofs.Building

/-!
# The grammar of service entries

`WritesAlias` and `WritesDefinition` say which JSON values write an alias or a definition, key by
key and without regard to the order in which the keys are read. A key of a definition may be
missing or null or hold a value of its shape (`MayHold`); the keys of an alias other than `alias`
and `public` may hold anything, and so may the keys of a decoration when nothing is decorated.

`Entry.read_accepts_grammar` says that the reader accepts these values and no others.
-/

set_option autoImplicit false

namespace ServiceGraph

namespace EntryGrammar

/-! ## Shapes of values -/

/-- A text that starts with the sign of a reference. -/
def Marked (s : String) : Prop := ∃ rest, s = "@" ++ rest

/-- A text. -/
def IsText (value : Json) : Prop := ∃ s, value = .string s

/-- A flag. -/
def IsFlag (value : Json) : Prop := ∃ b, value = .bool b

/-- An integer of 64 signed bits. -/
def IsInteger (value : Json) : Prop :=
  ∃ i, value = .number (.whole i) ∧ Integer64.FitsSigned i.value

/-- An array. -/
def IsArray (value : Json) : Prop := ∃ items, value = .array items

/-- An object. -/
def IsObject (value : Json) : Prop := ∃ members, value = .object members

/-- A value that is neither an array nor an object. -/
def IsScalar (value : Json) : Prop := ¬ IsArray value ∧ ¬ IsObject value

/-- An array whose items have a shape. -/
def IsArrayOf (shape : Json → Prop) (value : Json) : Prop :=
  ∃ items, value = .array items ∧ ∀ item ∈ items, shape item

/-- A key is missing, is null, or holds a value of a shape. -/
def MayHold (fields : List (String × Json)) (key : String) (shape : Json → Prop) : Prop :=
  ∀ value, Json.member? key fields = some value → value = .null ∨ shape value

/-- A factory or configurator. -/
inductive IsCallable : Json → Prop
  /-- The name of a function, which has no colon, or two in a row. -/
  | function {s : String} (hbare : ¬ Marked s)
      (hcolons : [':', ':'] <:+: s.toList ∨ ':' ∉ s.toList) : IsCallable (.string s)
  /-- A service and a method with the only colon between them. -/
  | serviceMethod {s service method : String} (hs : s = service ++ ":" ++ method)
      (hbare : ¬ Marked s) (hservice : service ≠ "" ∧ ':' ∉ service.toList)
      (hmethod : method ≠ "" ∧ ':' ∉ method.toList) : IsCallable (.string s)
  /-- A target that is not null and a method. -/
  | pair {target : Json} {method : String} (htarget : target ≠ .null) :
      IsCallable (.array [target, .string method])

/-- An entry of the calls. -/
inductive IsCall : Json → Prop
  | object {members : List (String × Json)} {method : String}
      (hmethod : Json.member? "method" members = some (.string method))
      (harguments : MayHold members "arguments" IsArray) : IsCall (.object members)
  | method {method : String} : IsCall (.array [.string method])
  | pair {method : String} {arguments : Json} (harguments : arguments = .null ∨ IsArray arguments) :
      IsCall (.array [.string method, arguments])

/-- An entry of the tags. -/
inductive IsTag : Json → Prop
  | object {members : List (String × Json)} {name : String}
      (hname : Json.member? "name" members = some (.string name)) (hnonempty : name ≠ "")
      (hattributes : ∀ field ∈ members, field.1 ≠ "name" → IsScalar field.2) :
      IsTag (.object members)

/-- A value that does not count as true. -/
inductive IsFalsy : Json → Prop
  | null : IsFalsy .null
  | false : IsFalsy (.bool false)
  | integer {i : Integer64} (hi : i.value = 0) : IsFalsy (.number (.whole i))
  /-- Zero of either sign. -/
  | float {x : Binary64} (hx : x.units = 0) : IsFalsy (.number (.float x))
  | emptyText : IsFalsy (.string "")
  | zeroText : IsFalsy (.string "0")
  | emptyArray : IsFalsy (.array [])

/-! ## Entries -/

/-- An object uses the keys of an entry only. -/
def UsesEntryKeys (fields : List (String × Json)) : Prop := ∀ field ∈ fields, field.1 ∈ entryKeys

/-- The values that write an alias. -/
inductive WritesAlias : Json → Alias → Prop
  | text {target : String} : WritesAlias (.string ("@" ++ target)) ⟨target, true⟩
  /-- Of the other keys, only `public` has a say. -/
  | object {fields : List (String × Json)} {target : String} {isPublic : Bool}
      (hkeys : UsesEntryKeys fields)
      (htarget : Json.member? "alias" fields = some (.string target))
      (hpublic : isPublic = true ↔
        ∀ value, Json.member? "public" fields = some value → ¬ IsFalsy value) :
      WritesAlias (.object fields) ⟨target, isPublic⟩

/-- The keys of a decoration, which matter only if something is decorated. -/
structure WritesDecoration (fields : List (String × Json)) : Prop where
  decorates : MayHold fields "decorates" IsText
  rest (id : String) : Json.member? "decorates" fields = some (.string id) →
    ¬ Marked id ∧ MayHold fields "decoration_inner_name" IsText ∧
      MayHold fields "decoration_priority" IsInteger

/-- The keys of a definition hold what they may hold. -/
structure WritesFields (fields : List (String × Json)) : Prop where
  texts : ∀ key ∈ ["parent", "class", "file"], MayHold fields key IsText
  flags : ∀ key ∈ ["shared", "synthetic", "lazy", "public", "abstract", "autowire"],
    MayHold fields key IsFlag
  deprecation : MayHold fields "deprecated" IsScalar
  callables : ∀ key ∈ ["factory", "configurator"], MayHold fields key IsCallable
  arguments : MayHold fields "arguments" IsArray
  properties : MayHold fields "properties" IsObject
  calls : MayHold fields "calls" (IsArrayOf IsCall)
  tags : MayHold fields "tags" (IsArrayOf IsTag)
  decoration : WritesDecoration fields
  autowiringTypes : MayHold fields "autowiring_types" fun value =>
    IsText value ∨ IsArrayOf IsText value

/-- The values that write a definition. -/
inductive WritesDefinition : Json → Prop
  | object {fields : List (String × Json)} (hkeys : UsesEntryKeys fields)
      (halias : ∀ value, Json.member? "alias" fields = some value → value = .null)
      (hfields : WritesFields fields) : WritesDefinition (.object fields)

end EntryGrammar

/-! ## Accepting -/

/-- A computation that may fail succeeds. -/
def Accepts {α : Type} (x : Except Failure α) : Prop := ∃ a, x = .ok a

section

variable {α β : Type}

theorem accepts_ok (a : α) : Accepts (.ok a) := ⟨a, rfl⟩

theorem not_accepts_error (e : Failure) : ¬ Accepts (.error e : Except Failure α) := by
  rintro ⟨a, ha⟩
  cases ha

theorem bind_eq_ok_iff {x : Except Failure α} {f : α → Except Failure β} {b : β} :
    x >>= f = .ok b ↔ ∃ a, x = .ok a ∧ f a = .ok b := by
  cases x with
  | error e =>
      refine iff_of_false nofun ?_
      rintro ⟨a, ha, -⟩
      cases ha
  | ok a =>
      refine ⟨fun h => ⟨a, rfl, h⟩, ?_⟩
      rintro ⟨a', ha', h⟩
      obtain rfl := Except.ok.inj ha'
      exact h

theorem accepts_bind_iff {x : Except Failure α} {f : α → Except Failure β} :
    Accepts (x >>= f) ↔ ∃ a, x = .ok a ∧ Accepts (f a) := by
  constructor
  · rintro ⟨b, hb⟩
    obtain ⟨a, ha, hfa⟩ := bind_eq_ok_iff.1 hb
    exact ⟨a, ha, b, hfa⟩
  · rintro ⟨a, ha, b, hb⟩
    exact ⟨b, bind_eq_ok_iff.2 ⟨a, ha, hb⟩⟩

theorem accepts_bind_ok_iff {x : Except Failure α} {f : α → β} :
    Accepts (x >>= fun a => .ok (f a)) ↔ Accepts x := by
  rw [accepts_bind_iff]
  exact exists_congr fun a => and_iff_left (accepts_ok (f a))

theorem accepts_map_iff {x : Except Failure α} {f : α → β} : Accepts (x.map f) ↔ Accepts x := by
  cases x with
  | error e => exact iff_of_false (not_accepts_error e) (not_accepts_error e)
  | ok a => exact iff_of_true (accepts_ok _) (accepts_ok a)

theorem accepts_mapM_iff {f : α → Except Failure β} {xs : List α} :
    Accepts (xs.mapM f) ↔ ∀ x ∈ xs, Accepts (f x) := by
  constructor
  · rintro ⟨ys, hys⟩
    have hboth : List.Forall₂ (fun x y => Accepts (f x) ∧ f x = .ok y) xs ys :=
      (mapM_eq_ok_iff.1 hys).imp fun x y hxy => ⟨⟨y, hxy⟩, hxy⟩
    exact ((List.forall₂_and_left _ _).1 hboth).1
  · intro h
    cases hrun : xs.mapM f with
    | ok ys => exact accepts_ok ys
    | error e =>
        obtain ⟨x, hx, hfail⟩ := exists_mem_of_mapM_eq_error hrun
        obtain ⟨y, hy⟩ := h x hx
        cases hfail.symm.trans hy

end

namespace Entry

open EntryGrammar

variable {site : EntrySite} {fields : List (String × Json)} {key : String}

/-! ## Keys -/

theorem isNull_iff {value : Json} : value.isNull = true ↔ value = .null := by
  cases value <;> simp [Json.isNull]

theorem present?_eq_some_iff {value : Json} :
    present? fields key = some value ↔ Json.member? key fields = some value ∧ value ≠ .null := by
  rw [present?]
  cases Json.member? key fields with
  | none => simp
  | some found =>
      cases found with
      | null => simp +contextual [eq_comm]
      | _ => simp +contextual [eq_comm]

/-- A key may hold a shape when its value, if there is one besides null, has this shape. -/
theorem mayHold_iff_present {shape : Json → Prop} :
    MayHold fields key shape ↔ ∀ value, present? fields key = some value → shape value := by
  constructor
  · intro h value hvalue
    obtain ⟨hmember, hnull⟩ := present?_eq_some_iff.1 hvalue
    exact (h value hmember).resolve_left hnull
  · intro h value hmember
    by_cases hnull : value = .null
    · exact Or.inl hnull
    · exact Or.inr (h value (present?_eq_some_iff.2 ⟨hmember, hnull⟩))

theorem mayHold_of_absent {shape : Json → Prop} (h : present? fields key = none) :
    MayHold fields key shape := by
  rw [mayHold_iff_present, h]
  exact nofun

theorem mayHold_iff_of_present {shape : Json → Prop} {value : Json}
    (h : present? fields key = some value) : MayHold fields key shape ↔ shape value := by
  rw [mayHold_iff_present, h]
  simp

theorem accepts_checkKeys (site : EntrySite) :
    Accepts (checkKeys site fields) ↔ UsesEntryKeys fields := by
  rw [checkKeys]
  cases hfind : fields.find? fun field => field.1 ∉ entryKeys with
  | none =>
      rw [List.find?_eq_none] at hfind
      refine iff_of_true (accepts_ok ()) fun field hfield => ?_
      simpa using hfind field hfield
  | some field =>
      have hmem := List.mem_of_find?_eq_some hfind
      have hkey := List.find?_some hfind
      refine iff_of_false (not_accepts_error _) fun h => ?_
      simp [h field hmem] at hkey

theorem readString_eq_ok_none_iff :
    readString site fields key = .ok none ↔
      ∀ value, Json.member? key fields = some value → value = .null := by
  rw [readString]
  cases h : present? fields key with
  | none =>
      refine iff_of_true rfl fun value hmember => ?_
      by_contra hnull
      cases h.symm.trans (present?_eq_some_iff.2 ⟨hmember, hnull⟩)
  | some value =>
      obtain ⟨hmember, hnull⟩ := present?_eq_some_iff.1 h
      refine iff_of_false ?_ fun hall => hnull (hall value hmember)
      cases value with
      | string s => exact fun hok => nomatch Except.ok.inj hok
      | _ => exact nofun

theorem readString_eq_ok_some_iff {s : String} :
    readString site fields key = .ok (some s) ↔ Json.member? key fields = some (.string s) := by
  have hpresent : Json.member? key fields = some (.string s) ↔
      present? fields key = some (.string s) := by
    rw [present?_eq_some_iff]
    exact (and_iff_left nofun).symm
  rw [readString, hpresent]
  cases present? fields key with
  | none => exact iff_of_false nofun nofun
  | some value => cases value <;> simp

theorem accepts_readString : Accepts (readString site fields key) ↔ MayHold fields key IsText := by
  rw [readString]
  cases h : present? fields key with
  | none => exact iff_of_true (accepts_ok _) (mayHold_of_absent h)
  | some value =>
      rw [mayHold_iff_of_present h]
      cases value with
      | string s => exact iff_of_true (accepts_ok _) ⟨s, rfl⟩
      | _ => exact iff_of_false (not_accepts_error _) nofun

theorem accepts_readFlag : Accepts (readFlag site fields key) ↔ MayHold fields key IsFlag := by
  rw [readFlag]
  cases h : present? fields key with
  | none => exact iff_of_true (accepts_ok _) (mayHold_of_absent h)
  | some value =>
      rw [mayHold_iff_of_present h]
      cases value with
      | bool b => exact iff_of_true (accepts_ok _) ⟨b, rfl⟩
      | _ => exact iff_of_false (not_accepts_error _) nofun

theorem accepts_readValues {value : Json} :
    Accepts (readValues site key value) ↔ IsArray value := by
  cases value with
  | array items => exact iff_of_true (accepts_ok _) ⟨items, rfl⟩
  | _ => exact iff_of_false (not_accepts_error _) nofun

theorem exists_scalar_iff {value : Json} :
    (∃ scalar, Scalar.ofJson? value = some scalar) ↔ IsScalar value := by
  cases value with
  | array items => exact iff_of_false (fun ⟨_, h⟩ => nomatch h) fun h => h.1 ⟨items, rfl⟩
  | object members => exact iff_of_false (fun ⟨_, h⟩ => nomatch h) fun h => h.2 ⟨members, rfl⟩
  | _ => exact iff_of_true ⟨_, rfl⟩ ⟨nofun, nofun⟩

theorem accepts_readDeprecation :
    Accepts (readDeprecation site fields) ↔ MayHold fields "deprecated" IsScalar := by
  rw [readDeprecation]
  split
  · rename_i hnone
    exact iff_of_true (accepts_ok _) fun v hv => nomatch hnone.symm.trans hv
  · rename_i hnull
    exact iff_of_true (accepts_ok _) fun v hv => Or.inl (Option.some.inj (hv.symm.trans hnull))
  · rename_i value hnull hvalue
    -- a value besides null is read as a scalar
    have hread : MayHold fields "deprecated" IsScalar ↔
        ∃ scalar, Scalar.ofJson? value = some scalar := by
      rw [exists_scalar_iff, MayHold, hvalue]
      simp only [Option.some.injEq, forall_eq']
      exact or_iff_right hnull
    rw [hread]
    cases Scalar.ofJson? value with
    | some scalar => exact iff_of_true (accepts_ok _) ⟨scalar, rfl⟩
    | none => exact iff_of_false (not_accepts_error _) fun ⟨_, h⟩ => nomatch h

theorem accepts_readArguments :
    Accepts (readArguments site fields) ↔ MayHold fields "arguments" IsArray := by
  rw [readArguments]
  cases h : present? fields "arguments" with
  | none => exact iff_of_true (accepts_ok _) (mayHold_of_absent h)
  | some value =>
      rw [mayHold_iff_of_present h]
      exact accepts_readValues

theorem accepts_readProperties :
    Accepts (readProperties site fields) ↔ MayHold fields "properties" IsObject := by
  rw [readProperties]
  cases h : present? fields "properties" with
  | none => exact iff_of_true (accepts_ok _) (mayHold_of_absent h)
  | some value =>
      rw [mayHold_iff_of_present h]
      cases value with
      | object members => exact iff_of_true (accepts_ok _) ⟨members, rfl⟩
      | _ => exact iff_of_false (not_accepts_error _) nofun

/-! ## Callables -/

theorem marked_iff {s : String} : s.toList.head? = some '@' ↔ Marked s := by
  constructor
  · intro h
    cases hs : s.toList with
    | nil =>
        rw [hs] at h
        cases h
    | cons c rest =>
        rw [hs] at h
        obtain rfl := Option.some.inj h
        refine ⟨String.ofList rest, ?_⟩
        simp [← String.toList_inj, hs]
  · rintro ⟨rest, rfl⟩
    rw [String.toList_append]
    rfl

theorem hasDoubleColon_iff (s : List Char) :
    hasDoubleColon s = true ↔ [':', ':'] <:+: s := by
  induction s using hasDoubleColon.induct with
  | case1 rest =>
      refine iff_of_true rfl ?_
      exact (List.prefix_append [':', ':'] rest).isInfix
  | case2 c rest hcolons ih =>
      have hprefix : ¬ [':', ':'] <+: c :: rest := by
        rintro ⟨rest', h⟩
        obtain ⟨rfl, rfl⟩ := List.cons.inj h
        exact hcolons rest' rfl rfl
      rw [List.infix_cons_iff, ← ih, hasDoubleColon, or_iff_right hprefix]
      exact hcolons
  | case3 => simp [hasDoubleColon]

/-- A text with a colon is split at the first one. -/
theorem eq_append_colon {s : List Char} (h : ':' ∈ s) :
    s = s.takeWhile (· ≠ ':') ++ ':' :: (s.dropWhile (· ≠ ':')).tail := by
  induction s with
  | nil => cases h
  | cons c rest ih =>
      by_cases hc : c = ':'
      · simp [hc]
      · have hrest : ':' ∈ rest := (List.mem_cons.1 h).resolve_left (Ne.symm hc)
        simp only [List.takeWhile_cons, List.dropWhile_cons, hc, ne_eq, not_false_eq_true,
          decide_true, if_true, List.cons_append]
        exact congrArg (c :: ·) (ih hrest)

/-- The parts before and after the only colon of a text. -/
theorem split_colon {service : List Char} (h : ':' ∉ service) (method : List Char) :
    (service ++ ':' :: method).takeWhile (· ≠ ':') = service ∧
      ((service ++ ':' :: method).dropWhile (· ≠ ':')).tail = method := by
  have hservice : ∀ c ∈ service, decide (c ≠ ':') = true := by
    intro c hc
    exact decide_eq_true fun he => h (he ▸ hc)
  constructor
  · rw [List.takeWhile_append_of_pos hservice]
    simp
  · rw [List.dropWhile_append_of_pos hservice]
    simp

/-- The test on the parts around the first colon asks for a service and a method. -/
theorem exists_serviceMethod_iff {s : String} (h : ':' ∈ s.toList) :
    (∃ service method, s = service ++ ":" ++ method ∧ (service ≠ "" ∧ ':' ∉ service.toList) ∧
        method ≠ "" ∧ ':' ∉ method.toList) ↔
      ¬ (s.toList.takeWhile (· ≠ ':') = [] ∨ (s.toList.dropWhile (· ≠ ':')).tail = [] ∨
        ':' ∈ (s.toList.dropWhile (· ≠ ':')).tail) := by
  constructor
  · rintro ⟨service, method, rfl, ⟨hservice, hplain⟩, hmethod, hplain'⟩
    obtain ⟨hbefore, hafter⟩ := split_colon hplain method.toList
    have hchars : (service ++ ":" ++ method).toList = service.toList ++ ':' :: method.toList := by
      simp
    rw [hchars, hbefore, hafter]
    simp [hservice, hmethod, hplain']
  · intro hparts
    rw [not_or, not_or] at hparts
    refine ⟨String.ofList (s.toList.takeWhile (· ≠ ':')),
      String.ofList (s.toList.dropWhile (· ≠ ':')).tail, ?_, ⟨?_, ?_⟩, ?_, ?_⟩
    · rw [← String.toList_inj]
      simpa using eq_append_colon h
    · simpa using hparts.1
    · rw [String.toList_ofList]
      exact fun hmem => by simpa using List.mem_takeWhile_imp hmem
    · simpa using hparts.2.1
    · simpa using hparts.2.2

theorem accepts_readCallableText {s : String} :
    Accepts (readCallableText site key s) ↔ IsCallable (.string s) := by
  have hmarked : s.toList.head? = some '@' ↔ Marked s := marked_iff
  rw [readCallableText]
  dsimp only
  by_cases hbare : Marked s
  · rw [if_pos (hmarked.2 hbare)]
    refine iff_of_false (not_accepts_error _) ?_
    rintro (⟨hbare', -⟩ | ⟨-, hbare', -, -⟩)
    · exact hbare' hbare
    · exact hbare' hbare
  rw [if_neg (mt hmarked.1 hbare)]
  have hcolons : (hasDoubleColon s.toList || decide (':' ∉ s.toList)) = true ↔
      [':', ':'] <:+: s.toList ∨ ':' ∉ s.toList := by
    rw [Bool.or_eq_true, hasDoubleColon_iff, decide_eq_true_eq]
  by_cases hfunction : [':', ':'] <:+: s.toList ∨ ':' ∉ s.toList
  · rw [if_pos (hcolons.2 hfunction)]
    exact iff_of_true (accepts_ok _) (.function hbare hfunction)
  · rw [if_neg (mt hcolons.1 hfunction)]
    -- there is a colon, and the text must be a service and a method
    have hcolon : ':' ∈ s.toList := by
      by_contra h
      exact hfunction (Or.inr h)
    have hparts := exists_serviceMethod_iff hcolon
    split
    · rename_i hfault
      refine iff_of_false (not_accepts_error _) ?_
      rintro (⟨-, hfunction'⟩ | ⟨hs, -, hservice, hmethod⟩)
      · exact hfunction hfunction'
      · exact hparts.1 ⟨_, _, hs, hservice, hmethod⟩ hfault
    · rename_i hform
      obtain ⟨service, method, hs, hservice, hmethod⟩ := hparts.2 hform
      exact iff_of_true (accepts_ok _) (.serviceMethod hs hbare hservice hmethod)

theorem accepts_readCallableValue {value : Json} :
    Accepts (readCallableValue site key value) ↔ IsCallable value := by
  rw [readCallableValue.eq_def]
  split
  · exact accepts_readCallableText
  · rename_i target method
    cases hnull : target.isNull with
    | true =>
        obtain rfl := isNull_iff.1 hnull
        refine iff_of_false (not_accepts_error _) fun h => ?_
        cases h with
        | pair htarget => exact htarget rfl
    | false =>
        refine iff_of_true (accepts_ok _) (.pair fun htarget => ?_)
        rw [isNull_iff.2 htarget] at hnull
        cases hnull
  · -- an array that is no pair of a target and a method
    rename_i items hpair
    refine iff_of_false (not_accepts_error _) fun h => ?_
    cases h with
    | pair => exact hpair _ _ rfl
  · -- neither a text nor an array
    rename_i htext _ harray
    refine iff_of_false (not_accepts_error _) fun h => ?_
    cases h with
    | function => exact htext _ rfl
    | serviceMethod => exact htext _ rfl
    | pair => exact harray _ rfl

theorem accepts_readCallable :
    Accepts (readCallable site fields key) ↔ MayHold fields key IsCallable := by
  rw [readCallable]
  cases h : present? fields key with
  | none => exact iff_of_true (accepts_ok _) (mayHold_of_absent h)
  | some value =>
      rw [mayHold_iff_of_present h]
      exact accepts_map_iff.trans accepts_readCallableValue

/-! ## Calls and tags -/

/-- A call is read when its parts are a text and, if anything, an array. -/
theorem accepts_readCall_of_split {value : Json} {method arguments : Option Json}
    (h : splitCall site value = .ok (method, arguments)) :
    Accepts (readCall site value) ↔
      (∃ name, method = some (.string name)) ∧
        ∀ v, arguments = some v → v = .null ∨ IsArray v := by
  rw [readCall, accepts_bind_iff, h]
  simp only [Except.ok.injEq, exists_eq_left']
  split
  · rename_i name
    split
    · exact iff_of_true (accepts_ok _) ⟨⟨name, rfl⟩, nofun⟩
    · exact iff_of_true (accepts_ok _) ⟨⟨name, rfl⟩, fun v hv => Or.inl (Option.some.inj hv).symm⟩
    · rename_i found hnull
      have hvalues : (∀ v, some found = some v → v = .null ∨ IsArray v) ↔ IsArray found := by
        simp only [Option.some.injEq, forall_eq']
        exact or_iff_right hnull
      rw [and_iff_right ⟨name, rfl⟩, hvalues]
      exact accepts_bind_ok_iff.trans accepts_readValues
  · rename_i hmethod
    refine iff_of_false (not_accepts_error _) ?_
    rintro ⟨⟨name, hname⟩, -⟩
    exact hmethod name hname

theorem accepts_readCall {value : Json} : Accepts (readCall site value) ↔ IsCall value := by
  cases value with
  | object members =>
      rw [accepts_readCall_of_split rfl]
      constructor
      · rintro ⟨⟨name, hname⟩, harguments⟩
        exact .object hname harguments
      · rintro ⟨hmethod, harguments⟩
        exact ⟨⟨_, hmethod⟩, harguments⟩
  | array items =>
      match items with
      | [] =>
          rw [accepts_readCall_of_split rfl]
          exact iff_of_false nofun nofun
      | [method] =>
          rw [accepts_readCall_of_split rfl]
          constructor
          · rintro ⟨⟨name, hname⟩, -⟩
            obtain rfl := Option.some.inj hname
            exact .method
          · rintro ⟨⟩
            exact ⟨⟨_, rfl⟩, nofun⟩
      | [method, arguments] =>
          rw [accepts_readCall_of_split rfl]
          constructor
          · rintro ⟨⟨name, hname⟩, harguments⟩
            obtain rfl := Option.some.inj hname
            exact .pair (harguments arguments rfl)
          · intro h
            cases h with
            | pair harguments =>
                exact ⟨⟨_, rfl⟩, fun v hv => Option.some.inj hv ▸ harguments⟩
      | _ :: _ :: _ :: _ => exact iff_of_false (not_accepts_error _) nofun
  | _ => exact iff_of_false (not_accepts_error _) nofun

theorem accepts_readAttribute {tag : String} {field : String × Json} :
    Accepts (readAttribute site tag field) ↔ IsScalar field.2 := by
  rw [readAttribute, ← exists_scalar_iff]
  cases Scalar.ofJson? field.2 with
  | some scalar => exact iff_of_true (accepts_ok _) ⟨scalar, rfl⟩
  | none => exact iff_of_false (not_accepts_error _) fun ⟨_, h⟩ => nomatch h

theorem accepts_readTag {value : Json} : Accepts (readTag site value) ↔ IsTag value := by
  cases value with
  | object members =>
      rw [readTag]
      split
      · rename_i hname
        refine iff_of_false (not_accepts_error _) fun h => ?_
        cases h with
        | object hname' => cases hname.symm.trans hname'
      · rename_i name hname
        by_cases hempty : name = ""
        · rw [if_pos hempty]
          refine iff_of_false (not_accepts_error _) fun h => ?_
          cases h with
          | object hname' hnonempty =>
              cases hname.symm.trans hname'
              exact hnonempty hempty
        · rw [if_neg hempty]
          -- what is left are the attributes: the members besides the name
          refine (accepts_bind_ok_iff.trans accepts_mapM_iff).trans ?_
          simp only [accepts_readAttribute, List.mem_filter, decide_eq_true_eq, and_imp]
          constructor
          · exact fun hattributes => .object hname hempty hattributes
          · intro h
            cases h with
            | object _ _ hattributes => exact hattributes
      · rename_i hnot hmember
        refine iff_of_false (not_accepts_error _) fun h => ?_
        cases h with
        | object hname => exact hnot _ (Option.some.inj (hmember.symm.trans hname))
  | _ => exact iff_of_false (not_accepts_error _) nofun

/-- A list is read item by item. -/
theorem accepts_items {α : Type} {shape : Json → Prop} {readItem : Json → Except Failure α}
    (h : ∀ item, Accepts (readItem item) ↔ shape item) {items : List Json} :
    Accepts (items.mapM readItem) ↔ IsArrayOf shape (.array items) := by
  rw [accepts_mapM_iff]
  constructor
  · exact fun hitems => ⟨items, rfl, fun item hitem => (h item).1 (hitems item hitem)⟩
  · rintro ⟨_, hsame, hitems⟩ item hitem
    obtain rfl := Json.array.inj hsame
    exact (h item).2 (hitems item hitem)

theorem accepts_readCalls :
    Accepts (readCalls site fields) ↔ MayHold fields "calls" (IsArrayOf IsCall) := by
  rw [readCalls]
  cases h : present? fields "calls" with
  | none => exact iff_of_true (accepts_ok _) (mayHold_of_absent h)
  | some value =>
      rw [mayHold_iff_of_present h]
      cases value with
      | array items => exact accepts_items fun _ => accepts_readCall
      | _ => exact iff_of_false (not_accepts_error _) nofun

theorem accepts_readTags :
    Accepts (readTags site fields) ↔ MayHold fields "tags" (IsArrayOf IsTag) := by
  rw [readTags]
  cases h : present? fields "tags" with
  | none => exact iff_of_true (accepts_ok _) (mayHold_of_absent h)
  | some value =>
      rw [mayHold_iff_of_present h]
      cases value with
      | array items => exact accepts_items fun _ => accepts_readTag
      | _ => exact iff_of_false (not_accepts_error _) nofun

theorem accepts_readAutowiringTypes :
    Accepts (readAutowiringTypes site fields) ↔
      MayHold fields "autowiring_types" fun value => IsText value ∨ IsArrayOf IsText value := by
  have htype : ∀ item, Accepts (readAutowiringType site item) ↔ IsText item := by
    intro item
    cases item with
    | string s => exact iff_of_true (accepts_ok _) ⟨s, rfl⟩
    | _ => exact iff_of_false (not_accepts_error _) nofun
  rw [readAutowiringTypes]
  cases h : present? fields "autowiring_types" with
  | none => exact iff_of_true (accepts_ok _) (mayHold_of_absent h)
  | some value =>
      rw [mayHold_iff_of_present h]
      cases value with
      | string s => exact iff_of_true (accepts_ok _) (Or.inl ⟨s, rfl⟩)
      | array items =>
          have hno : ¬ IsText (.array items) := nofun
          rw [or_iff_right hno]
          exact accepts_items htype
      | _ => exact iff_of_false (not_accepts_error _) (by rintro (⟨_, h⟩ | ⟨_, h, -⟩) <;> cases h)

/-! ## Decorations -/

theorem accepts_readPriority :
    Accepts (readPriority site fields) ↔ MayHold fields "decoration_priority" IsInteger := by
  rw [readPriority]
  cases h : present? fields "decoration_priority" with
  | none => exact iff_of_true (accepts_ok _) (mayHold_of_absent h)
  | some value =>
      rw [mayHold_iff_of_present h]
      cases value with
      | number n =>
          cases n with
          | whole i =>
              dsimp only [Number.toInt64?]
              cases hsigned : BoundedInt.ofInt? i.value with
              | some j =>
                  have hfits := BoundedInt.ofInt?_eq_some_iff.1 hsigned ▸ j.inRange
                  exact iff_of_true (accepts_ok _) ⟨i, rfl, hfits⟩
              | none =>
                  refine iff_of_false (not_accepts_error _) ?_
                  rintro ⟨_, hi, hfits⟩
                  cases hi
                  exact BoundedInt.ofInt?_eq_none_iff.1 hsigned hfits
          | float x => exact iff_of_false (not_accepts_error _) (by rintro ⟨_, h, -⟩; cases h)
      | _ => exact iff_of_false (not_accepts_error _) (by rintro ⟨_, h, -⟩; cases h)

theorem accepts_readDecoration :
    Accepts (readDecoration site fields) ↔ WritesDecoration fields := by
  rw [readDecoration, accepts_bind_iff]
  constructor
  · rintro ⟨found, hread, haccepts⟩
    refine ⟨accepts_readString.1 ⟨found, hread⟩, fun id hid => ?_⟩
    obtain rfl := Except.ok.inj (hread.symm.trans (readString_eq_ok_some_iff.2 hid))
    dsimp only at haccepts
    by_cases hmarked : id.toList.head? = some '@'
    · rw [if_pos hmarked] at haccepts
      exact absurd haccepts (not_accepts_error _)
    · rw [if_neg hmarked, accepts_bind_iff] at haccepts
      obtain ⟨innerName, hinner, haccepts⟩ := haccepts
      exact ⟨fun h => hmarked (marked_iff.2 h), accepts_readString.1 ⟨innerName, hinner⟩,
        accepts_readPriority.1 (accepts_bind_ok_iff.1 haccepts)⟩
  · rintro ⟨hdecorates, hrest⟩
    have hdecorated : Accepts (readString site fields "decorates") :=
      accepts_readString.2 hdecorates
    obtain ⟨found, hread⟩ := hdecorated
    refine ⟨found, hread, ?_⟩
    cases found with
    | none => exact accepts_ok none
    | some id =>
        obtain ⟨hbare, hinner, hpriority⟩ := hrest id (readString_eq_ok_some_iff.1 hread)
        have hmarked : ¬ id.toList.head? = some '@' := fun h => hbare (marked_iff.1 h)
        have hnamed : Accepts (readString site fields "decoration_inner_name") :=
          accepts_readString.2 hinner
        obtain ⟨innerName, hname⟩ := hnamed
        dsimp only
        rw [if_neg hmarked, accepts_bind_iff]
        exact ⟨innerName, hname, accepts_bind_ok_iff.2 (accepts_readPriority.2 hpriority)⟩

/-! ## Definitions and aliases -/

theorem accepts_readDefinition :
    Accepts (readDefinition site fields) ↔ WritesFields fields := by
  have hread : ∀ {α : Type} (x : Except Failure α), (∃ a, x = .ok a) ↔ Accepts x :=
    fun _ => Iff.rfl
  have hdone : ∀ d : Definition, Accepts (pure d) := accepts_ok
  rw [readDefinition]
  -- what one key holds does not matter for the others, so each is accepted by itself
  simp only [accepts_bind_iff, hdone, and_true, exists_and_right, hread, accepts_readString,
    accepts_readFlag, accepts_readDeprecation, accepts_readCallable, accepts_readArguments,
    accepts_readProperties, accepts_readCalls, accepts_readTags, accepts_readDecoration,
    accepts_readAutowiringTypes]
  constructor
  · rintro ⟨hparent, hclass, hshared, hsynthetic, hlazy, hpublic, habstract, hdeprecation, hfactory,
      hfile, harguments, hproperties, hconfigurator, hcalls, htags, hdecoration, hautowire, htypes⟩
    refine ⟨?_, ?_, hdeprecation, ?_, harguments, hproperties, hcalls, htags, hdecoration, htypes⟩
    · simp [hparent, hclass, hfile]
    · simp [hshared, hsynthetic, hlazy, hpublic, habstract, hautowire]
    · simp [hfactory, hconfigurator]
  · intro h
    have htexts := h.texts
    have hflags := h.flags
    have hcallables := h.callables
    simp only [List.forall_mem_cons, List.not_mem_nil] at htexts hflags hcallables
    obtain ⟨hparent, hclass, hfile, -⟩ := htexts
    obtain ⟨hshared, hsynthetic, hlazy, hpublic, habstract, hautowire, -⟩ := hflags
    obtain ⟨hfactory, hconfigurator, -⟩ := hcallables
    exact ⟨hparent, hclass, hshared, hsynthetic, hlazy, hpublic, habstract, h.deprecation, hfactory,
      hfile, h.arguments, h.properties, hconfigurator, h.calls, h.tags, h.decoration, hautowire,
      h.autowiringTypes⟩

theorem isTruthy_iff {value : Json} : isTruthy value = true ↔ ¬ IsFalsy value := by
  cases value with
  | null => exact iff_of_false Bool.false_ne_true fun h => h .null
  | bool b =>
      cases b with
      | false => exact iff_of_false Bool.false_ne_true fun h => h .false
      | true => exact iff_of_true rfl nofun
  | number n =>
      cases n with
      | whole i =>
          have hzero : IsFalsy (.number (.whole i)) ↔ i.value = 0 := by
            refine ⟨fun h => ?_, .integer⟩
            cases h with
            | integer hi => exact hi
          simp [hzero, isTruthy, Number.isZero]
      | float x =>
          have hzero : IsFalsy (.number (.float x)) ↔ x.significand = 0 := by
            have hunits : x.units = 0 ↔ x.significand = 0 := by
              rw [Binary64.units, Nat.mul_eq_zero]
              exact or_iff_left (Nat.pow_pos (Nat.succ_pos 1)).ne'
            rw [← hunits]
            refine ⟨fun h => ?_, .float⟩
            cases h with
            | float hx => exact hx
          simp [hzero, isTruthy, Number.isZero, Binary64.isZero]
  | string s =>
      have htext : IsFalsy (.string s) ↔ s = "" ∨ s = "0" := by
        constructor
        · intro h
          cases h with
          | emptyText => exact Or.inl rfl
          | zeroText => exact Or.inr rfl
        · rintro (rfl | rfl)
          · exact .emptyText
          · exact .zeroText
      simp [htext, isTruthy]
  | array items =>
      cases items with
      | nil => exact iff_of_false Bool.false_ne_true fun h => h .emptyArray
      | cons item rest => exact iff_of_true rfl nofun
  | object members => exact iff_of_true rfl nofun

theorem aliasIsPublic_iff : aliasIsPublic fields = true ↔
    ∀ value, Json.member? "public" fields = some value → ¬ IsFalsy value := by
  rw [aliasIsPublic]
  cases Json.member? "public" fields with
  | none => exact iff_of_true rfl nofun
  | some value =>
      simp only [Option.some.injEq, forall_eq']
      exact isTruthy_iff

/-- What an object is read as. -/
theorem readObject_eq_ok_iff {entry : Entry} :
    readObject site fields = .ok entry ↔ UsesEntryKeys fields ∧
      ((∃ target, Json.member? "alias" fields = some (.string target) ∧
          entry = .aliasing ⟨target, aliasIsPublic fields⟩) ∨
        (∀ value, Json.member? "alias" fields = some value → value = .null) ∧
          ∃ d, readDefinition site fields = .ok d ∧ entry = .definition d) := by
  rw [readObject, bind_eq_ok_iff, ← accepts_checkKeys site]
  constructor
  · rintro ⟨⟨⟩, hkeys, h⟩
    refine ⟨⟨(), hkeys⟩, ?_⟩
    obtain ⟨found, hfound, h⟩ := bind_eq_ok_iff.1 h
    cases found with
    | some target =>
        exact Or.inl ⟨target, readString_eq_ok_some_iff.1 hfound, (Except.ok.inj h).symm⟩
    | none =>
        obtain ⟨d, hd, h⟩ := bind_eq_ok_iff.1 h
        exact Or.inr ⟨readString_eq_ok_none_iff.1 hfound, d, hd, (Except.ok.inj h).symm⟩
  · rintro ⟨⟨⟨⟩, hkeys⟩, ⟨target, htarget, rfl⟩ | ⟨hnone, d, hd, rfl⟩⟩
    · exact ⟨(), hkeys, bind_eq_ok_iff.2 ⟨_, readString_eq_ok_some_iff.2 htarget, rfl⟩⟩
    · refine ⟨(), hkeys, bind_eq_ok_iff.2 ⟨_, readString_eq_ok_none_iff.2 hnone, ?_⟩⟩
      exact bind_eq_ok_iff.2 ⟨d, hd, rfl⟩

theorem readObject_eq_alias_iff {a : Alias} :
    readObject site fields = .ok (.aliasing a) ↔ WritesAlias (.object fields) a := by
  rw [readObject_eq_ok_iff]
  constructor
  · rintro ⟨hkeys, ⟨target, htarget, ha⟩ | ⟨-, d, -, hd⟩⟩
    · obtain rfl := Entry.aliasing.inj ha
      exact .object hkeys htarget aliasIsPublic_iff
    · cases hd
  · intro h
    cases h with
    | @object _ target isPublic hkeys htarget hpublic =>
        have hsame : isPublic = aliasIsPublic fields :=
          Bool.eq_iff_iff.2 (hpublic.trans aliasIsPublic_iff.symm)
        exact ⟨hkeys, Or.inl ⟨target, htarget, hsame ▸ rfl⟩⟩

theorem exists_readObject_definition_iff :
    (∃ d, readObject site fields = .ok (.definition d)) ↔ WritesDefinition (.object fields) := by
  simp only [readObject_eq_ok_iff]
  constructor
  · rintro ⟨d, hkeys, ⟨target, -, hd⟩ | ⟨hnone, d', hd', -⟩⟩
    · cases hd
    · exact .object hkeys hnone (accepts_readDefinition.1 ⟨d', hd'⟩)
  · rintro ⟨hkeys, hnone, hfields⟩
    have haccepts : Accepts (readDefinition site fields) := accepts_readDefinition.2 hfields
    obtain ⟨d, hd⟩ := haccepts
    exact ⟨d, hkeys, Or.inr ⟨hnone, d, hd, rfl⟩⟩

theorem read_marked (target : String) :
    read site (.string ("@" ++ target)) = .ok (.aliasing ⟨target, true⟩) := by
  have hchars : ("@" ++ target).toList = '@' :: target.toList := by
    rw [String.toList_append]
    rfl
  rw [read, hchars]
  simp

/-- A marked text writes one alias. -/
theorem eq_of_writesAlias_marked {value : Json} {target : String} {a : Alias}
    (h : WritesAlias value a) (hvalue : value = .string ("@" ++ target)) : a = ⟨target, true⟩ := by
  cases h with
  | text => rw [(String.append_right_inj "@").1 (Json.string.inj hvalue)]
  | object => cases hvalue

/-- What is neither a marked text nor an object is no entry. -/
theorem read_eq_error {value : Json} (htext : ∀ target, value ≠ .string ("@" ++ target))
    (hobject : ∀ members, value ≠ .object members) : ∃ e, read site value = .error e := by
  cases value with
  | object members => exact absurd rfl (hobject members)
  | string s =>
      rw [read]
      split
      · rename_i target hchars
        obtain ⟨rest, rfl⟩ := marked_iff.1 (congrArg List.head? hchars)
        exact absurd rfl (htext rest)
      · exact ⟨_, rfl⟩
  | _ => exact ⟨_, rfl⟩

/-- A value is read as an alias exactly when it writes this alias, and as a definition exactly when
it writes one. -/
theorem read_accepts_grammar (site : EntrySite) (value : Json) :
    (∀ a, read site value = .ok (.aliasing a) ↔ WritesAlias value a) ∧
      ((∃ d, read site value = .ok (.definition d)) ↔ WritesDefinition value) := by
  by_cases hobject : ∃ fields, value = .object fields
  · obtain ⟨fields, rfl⟩ := hobject
    exact ⟨fun _ => readObject_eq_alias_iff, exists_readObject_definition_iff⟩
  by_cases htext : ∃ target, value = .string ("@" ++ target)
  · obtain ⟨target, rfl⟩ := htext
    rw [read_marked]
    constructor
    · intro a
      constructor
      · intro h
        obtain rfl := Entry.aliasing.inj (Except.ok.inj h)
        exact .text
      · intro h
        rw [eq_of_writesAlias_marked h rfl]
    · constructor
      · rintro ⟨d, hd⟩
        cases Except.ok.inj hd
      · intro h
        cases h
  · have hfault : ∃ e, read site value = .error e :=
      read_eq_error (fun target h => htext ⟨target, h⟩) fun fields h => hobject ⟨fields, h⟩
    obtain ⟨e, he⟩ := hfault
    rw [he]
    constructor
    · intro a
      constructor
      · intro h
        cases h
      · intro h
        cases h with
        | text => exact absurd ⟨_, rfl⟩ htext
        | object => exact absurd ⟨_, rfl⟩ hobject
    · constructor
      · rintro ⟨d, hd⟩
        cases hd
      · intro h
        cases h with
        | object => exact absurd ⟨_, rfl⟩ hobject

end Entry

end ServiceGraph
