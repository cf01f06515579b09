import ServiceGraph.Proofs.Callables
import ServiceGraph.Proofs.OrderedMap

/-!
# The order of keys in an entry, and keys with null

The reader of entries finds the members of an object by their keys, so the order of the members is
of no account (`Entry.read_congr`). A member with value null is no different from a missing one,
with two exceptions: a definition with the key `deprecated` is deprecated even with null, and an
alias with the key `public` is not public then (`Entry.GainsNull.read_eq`).

`Entry.read_order_and_nulls` puts both together for the objects that use the keys of an entry.
-/

set_option autoImplicit false

namespace ServiceGraph

namespace Entry

open EntryGrammar

variable {site : EntrySite} {fields fields' : List (String × Json)} {key : String}

/-! ## Reading by lookups -/

theorem usesEntryKeys_iff_member? :
    UsesEntryKeys fields ↔ ∀ key, (Json.member? key fields).isSome = true → key ∈ entryKeys := by
  simp only [Json.member?, OrderedMap.valueAt_isSome_iff, UsesEntryKeys, List.forall_mem_map]

theorem checkKeys_eq_ok (huses : UsesEntryKeys fields) : checkKeys site fields = .ok () := by
  obtain ⟨⟨⟩, hok⟩ := (accepts_checkKeys site).2 huses
  exact hok

/-- An object with allowed keys is read as the alias that it writes, and otherwise as a
definition. -/
theorem readObject_eq_bind (huses : UsesEntryKeys fields) :
    readObject site fields = readString site fields "alias" >>= fun target? =>
      match target? with
      | some target => .ok (.aliasing ⟨target, aliasIsPublic fields⟩)
      | none => Entry.definition <$> readDefinition site fields := by
  rw [readObject, checkKeys_eq_ok huses]
  rfl

/-- Objects with the same values under the same keys are read alike. -/
theorem read_congr (huses : UsesEntryKeys fields)
    (hsame : ∀ key, Json.member? key fields' = Json.member? key fields) :
    read site (.object fields') = read site (.object fields) := by
  have huses' : UsesEntryKeys fields' := by
    rw [usesEntryKeys_iff_member?] at huses ⊢
    simpa only [hsame] using huses
  rw [read, read, readObject_eq_bind huses', readObject_eq_bind huses]
  simp only [readDefinition, readString, readFlag, readDeprecation, readCallable, readArguments,
    readProperties, readCalls, readTags, readDecoration, readPriority, readAutowiringTypes,
    aliasIsPublic, present?, hsame]

/-! ## A key with null in place of a missing one -/

/-- An object has a key with value null that is missing from another object, and the same values
under the other keys. -/
structure GainsNull (fields : List (String × Json)) (key : String)
    (fields' : List (String × Json)) : Prop where
  absent : Json.member? key fields = none
  null : Json.member? key fields' = some .null
  others : ∀ other, other ≠ key → Json.member? other fields' = Json.member? other fields

/-- What an entry becomes when a key with value null is added: `deprecated` deprecates a definition,
and `public` hides an alias. -/
def withNull (key : String) : Entry → Entry
  | .definition d =>
    .definition { d with deprecation := if key = "deprecated" then some ⟨none⟩ else d.deprecation }
  | .aliasing a => .aliasing { a with isPublic := a.isPublic && key ≠ "public" }

/-- The keys whose presence matters even with value null. -/
inductive NullMatters (site : EntrySite) (fields : List (String × Json)) (key : String) : Prop
  | deprecated {d : Definition} (hkey : key = "deprecated")
      (hd : read site (.object fields) = .ok (.definition d)) : NullMatters site fields key
  | visibility {target : String} (hkey : key = "public")
      (htarget : Json.member? "alias" fields = some (.string target)) : NullMatters site fields key

theorem NullMatters.of_same (h : NullMatters site fields key)
    (hdefinition : (∃ d, read site (.object fields) = .ok (.definition d)) →
      ∃ d, read site (.object fields') = .ok (.definition d))
    (halias : key = "public" → Json.member? "alias" fields' = Json.member? "alias" fields) :
    NullMatters site fields' key := by
  cases h with
  | deprecated hkey hd =>
      obtain ⟨d', hd'⟩ := hdefinition ⟨_, hd⟩
      exact .deprecated hkey hd'
  | visibility hkey htarget => exact .visibility hkey ((halias hkey).trans htarget)

namespace GainsNull

theorem present?_eq (h : GainsNull fields key fields') (other : String) :
    present? fields' other = present? fields other := by
  by_cases hother : other = key
  · subst hother
    rw [present?, present?, h.absent, h.null]
  · rw [present?, present?, h.others other hother]

theorem usesEntryKeys_iff (h : GainsNull fields key fields') (hkey : key ∈ entryKeys) :
    UsesEntryKeys fields' ↔ UsesEntryKeys fields := by
  rw [usesEntryKeys_iff_member?, usesEntryKeys_iff_member?]
  refine forall_congr' fun other => ?_
  by_cases hother : other = key
  · subst hother
    exact iff_of_true (fun _ => hkey) fun _ => hkey
  · rw [h.others other hother]

theorem readDeprecation_eq (h : GainsNull fields key fields') :
    readDeprecation site fields' =
      (fun deprecation => if key = "deprecated" then some ⟨none⟩ else deprecation) <$>
        readDeprecation site fields := by
  by_cases hkey : key = "deprecated"
  · subst hkey
    rw [readDeprecation, readDeprecation, h.absent, h.null]
    rfl
  · rw [readDeprecation, readDeprecation, h.others "deprecated" (Ne.symm hkey)]
    simp only [if_neg hkey]
    exact (id_map _).symm

theorem aliasIsPublic_eq (h : GainsNull fields key fields') :
    aliasIsPublic fields' = (aliasIsPublic fields && key ≠ "public") := by
  by_cases hkey : key = "public"
  · subst hkey
    rw [aliasIsPublic, h.null]
    simp [isTruthy]
  · rw [aliasIsPublic, aliasIsPublic, h.others "public" (Ne.symm hkey)]
    simp [hkey]

/-- All fields of a definition but the deprecation are read from what is there and not null. -/
theorem readDefinition_eq (h : GainsNull fields key fields') :
    readDefinition site fields' =
      (fun d : Definition =>
        { d with deprecation := if key = "deprecated" then some ⟨none⟩ else d.deprecation }) <$>
        readDefinition site fields := by
  rw [readDefinition, readDefinition, h.readDeprecation_eq]
  simp only [readString, readFlag, readCallable, readArguments, readProperties, readCalls, readTags,
    readDecoration, readPriority, readAutowiringTypes, h.present?_eq, map_bind, bind_map_left,
    map_pure]

theorem read_eq (h : GainsNull fields key fields') (huses : UsesEntryKeys fields)
    (hkey : key ∈ entryKeys) :
    read site (.object fields') = withNull key <$> read site (.object fields) := by
  rw [read, read, readObject_eq_bind huses, readObject_eq_bind ((h.usesEntryKeys_iff hkey).2 huses),
    h.readDefinition_eq, h.aliasIsPublic_eq, readString, readString, h.present?_eq, map_bind]
  congr 1
  funext target?
  cases target? with
  | some target => rfl
  | none =>
      cases readDefinition site fields with
      | ok d => rfl
      | error e => rfl

/-- The exceptions are the same with the key and without it. -/
theorem nullMatters_iff (h : GainsNull fields key fields') (huses : UsesEntryKeys fields)
    (hkey : key ∈ entryKeys) : NullMatters site fields' key ↔ NullMatters site fields key := by
  have hdefinition : (∃ d, read site (.object fields') = .ok (.definition d)) ↔
      ∃ d, read site (.object fields) = .ok (.definition d) := by
    rw [h.read_eq huses hkey]
    cases read site (.object fields) with
    | error e => exact Iff.rfl
    | ok entry =>
        cases entry with
        | definition d => simp [withNull]
        | aliasing a => simp [withNull]
  have halias : key = "public" → Json.member? "alias" fields' = Json.member? "alias" fields := by
    rintro rfl
    exact h.others "alias" (by decide)
  exact ⟨fun hmatters => hmatters.of_same hdefinition.1 fun hkey => (halias hkey).symm,
    fun hmatters => hmatters.of_same hdefinition.2 halias⟩

/-- A key with value null is read as a missing one, up to the two exceptions. -/
theorem read_eq_iff (h : GainsNull fields key fields') (huses : UsesEntryKeys fields)
    (hkey : key ∈ entryKeys) :
    read site (.object fields') = read site (.object fields) ↔ ¬ NullMatters site fields key := by
  rw [h.read_eq huses hkey]
  cases hread : read site (.object fields) with
  | error e =>
      refine iff_of_true rfl fun hmatters => ?_
      cases hmatters with
      | deprecated _ hd => cases hread.symm.trans hd
      | visibility _ htarget =>
          cases hread.symm.trans (readObject_eq_ok_iff.2 ⟨huses, Or.inl ⟨_, htarget, rfl⟩⟩)
  | ok entry =>
      obtain ⟨-, ⟨target, htarget, rfl⟩ | ⟨hnone, d, hd, rfl⟩⟩ := readObject_eq_ok_iff.1 hread
      · by_cases hpublic : key = "public"
        · subst hpublic
          -- without the key the alias is public
          have hvisible : aliasIsPublic fields = true := by rw [aliasIsPublic, h.absent]
          refine iff_of_false ?_ (not_not_intro (.visibility rfl htarget))
          simp [withNull, hvisible]
        · refine iff_of_true (by simp [withNull, hpublic]) fun hmatters => ?_
          cases hmatters with
          | deprecated _ hd => cases hread.symm.trans hd
          | visibility hname => exact hpublic hname
      · by_cases hdeprecated : key = "deprecated"
        · subst hdeprecated
          -- without the key the definition is not deprecated
          have hundeprecated : d.deprecation = none := by
            have hd' := (readDefinition_eq_ok_iff.1 hd).deprecation
            rw [readDeprecation, h.absent] at hd'
            exact (Except.ok.inj hd').symm
          refine iff_of_false (fun hsame => ?_) (not_not_intro (.deprecated rfl hread))
          have hd' := congrArg Definition.deprecation (Entry.definition.inj (Except.ok.inj hsame))
          cases hd'.trans hundeprecated
        · refine iff_of_true (by simp [withNull, hdeprecated]) fun hmatters => ?_
          cases hmatters with
          | deprecated hname => exact hdeprecated hname
          | visibility _ htarget => cases hnone _ htarget

end GainsNull

theorem gainsNull_insert {before after : List (String × Json)}
    (h : key ∉ (before ++ after).map Prod.fst) :
    GainsNull (before ++ after) key (before ++ (key, .null) :: after) := by
  rw [List.map_append, List.mem_append, not_or] at h
  obtain ⟨hbefore, hafter⟩ := h
  refine ⟨?_, ?_, fun other hother => ?_⟩
  · rw [Json.member?, OrderedMap.valueAt_append, OrderedMap.valueAt_eq_none_iff.2 hbefore,
      OrderedMap.valueAt_eq_none_iff.2 hafter]
    rfl
  · rw [Json.member?, OrderedMap.valueAt_append, OrderedMap.valueAt_eq_none_iff.2 hbefore,
      OrderedMap.valueAt, if_pos rfl]
    rfl
  · rw [Json.member?, Json.member?, OrderedMap.valueAt_append, OrderedMap.valueAt_append,
      OrderedMap.valueAt, if_neg (Ne.symm hother)]

theorem gainsNull_without (h : Json.member? key fields = some .null) :
    GainsNull (without fields key) key fields := by
  refine ⟨?_, h, fun other hother => (member?_without_of_ne hother).symm⟩
  rw [Json.member?, without, OrderedMap.valueAt_filter_ne, if_pos rfl]

/-- What an object with the keys of an entry is read as does not depend on the order of its keys. It
does not change either when a key with value null is put in at any place, or taken out, unless the
key is `deprecated` and the object is read as a definition, or the key is `public` and the object
has a text for its alias. -/
theorem read_order_and_nulls (site : EntrySite) {fields : List (String × Json)}
    (huses : UsesEntryKeys fields) (hdistinct : (fields.map Prod.fst).Nodup) :
    (∀ fields', fields'.Perm fields →
      read site (.object fields') = read site (.object fields)) ∧
    (∀ before after key, fields = before ++ after → key ∈ entryKeys →
      key ∉ fields.map Prod.fst →
      (read site (.object (before ++ (key, .null) :: after)) = read site (.object fields) ↔
        ¬ NullMatters site fields key)) ∧
    ∀ key, (key, .null) ∈ fields →
      (read site (.object (without fields key)) = read site (.object fields) ↔
        ¬ NullMatters site fields key) := by
  refine ⟨fun fields' hperm => ?_, fun before after key hfields hkey habsent => ?_,
    fun key hnull => ?_⟩
  · exact read_congr huses (OrderedMap.valueAt_eq_of_perm hperm hdistinct)
  · subst hfields
    exact (gainsNull_insert habsent).read_eq_iff huses hkey
  · have hkey : key ∈ entryKeys := huses _ hnull
    have hgains := gainsNull_without (OrderedMap.valueAt_eq_some_of_mem hdistinct hnull)
    have huses' := (usesEntryKeys_without_iff hkey).2 huses
    rw [eq_comm, hgains.read_eq_iff huses' hkey, hgains.nullMatters_iff huses' hkey]

/-- An alias with a null key, and with a key that is read of definitions only. -/
def aliasFields : List (String × Json) :=
  [("class", .null), ("alias", .string "mailer"), ("shared", .bool false)]

theorem read_order_and_nulls_alias :
    UsesEntryKeys aliasFields ∧ (aliasFields.map Prod.fst).Nodup ∧
    read ⟨"mail", "app.json"⟩ (.object aliasFields.reverse) =
      read ⟨"mail", "app.json"⟩ (.object aliasFields) ∧
    read ⟨"mail", "app.json"⟩ (.object (without aliasFields "class")) =
      read ⟨"mail", "app.json"⟩ (.object aliasFields) ∧
    read ⟨"mail", "app.json"⟩ (.object (("deprecated", .null) :: aliasFields)) =
      read ⟨"mail", "app.json"⟩ (.object aliasFields) ∧
    read ⟨"mail", "app.json"⟩ (.object (("public", .null) :: aliasFields)) ≠
      read ⟨"mail", "app.json"⟩ (.object aliasFields) := by
  have huses : UsesEntryKeys aliasFields := by
    unfold UsesEntryKeys
    decide
  have hdistinct : (aliasFields.map Prod.fst).Nodup := by decide
  have halias : read ⟨"mail", "app.json"⟩ (.object aliasFields) =
      .ok (.aliasing ⟨"mailer", true⟩) := by rfl
  obtain ⟨horder, hadd, hdelete⟩ :=
    read_order_and_nulls ⟨"mail", "app.json"⟩ huses hdistinct
  refine ⟨huses, hdistinct, horder _ (List.reverse_perm _), ?_, ?_, ?_⟩
  · refine (hdelete "class" List.mem_cons_self).2 fun hmatters => ?_
    cases hmatters with
    | deprecated hname => exact absurd hname (by decide)
    | visibility hname => exact absurd hname (by decide)
  · refine (hadd [] aliasFields "deprecated" rfl (by decide) (by decide)).2 fun hmatters => ?_
    cases hmatters with
    | deprecated _ hd => exact nomatch halias.symm.trans hd
    | visibility hname => exact absurd hname (by decide)
  · rw [ne_eq, ← List.nil_append (("public", Json.null) :: aliasFields),
      hadd [] aliasFields "public" rfl (by decide) (by decide), not_not]
    exact .visibility rfl rfl

end Entry

end ServiceGraph
