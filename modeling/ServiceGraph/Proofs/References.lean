import ServiceGraph.Graph.Export

/-!
# Reading and writing references

`Reference.render` writes a reference in the grammar that `Reference.read?` reads. A text that
starts with `@` is written as it was read, but for one case: a literal loses a final `=`
(`Reference.render_of_read?`). So a reference that was read is read again as itself unless it is a
literal that ends in `=` (`Reference.read?_render_iff`), and two texts have one reading when they
are equal or differ in such a final `=` (`Value.ofText_eq_iff`).

`Value.written` writes a value as JSON with every reference rendered. Writing a JSON value that was
read gives it back exactly when each of its leaves is kept (`Value.written_ofJson_iff`).
`Value.reading_kept_but_for_final_mark` puts all this together.
-/

set_option autoImplicit false

namespace ServiceGraph

namespace Reference

/-- A text that starts with `@@` and ends with `=`. -/
def IsMarkedLiteral (s : String) : Prop := s.startsWith "@@" = true ∧ s.endsWith '=' = true

/-- The second text is the first one, which starts with `@@` and does not end with `=`, followed by
one `=`. -/
def Marks (s t : String) : Prop :=
  s.startsWith "@@" = true ∧ s.endsWith '=' = false ∧ t = s ++ "="

/-! ## The final mark -/

theorem splitMark_of_marked {s : List Char} (h : s.getLast? = some '=') :
    splitMark s = (s.dropLast, false) := if_pos h

theorem splitMark_of_not_marked {s : List Char} (h : s.getLast? ≠ some '=') :
    splitMark s = (s, true) := if_neg h

theorem dropLast_append_mark {s : List Char} (h : s.getLast? = some '=') :
    s.dropLast ++ ['='] = s := by
  obtain ⟨init, rfl⟩ := List.getLast?_eq_some_iff.1 h
  rw [List.dropLast_concat]

/-- A text is what stands before its final mark, and the mark. -/
theorem splitMark_append_mark (s : List Char) :
    (splitMark s).1 ++ (mark (splitMark s).2).toList = s := by
  by_cases h : s.getLast? = some '='
  · rw [splitMark_of_marked h]
    simp [mark, dropLast_append_mark h]
  · rw [splitMark_of_not_marked h]
    exact List.append_nil s

theorem endsWith_mark_iff {s : String} : s.endsWith '=' = true ↔ s.toList.getLast? = some '=' := by
  rw [String.endsWith_char_eq_getLast?, beq_iff_eq]

theorem startsWith_literal_iff {s : String} :
    s.startsWith "@@" = true ↔ ∃ rest, s.toList = '@' :: '@' :: rest := by
  rw [String.startsWith_string_iff]
  exact exists_congr fun rest => eq_comm

/-- After a sign, a text ends in a mark when what follows the sign does. -/
theorem getLast?_sign_cons {rest : List Char} :
    ('@' :: rest).getLast? = some '=' ↔ rest.getLast? = some '=' := by
  cases rest with
  | nil => simp
  | cons c rest => rw [List.getLast?_cons_cons]

/-- A text is a marked literal when it starts with two signs and what follows ends in a mark. -/
theorem isMarkedLiteral_iff {s : String} {rest : List Char} (h : s.toList = '@' :: '@' :: rest) :
    IsMarkedLiteral s ↔ rest.getLast? = some '=' := by
  rw [IsMarkedLiteral, startsWith_literal_iff, endsWith_mark_iff, h, getLast?_sign_cons,
    getLast?_sign_cons]
  exact and_iff_right ⟨rest, rfl⟩

/-! ## What is read -/

/-- A text that does not start with two signs has no literal, and its reference is written as the
text. -/
theorem render_of_not_literal {chars : List Char} {r : Reference} (h : readChars? chars = some r)
    (hsigns : ∀ rest, chars ≠ '@' :: '@' :: rest) :
    (∀ value, r ≠ .literal value) ∧ r.render.toList = chars := by
  unfold readChars? at h
  -- the rules in their order: an expression, a literal, an optional service and a service
  split at h
  · obtain rfl := Option.some.inj h
    refine ⟨nofun, ?_⟩
    simp only [render, String.toList_append, String.toList_ofList]
    rfl
  · exact absurd rfl (hsigns _)
  · obtain rfl := Option.some.inj h
    refine ⟨nofun, ?_⟩
    simp only [render, String.toList_append, String.toList_ofList, List.append_assoc,
      splitMark_append_mark]
    rfl
  · obtain rfl := Option.some.inj h
    refine ⟨nofun, ?_⟩
    simp only [render, String.toList_append, String.toList_ofList, List.append_assoc,
      splitMark_append_mark]
    rfl
  · exact nomatch h

/-- A text that starts with a sign has a reference. -/
theorem exists_read? {s : String} (h : s.startsWith '@' = true) : ∃ r, read? s = some r := by
  obtain ⟨rest, rfl⟩ := String.startsWith_char_iff_exists_append.1 h
  have hchars : (String.singleton '@' ++ rest).toList = '@' :: rest.toList := by simp
  rw [read?, hchars]
  unfold readChars?
  split
  · exact ⟨_, rfl⟩
  · exact ⟨_, rfl⟩
  · exact ⟨_, rfl⟩
  · exact ⟨_, rfl⟩
  · rename_i hnone
    exact absurd rfl (hnone rest.toList)

/-- The reference of a text that starts with two signs. -/
theorem read?_literal {s : String} {rest : List Char} (hs : s.toList = '@' :: '@' :: rest) :
    read? s = some (.literal (String.ofList ('@' :: (splitMark rest).1))) := by
  rw [read?, hs, readChars?]

/-- A reference that is read of a text is written as the text, without its final mark if the text is
a marked literal. -/
theorem render_of_read? {s : String} {r : Reference} (h : read? s = some r) :
    (IsMarkedLiteral s → r.render ++ "=" = s) ∧ (¬ IsMarkedLiteral s → r.render = s) := by
  by_cases hsigns : ∃ rest, s.toList = '@' :: '@' :: rest
  · obtain ⟨rest, hs⟩ := hsigns
    rw [isMarkedLiteral_iff hs]
    obtain rfl := Option.some.inj ((read?_literal hs).symm.trans h)
    constructor
    · intro hmarked
      rw [splitMark_of_marked hmarked, ← String.toList_inj, hs]
      simp [render, dropLast_append_mark hmarked]
    · intro hplain
      rw [splitMark_of_not_marked hplain, ← String.toList_inj, hs]
      simp [render]
  · -- without two signs the mark is part of what the reference keeps
    have hrender := (render_of_not_literal h fun rest hs => hsigns ⟨rest, hs⟩).2
    refine ⟨fun hmarked => ?_, fun _ => String.toList_inj.1 hrender⟩
    exact absurd (startsWith_literal_iff.1 hmarked.1) hsigns

/-- A reference that was read is read again of its own text, unless it is a literal that ends in a
mark. -/
theorem read?_render_iff {s : String} {r : Reference} (h : read? s = some r) :
    read? r.render = some r ↔ ¬ ∃ value, r = .literal value ∧ value.endsWith '=' = true := by
  by_cases hsigns : ∃ rest, s.toList = '@' :: '@' :: rest
  · obtain ⟨rest, hs⟩ := hsigns
    obtain rfl := Option.some.inj ((read?_literal hs).symm.trans h)
    -- the text of the literal starts with two signs again
    generalize (splitMark rest).1 = kept
    have hrender : (literal (String.ofList ('@' :: kept))).render.toList = '@' :: '@' :: kept := by
      simp [render]
    have hends : (∃ value, literal (String.ofList ('@' :: kept)) = .literal value ∧
        value.endsWith '=' = true) ↔ kept.getLast? = some '=' := by
      rw [← getLast?_sign_cons]
      constructor
      · rintro ⟨value, heq, hvalue⟩
        obtain rfl := literal.inj heq
        rwa [endsWith_mark_iff, String.toList_ofList] at hvalue
      · intro hlast
        exact ⟨_, rfl, by rwa [endsWith_mark_iff, String.toList_ofList]⟩
    rw [read?_literal hrender, hends]
    by_cases hmarked : kept.getLast? = some '='
    · -- the mark goes, so the text becomes shorter
      rw [splitMark_of_marked hmarked]
      refine iff_of_false (fun heq => ?_) (fun hplain => hplain hmarked)
      have hchars := congrArg String.toList (literal.inj (Option.some.inj heq))
      rw [String.toList_ofList, String.toList_ofList] at hchars
      have hshorter : kept.dropLast = kept := (List.cons.inj hchars).2
      have hlength := congrArg List.length (dropLast_append_mark hmarked)
      rw [hshorter, List.length_append] at hlength
      simp at hlength
    · rw [splitMark_of_not_marked hmarked]
      exact iff_of_true rfl hmarked
  · obtain ⟨hliteral, hrender⟩ := render_of_not_literal h fun rest hs => hsigns ⟨rest, hs⟩
    rw [String.toList_inj.1 hrender]
    refine iff_of_true h ?_
    rintro ⟨value, rfl, -⟩
    exact hliteral value rfl

end Reference

open Reference (IsMarkedLiteral Marks splitMark splitMark_of_marked splitMark_of_not_marked
  startsWith_literal_iff endsWith_mark_iff getLast?_sign_cons read?_literal render_of_read?)

namespace Value

theorem ofText_eq_reference_iff {s : String} {r : Reference} :
    ofText s = .reference r ↔ Reference.read? s = some r := by
  rw [ofText]
  cases Reference.read? s with
  | none => simp [Value.string]
  | some r' => simp

/-- A final mark after a literal without one is not read. -/
theorem ofText_of_marks {s t : String} (h : Marks s t) : ofText s = ofText t := by
  obtain ⟨hsigns, hends, rfl⟩ := h
  obtain ⟨rest, hs⟩ := startsWith_literal_iff.1 hsigns
  have hplain : rest.getLast? ≠ some '=' := by
    intro hlast
    rw [← Bool.not_eq_true, endsWith_mark_iff, hs, getLast?_sign_cons, getLast?_sign_cons] at hends
    exact hends hlast
  have ht : (s ++ "=").toList = '@' :: '@' :: (rest ++ ['=']) := by
    rw [String.toList_append, hs]
    simp
  rw [ofText, ofText, read?_literal hs, read?_literal ht, splitMark_of_not_marked hplain,
    splitMark_of_marked List.getLast?_concat, List.dropLast_concat]

/-- A marked literal is the text of its own reference, followed by a mark. -/
theorem marks_of_render {s : String} {r : Reference} (h : Reference.read? s = some r)
    (hmarked : IsMarkedLiteral s) (hplain : ¬ IsMarkedLiteral r.render) : Marks r.render s := by
  have hsigns : r.render.startsWith "@@" = true := by
    obtain ⟨rest, hs⟩ := startsWith_literal_iff.1 hmarked.1
    obtain rfl := Option.some.inj ((read?_literal hs).symm.trans h)
    exact startsWith_literal_iff.2 ⟨(splitMark rest).1, by simp [Reference.render]⟩
  refine ⟨hsigns, ?_, ((render_of_read? h).1 hmarked).symm⟩
  rw [← Bool.not_eq_true]
  exact fun hends => hplain ⟨hsigns, hends⟩

/-- Two texts have the same reading when they are equal, or when one is the other, a literal without
final mark, followed by one. -/
theorem ofText_eq_iff {s t : String} : ofText s = ofText t ↔ s = t ∨ Marks s t ∨ Marks t s := by
  constructor
  · intro h
    -- both texts are rendered again from the one reference they share
    cases hs : Reference.read? s with
    | none =>
        cases ht : Reference.read? t with
        | none =>
            rw [ofText, ofText, hs, ht] at h
            exact Or.inl (Scalar.string.inj (Value.scalar.inj h))
        | some r =>
            rw [ofText, ofText, hs, ht] at h
            exact nomatch h
    | some r =>
        have ht : Reference.read? t = some r :=
          ofText_eq_reference_iff.1 (h.symm.trans (ofText_eq_reference_iff.2 hs))
        obtain ⟨hmarked, hplain⟩ := render_of_read? hs
        obtain ⟨hmarked', hplain'⟩ := render_of_read? ht
        by_cases hms : IsMarkedLiteral s
        · by_cases hmt : IsMarkedLiteral t
          · exact Or.inl ((hmarked hms).symm.trans (hmarked' hmt))
          · -- the second text is that of the reference
            have hrender := hplain' hmt
            subst hrender
            exact Or.inr (Or.inr (marks_of_render hs hms hmt))
        · have hrender := hplain hms
          by_cases hmt : IsMarkedLiteral t
          · subst hrender
            exact Or.inr (Or.inl (marks_of_render ht hmt hms))
          · exact Or.inl (hrender.symm.trans (hplain' hmt))
  · rintro (rfl | h | h)
    · rfl
    · exact ofText_of_marks h
    · exact (ofText_of_marks h).symm

end Value

/-! ## Values written as JSON -/

namespace Json

mutual

/-- The values without structure that a value is built from. -/
def leaves : Json → List Json
  | .null => [.null]
  | .bool b => [.bool b]
  | .number n => [.number n]
  | .string s => [.string s]
  | .array items => itemLeaves items
  | .object members => memberLeaves members

/-- `Json.leaves` of each item. -/
def itemLeaves : List Json → List Json
  | [] => []
  | item :: rest => leaves item ++ itemLeaves rest

/-- `Json.leaves` of each member's value. -/
def memberLeaves : List (String × Json) → List Json
  | [] => []
  | (_, value) :: rest => leaves value ++ memberLeaves rest

end

/-- Whether a value is neither an array nor an object. -/
def IsLeaf : Json → Prop
  | .array _ => False
  | .object _ => False
  | _ => True

mutual

theorem isLeaf_of_mem_leaves : ∀ (v : Json) {leaf : Json}, leaf ∈ v.leaves → leaf.IsLeaf
  | .null, _, h | .bool _, _, h | .number _, _, h | .string _, _, h => by
      rw [leaves, List.mem_singleton] at h
      rw [h]
      trivial
  | .array items, _, h => by
      rw [leaves] at h
      exact isLeaf_of_mem_itemLeaves items h
  | .object members, _, h => by
      rw [leaves] at h
      exact isLeaf_of_mem_memberLeaves members h

theorem isLeaf_of_mem_itemLeaves : ∀ (items : List Json) {leaf : Json},
    leaf ∈ itemLeaves items → leaf.IsLeaf
  | item :: rest, _, h => by
      rw [itemLeaves, List.mem_append] at h
      exact h.elim (isLeaf_of_mem_leaves item) (isLeaf_of_mem_itemLeaves rest)

theorem isLeaf_of_mem_memberLeaves : ∀ (members : List (String × Json)) {leaf : Json},
    leaf ∈ memberLeaves members → leaf.IsLeaf
  | (_, value) :: rest, _, h => by
      rw [memberLeaves, List.mem_append] at h
      exact h.elim (isLeaf_of_mem_leaves value) (isLeaf_of_mem_memberLeaves rest)

end

end Json

namespace Value

mutual

/-- A value as JSON, with every reference rendered. -/
def written : Value → Json
  | .scalar s => s.toJson
  | .list items => .array (writtenItems items)
  | .map entries => .object (writtenEntries entries)
  | .reference r => .string r.render

/-- `Value.written` of each item. -/
def writtenItems : List Value → List Json
  | [] => []
  | item :: rest => written item :: writtenItems rest

/-- `Value.written` of each entry's value. -/
def writtenEntries : List (String × Value) → List (String × Json)
  | [] => []
  | (key, value) :: rest => (key, written value) :: writtenEntries rest

end

/-- A leaf that is written as it was read. -/
def Kept (leaf : Json) : Prop := (ofJson leaf).written = leaf

theorem kept_number_iff {n : Number} :
    Kept (.number n) ↔ ∀ i, n = .whole i → Integer64.FitsSigned i.value := by
  cases n with
  | float x => exact iff_of_true rfl fun _ h => nomatch h
  | whole i =>
      rw [Kept, ofJson, Scalar.ofNumber, Number.toInt64?]
      cases hsigned : BoundedInt.ofInt? i.value with
      | some j =>
          have hvalue : j.value = i.value := BoundedInt.ofInt?_eq_some_iff.1 hsigned
          have hwritten : Integer64.ofSigned j = i := BoundedInt.ext hvalue
          refine iff_of_true (congrArg (fun i => Json.number (.whole i)) hwritten) fun k hk => ?_
          rw [← Number.whole.inj hk, ← hvalue]
          exact j.inRange
      | none =>
          -- an integer that does not fit becomes a float
          have hfits := BoundedInt.ofInt?_eq_none_iff.1 hsigned
          refine iff_of_false (fun heq => ?_) fun hall => hfits (hall i rfl)
          exact nomatch Json.number.inj heq

theorem kept_string_iff {s : String} : Kept (.string s) ↔ ¬ IsMarkedLiteral s := by
  rw [Kept, ofJson, ofText]
  cases h : Reference.read? s with
  | none =>
      refine iff_of_true rfl fun hmarked => ?_
      obtain ⟨rest, hs⟩ := startsWith_literal_iff.1 hmarked.1
      exact nomatch (read?_literal hs).symm.trans h
  | some r =>
      obtain ⟨hmarked, hplain⟩ := render_of_read? h
      constructor
      · intro heq hms
        -- a text is not one character longer than itself
        have hrender : r.render = s := Json.string.inj heq
        have hlength := congrArg (fun t => t.toList.length) (hmarked hms)
        simp [hrender] at hlength
      · exact fun hms => congrArg Json.string (hplain hms)

mutual

/-- A value is written as it was read when its leaves are: nesting, lengths and keys stay. -/
theorem written_ofJson_iff : ∀ v : Json, (ofJson v).written = v ↔ ∀ leaf ∈ v.leaves, Kept leaf
  | .null => by simp [Json.leaves, Kept]
  | .bool _ => by simp [Json.leaves, Kept]
  | .number _ => by simp [Json.leaves, Kept]
  | .string _ => by simp [Json.leaves, Kept]
  | .array items => by
      rw [ofJson, written, Json.leaves, ← writtenItems_ofItems_iff items, Json.array.injEq]
  | .object members => by
      rw [ofJson, written, Json.leaves, ← writtenEntries_ofMembers_iff members, Json.object.injEq]

theorem writtenItems_ofItems_iff : ∀ items : List Json,
    writtenItems (ofItems items) = items ↔ ∀ leaf ∈ Json.itemLeaves items, Kept leaf
  | [] => by simp [ofItems, writtenItems, Json.itemLeaves]
  | item :: rest => by
      rw [ofItems, writtenItems, Json.itemLeaves, List.forall_mem_append, List.cons.injEq,
        written_ofJson_iff item, writtenItems_ofItems_iff rest]

theorem writtenEntries_ofMembers_iff : ∀ members : List (String × Json),
    writtenEntries (ofMembers members) = members ↔
      ∀ leaf ∈ Json.memberLeaves members, Kept leaf
  | [] => by simp [ofMembers, writtenEntries, Json.memberLeaves]
  | (key, value) :: rest => by
      rw [ofMembers, writtenEntries, Json.memberLeaves, List.forall_mem_append, List.cons.injEq,
        Prod.mk.injEq, written_ofJson_iff value, writtenEntries_ofMembers_iff rest]
      simp

end

/-- The leaves of a value that are not kept are integers that do not fit in 64 bits and marked
literals. -/
theorem kept_leaves_iff {v : Json} : (∀ leaf ∈ v.leaves, Kept leaf) ↔
    (∀ i, .number (.whole i) ∈ v.leaves → Integer64.FitsSigned i.value) ∧
      ∀ s, .string s ∈ v.leaves → ¬ IsMarkedLiteral s := by
  constructor
  · intro h
    exact ⟨fun i hi => kept_number_iff.1 (h _ hi) i rfl, fun s hs => kept_string_iff.1 (h _ hs)⟩
  · rintro ⟨hintegers, htexts⟩ leaf hleaf
    -- a leaf is no array and no object
    have hshape := Json.isLeaf_of_mem_leaves v hleaf
    cases leaf with
    | null => rfl
    | bool _ => rfl
    | number n =>
        refine kept_number_iff.2 fun i hi => hintegers i ?_
        rwa [← hi]
    | string s => exact kept_string_iff.2 (htexts s hleaf)
    | array _ => exact hshape.elim
    | object _ => exact hshape.elim

/-- Reading a text as a reference loses at most a final mark, and only that of a literal. Rendering
gives every other text back, what is rendered is read again as itself unless it is a literal that
ends in a mark, and texts have one reading only when they differ in such a mark. A JSON value is
written as it was read when all its leaves are. -/
theorem reading_kept_but_for_final_mark :
    (∀ s : String, s.startsWith '@' = true → ∃ r, ofText s = .reference r ∧
      (IsMarkedLiteral s → r.render ++ "=" = s) ∧ (¬ IsMarkedLiteral s → r.render = s)) ∧
    (∀ s r, ofText s = .reference r → (ofText r.render = .reference r ↔
      ¬ ∃ value, r = .literal value ∧ value.endsWith '=' = true)) ∧
    (∀ s t, ofText s = ofText t ↔ s = t ∨ Marks s t ∨ Marks t s) ∧
    ∀ v : Json, (ofJson v).written = v ↔
      (∀ i, .number (.whole i) ∈ v.leaves → Integer64.FitsSigned i.value) ∧
        ∀ s, .string s ∈ v.leaves → ¬ IsMarkedLiteral s := by
  refine ⟨fun s hs => ?_, fun s r h => ?_, fun s t => ofText_eq_iff, fun v => ?_⟩
  · obtain ⟨r, hr⟩ := Reference.exists_read? hs
    exact ⟨r, ofText_eq_reference_iff.2 hr, render_of_read? hr⟩
  · rw [ofText_eq_reference_iff, Reference.read?_render_iff (ofText_eq_reference_iff.1 h)]
  · exact (written_ofJson_iff v).trans kept_leaves_iff

/-- A literal that ends in two marks is read as one that ends in a mark, which is not read again as
itself. -/
theorem reading_kept_but_for_final_mark_twice :
    IsMarkedLiteral "@@a==" ∧
      (∃ r, ofText "@@a==" = .reference r ∧ r.render ++ "=" = "@@a==") ∧
      ofText "@@a==" = .reference (.literal "@a=") ∧
      ¬ ofText (Reference.literal "@a=").render = .reference (.literal "@a=") ∧
      ofText "@@a=" = ofText "@@a" := by
  have hmarked : IsMarkedLiteral "@@a==" := ⟨by decide +kernel, by decide +kernel⟩
  have hread : ofText "@@a==" = .reference (.literal "@a=") := by rfl
  obtain ⟨hrender, hagain, hequal, -⟩ := reading_kept_but_for_final_mark
  obtain ⟨r, hr, hlost, -⟩ := hrender "@@a==" (by decide +kernel)
  refine ⟨hmarked, ⟨r, hr, hlost hmarked⟩, hread, ?_, ?_⟩
  · rw [hagain _ _ hread, Classical.not_not]
    exact ⟨"@a=", rfl, by decide +kernel⟩
  · refine (hequal _ _).2 (Or.inr (Or.inr ⟨?_, ?_, rfl⟩))
    · decide +kernel
    · decide +kernel

end Value

end ServiceGraph
