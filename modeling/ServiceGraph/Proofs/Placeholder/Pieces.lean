import Mathlib.Data.List.TakeWhile
import ServiceGraph.Placeholder

/-!
# The pieces of a text

`Opens s piece rest` is the grammar of placeholders: the text `s` starts with `piece`, and `rest`
follows. There is one rule for an escaped percent sign, one for a placeholder, one for a percent
sign that stands for itself and one for any other character. Every text but the empty one opens in
exactly one way (`exists_opens`, `Opens.unique`), and reading a text piece by piece follows the
grammar (`pieces_of_opens`).
-/

set_option autoImplicit false

namespace ServiceGraph.Placeholder

/-! ## The grammar of placeholders -/

/-- Characters that can be the name of a parameter. -/
structure IsName (name : List Char) : Prop where
  ne_nil : name ≠ []
  not_percent : '%' ∉ name
  not_blank : ∀ c ∈ name, Text.isBlank c = false

/-- The first piece of a text, and the text that follows it. -/
inductive Opens : List Char → Piece → List Char → Prop
  | escaped {rest : List Char} : Opens ('%' :: '%' :: rest) (.char '%') rest
  | placeholder {name rest : List Char} (hname : IsName name) :
      Opens ('%' :: (name ++ '%' :: rest)) (.parameter (String.ofList name)) rest
  /-- A percent sign that is not doubled and opens no placeholder. -/
  | stray {rest : List Char} (hsingle : ∀ tail, rest ≠ '%' :: tail)
      (hopen : ∀ name tail, IsName name → rest ≠ name ++ '%' :: tail) :
      Opens ('%' :: rest) (.char '%') rest
  | plain {c : Char} {rest : List Char} (hc : c ≠ '%') : Opens (c :: rest) (.char c) rest

theorem IsName.head_ne {name : List Char} (h : IsName name) (rest tail : List Char) :
    name ++ rest ≠ '%' :: tail := by
  cases name with
  | nil => exact absurd rfl h.ne_nil
  | cons c chars =>
      rintro heq
      obtain ⟨rfl, -⟩ := List.cons.inj heq
      exact h.not_percent List.mem_cons_self

/-- Before a percent sign a text without one is determined, and so is what follows. -/
theorem eq_of_append_percent_eq {name name' rest rest' : List Char} (h : '%' ∉ name)
    (h' : '%' ∉ name') (heq : name ++ '%' :: rest = name' ++ '%' :: rest') :
    name = name' ∧ rest = rest' := by
  induction name generalizing name' with
  | nil =>
      cases name' with
      | nil => exact ⟨rfl, (List.cons.inj heq).2⟩
      | cons c chars =>
          obtain ⟨rfl, -⟩ := List.cons.inj heq
          exact absurd List.mem_cons_self h'
  | cons c chars ih =>
      cases name' with
      | nil =>
          obtain ⟨rfl, -⟩ := List.cons.inj heq
          exact absurd List.mem_cons_self h
      | cons c' chars' =>
          obtain ⟨rfl, htail⟩ := List.cons.inj heq
          obtain ⟨rfl, rfl⟩ := ih (fun hc => h (List.mem_cons_of_mem _ hc))
            (fun hc => h' (List.mem_cons_of_mem _ hc)) htail
          exact ⟨rfl, rfl⟩

/-- What follows a piece is shorter than the text. -/
theorem Opens.length_lt {s rest : List Char} {piece : Piece} (h : Opens s piece rest) :
    rest.length < s.length := by
  cases h <;> simp only [List.length_cons, List.length_append] <;> omega

/-- A text opens in at most one way. -/
theorem Opens.unique {s rest rest' : List Char} {piece piece' : Piece} (h : Opens s piece rest)
    (h' : Opens s piece' rest') : piece = piece' ∧ rest = rest' := by
  -- each rule says in its own words why no rule before it applies; against another rule the text
  -- would have to start in two ways
  cases h with
  | escaped =>
      generalize hs : '%' :: '%' :: rest = s at h'
      cases h' with
      | escaped => exact ⟨rfl, (List.cons.inj (List.cons.inj hs).2).2⟩
      | placeholder hname => exact absurd (List.cons.inj hs).2.symm (hname.head_ne _ _)
      | stray hsingle _ => exact absurd (List.cons.inj hs).2.symm (hsingle _)
      | plain hc => exact absurd (List.cons.inj hs).1.symm hc
  | @placeholder name rest hname =>
      generalize hs : '%' :: (name ++ '%' :: rest) = s at h'
      cases h' with
      | escaped => exact absurd (List.cons.inj hs).2 (hname.head_ne _ _)
      | placeholder hname' =>
          obtain ⟨rfl, rfl⟩ := eq_of_append_percent_eq hname.not_percent hname'.not_percent
            (List.cons.inj hs).2
          exact ⟨rfl, rfl⟩
      | stray _ hopen => exact absurd (List.cons.inj hs).2.symm (hopen _ _ hname)
      | plain hc => exact absurd (List.cons.inj hs).1.symm hc
  | stray hsingle hopen =>
      generalize hs : '%' :: rest = s at h'
      cases h' with
      | escaped => exact absurd (List.cons.inj hs).2 (hsingle _)
      | placeholder hname => exact absurd (List.cons.inj hs).2 (hopen _ _ hname)
      | stray _ _ => exact ⟨rfl, (List.cons.inj hs).2⟩
      | plain hc => exact absurd (List.cons.inj hs).1.symm hc
  | @plain c rest hc =>
      generalize hs : c :: rest = s at h'
      cases h' with
      | plain _ =>
          obtain ⟨rfl, rfl⟩ := List.cons.inj hs
          exact ⟨rfl, rfl⟩
      | _ => exact absurd (List.cons.inj hs).1 hc

/-! ## Reading pieces -/

theorem isName_iff {name : List Char} (hpercent : '%' ∉ name) :
    isName name = true ↔ IsName name := by
  rw [isName, Bool.and_eq_true, List.all_eq_true]
  constructor
  · rintro ⟨hne, hblank⟩
    refine ⟨fun hnil => ?_, hpercent, fun c hc => ?_⟩
    · rw [hnil] at hne
      exact nomatch hne
    · simpa using hblank c hc
  · intro h
    refine ⟨?_, fun c hc => ?_⟩
    · simpa using h.ne_nil
    · rw [h.not_blank c hc]
      rfl

theorem dropWhile_append_percent {name rest : List Char} (h : '%' ∉ name) :
    (name ++ '%' :: rest).dropWhile (· ≠ '%') = '%' :: rest := by
  have hname : ∀ c ∈ name, decide (c ≠ '%') = true :=
    fun c hc => decide_eq_true fun he => h (he ▸ hc)
  rw [List.dropWhile_append_of_pos hname]
  rfl

theorem takeWhile_append_percent {name rest : List Char} (h : '%' ∉ name) :
    (name ++ '%' :: rest).takeWhile (· ≠ '%') = name := by
  have hname : ∀ c ∈ name, decide (c ≠ '%') = true :=
    fun c hc => decide_eq_true fun he => h (he ▸ hc)
  rw [List.takeWhile_append_of_pos hname]
  exact List.append_nil name

/-- A placeholder is closed by the next percent sign, if a name stands before it. -/
theorem closeName?_eq_some_iff {s name rest : List Char} :
    closeName? s = some (name, rest) ↔ IsName name ∧ s = name ++ '%' :: rest := by
  constructor
  · intro h
    have hpercent : '%' ∉ s.takeWhile (· ≠ '%') := fun hmem => by
      simpa using List.mem_takeWhile_imp hmem
    rw [closeName?] at h
    cases hdrop : s.dropWhile (· ≠ '%') with
    | nil =>
        rw [hdrop] at h
        exact nomatch h
    | cons c tail =>
        rw [hdrop] at h
        -- the scan stopped at a percent sign
        have hc : c = '%' := by
          have hhead := List.head?_dropWhile_not (fun c => decide (c ≠ '%')) s
          rw [hdrop] at hhead
          simpa using hhead
        by_cases hname : isName (s.takeWhile (· ≠ '%')) = true
        · simp only [if_pos hname, Option.some.injEq, Prod.mk.injEq] at h
          obtain ⟨rfl, rfl⟩ := h
          refine ⟨(isName_iff hpercent).1 hname, ?_⟩
          rw [hc] at hdrop
          rw [← hdrop, List.takeWhile_append_dropWhile]
        · simp only [if_neg hname] at h
          exact nomatch h
  · rintro ⟨hname, rfl⟩
    rw [closeName?, dropWhile_append_percent hname.not_percent,
      takeWhile_append_percent hname.not_percent]
    exact if_pos ((isName_iff hname.not_percent).2 hname)

theorem closeName?_eq_none_iff {s : List Char} :
    closeName? s = none ↔ ∀ name rest, IsName name → s ≠ name ++ '%' :: rest := by
  constructor
  · rintro h name rest hname rfl
    rw [closeName?_eq_some_iff.2 ⟨hname, rfl⟩] at h
    exact nomatch h
  · intro h
    cases hclose : closeName? s with
    | none => rfl
    | some found =>
        obtain ⟨hname, hs⟩ := closeName?_eq_some_iff.1 hclose
        exact absurd hs (h _ _ hname)

theorem pieces_nil : pieces [] = [] := by rw [pieces]

/-- Every text but the empty one opens. -/
theorem exists_opens {s : List Char} (h : s ≠ []) : ∃ piece rest, Opens s piece rest := by
  cases s with
  | nil => exact absurd rfl h
  | cons c rest =>
      by_cases hc : c = '%'
      · subst hc
        -- a doubled sign comes before a placeholder, and a placeholder before a stray sign
        by_cases hdouble : ∃ tail, rest = '%' :: tail
        · obtain ⟨tail, rfl⟩ := hdouble
          exact ⟨_, _, .escaped⟩
        cases hclose : closeName? rest with
        | some found =>
            obtain ⟨hname, rfl⟩ := closeName?_eq_some_iff.1 hclose
            exact ⟨_, _, .placeholder hname⟩
        | none =>
            exact ⟨_, _, .stray (fun tail htail => hdouble ⟨tail, htail⟩)
              (closeName?_eq_none_iff.1 hclose)⟩
      · exact ⟨_, _, .plain hc⟩

/-- The pieces of a text are its first piece and the pieces of what follows. -/
theorem pieces_of_opens {s rest : List Char} {piece : Piece} (h : Opens s piece rest) :
    pieces s = piece :: pieces rest := by
  cases h with
  | escaped => rw [pieces]
  | @placeholder name rest hname =>
      -- a name does not start with a percent sign, so the sign is not taken for a doubled one
      have hclose : closeName? (name ++ '%' :: rest) = some (name, rest) :=
        closeName?_eq_some_iff.2 ⟨hname, rfl⟩
      rw [pieces]
      · split
        · rename_i name' rest' hclose'
          rw [hclose] at hclose'
          obtain ⟨rfl, rfl⟩ := Prod.mk.inj (Option.some.inj hclose')
          rfl
        · rename_i hnone
          rw [hclose] at hnone
          cases hnone
      · exact fun tail => hname.head_ne _ tail
  | stray hsingle hopen =>
      have hclose := closeName?_eq_none_iff.2 hopen
      rw [pieces]
      · split
        · rename_i hsome
          rw [hclose] at hsome
          cases hsome
        · rfl
      · exact hsingle
  | plain hc =>
      rw [pieces]
      · exact fun tail hs _ => hc hs
      · exact fun hs => hc hs

end ServiceGraph.Placeholder
