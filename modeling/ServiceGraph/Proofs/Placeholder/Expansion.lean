import Mathlib.Logic.Relation
import ServiceGraph.Proofs.OrderedMap
import ServiceGraph.Proofs.Placeholder.Pieces

/-!
# Expanding placeholders

`Expands parameters path text s outcome` is the run of the expansion on the rest `s` of `text`,
inside the parameters of `path`: it reads the text piece by piece, and for a parameter that holds a
text it starts a run of its own. Every expansion has exactly one run (`expands_iff`).

What a run gives is said in two ways that know nothing of paths. `Replaced parameters s out` says
that `out` is `s` with its placeholders replaced in one pass from left to right;
`Fault parameters s` lists the failures that the parameters give reason for. A run ends in one of
the two (`Expands.replaced_or_fault`), and replacing is possible just when every parameter that the
text leads to has a text and none leads back to itself (`Replaced.resolvable`).

The main statements are `expand_exact` and `expand_replaces`.
-/

set_option autoImplicit false

namespace ServiceGraph.Placeholder

open Relation (TransGen ReflTransGen)

variable {parameters : Parameters}

/-! ## Runs -/

/-- The text of a scalar that is not a text itself. -/
inductive Prints : Scalar → String → Prop
  | null : Prints .null ""
  | true : Prints (.bool true) "true"
  | false : Prints (.bool false) "false"
  | int (i : Integer64.Signed) : Prints (.int i) (toString i.value)
  | float (x : Binary64) : Prints (.float x) (DecimalLayout.plain.write x)

/-- The runs of the expansion, one rule for each way in which it goes on or ends. -/
inductive Expands (parameters : Parameters) :
    List String → String → List Char → Except Failure String → Prop
  | done {path text} : Expands parameters path text [] (.ok "")
  | copied {path text s c rest outcome} (hopens : Opens s (.char c) rest)
      (hrest : Expands parameters path text rest outcome) :
      Expands parameters path text s (outcome.map (String.singleton c ++ ·))
  /-- The parameter is one of those being expanded. -/
  | looped {path text s name rest} (hopens : Opens s (.parameter name) rest)
      (hpath : name ∈ path) : Expands parameters path text s (.error (.parameterCycle name))
  | unbound {path text s name rest} (hopens : Opens s (.parameter name) rest)
      (hfresh : name ∉ path) (hvalue : parameters.get? name = none) :
      Expands parameters path text s (.error (.unknownParameter name))
  | structured {path text s name rest value} (hopens : Opens s (.parameter name) rest)
      (hfresh : name ∉ path) (hvalue : parameters.get? name = some value)
      (hstructured : value.isScalar = false) :
      Expands parameters path text s (.error (.structuredParameter name text value.typeName))
  | printed {path text s name rest value printed outcome}
      (hopens : Opens s (.parameter name) rest) (hfresh : name ∉ path)
      (hvalue : parameters.get? name = some (.scalar value)) (hprints : Prints value printed)
      (hrest : Expands parameters path text rest outcome) :
      Expands parameters path text s (outcome.map (printed ++ ·))
  | nested {path text s name rest inner out outcome} (hopens : Opens s (.parameter name) rest)
      (hfresh : name ∉ path) (hvalue : parameters.get? name = some (.string inner))
      (hinner : Expands parameters (name :: path) inner inner.toList (.ok out))
      (hrest : Expands parameters path text rest outcome) :
      Expands parameters path text s (outcome.map (out ++ ·))
  | broken {path text s name rest inner e} (hopens : Opens s (.parameter name) rest)
      (hfresh : name ∉ path) (hvalue : parameters.get? name = some (.string inner))
      (hinner : Expands parameters (name :: path) inner inner.toList (.error e)) :
      Expands parameters path text s (.error e)

/-- The text that stands for a piece. -/
def textOf (parameters : Parameters) (path : List String) (s : String) :
    Piece → Except Failure String
  | .char c => .ok (String.singleton c)
  | .parameter name =>
    if name ∈ path then .error (.parameterCycle name)
    else
      match parameters.get? name with
      | none => .error (.unknownParameter name)
      | some (.scalar (.string inner)) => expandWithin parameters (name :: path) inner
      | some (.scalar value) => .ok value.text
      | some value => .error (.structuredParameter name s value.typeName)

/-- The texts of pieces one after the other. -/
def joined (parameters : Parameters) (path : List String) (text : String) :
    List Piece → Except Failure String
  | [] => .ok ""
  | piece :: rest => do
    let first ← textOf parameters path text piece
    (joined parameters path text rest).map (first ++ ·)

theorem intercalate_cons (first : String) (rest : List String) :
    "".intercalate (first :: rest) = first ++ "".intercalate rest := by
  cases rest with
  | nil => simp
  | cons second others => rw [String.intercalate_cons_cons, String.append_empty]

theorem expandWithin_eq (path : List String) (s : String) :
    expandWithin parameters path s = joined parameters path s (pieces s.toList) := by
  -- all pieces are looked up before their texts are joined, which fails in the same places
  have hmap : ∀ ps : List Piece,
      (do return "".intercalate (← ps.mapM (textOf parameters path s))) =
        joined parameters path s ps := by
    intro ps
    induction ps with
    | nil => rfl
    | cons piece rest ih =>
        rw [joined, ← ih, List.mapM_cons]
        cases textOf parameters path s piece with
        | error e => rfl
        | ok first =>
            cases rest.mapM (textOf parameters path s) with
            | error e => rfl
            | ok texts => exact congrArg Except.ok (intercalate_cons first texts)
  rw [expandWithin, ← hmap]
  refine congrArg (fun f : Piece → Except Failure String =>
    (do return "".intercalate (← (pieces s.toList).mapM f) : Except Failure String)) ?_
  funext piece
  cases piece with
  | char c => rfl
  | parameter name =>
      by_cases hpath : name ∈ path
      · simp only [textOf, dif_pos hpath, if_pos hpath]
      · simp only [textOf, dif_neg hpath, if_neg hpath]
        cases parameters.get? name with
        | none => rfl
        | some value =>
            cases value with
            | scalar value => cases value <;> rfl
            | _ => rfl

/-- The expansion of a text has a run. The outer induction is on the number of parameters that are
not being expanded, the inner one on the length of what is left of the text. -/
theorem expands_joined (path : List String) (text : String) (s : List Char) :
    Expands parameters path text s (joined parameters path text (pieces s)) := by
  induction hleft : parameters.unvisited path using Nat.strong_induction_on generalizing path text s
    with
  | _ left ihOuter =>
      subst hleft
      induction hlength : s.length using Nat.strong_induction_on generalizing s with
      | _ length ihInner =>
          subst hlength
          by_cases hs : s = []
          · subst hs
            rw [pieces_nil]
            exact .done
          obtain ⟨piece, rest, hopens⟩ := exists_opens hs
          have hrest := ihInner rest.length hopens.length_lt rest rfl
          rw [pieces_of_opens hopens, joined]
          cases piece with
          | char c => exact .copied hopens hrest
          | parameter name =>
              by_cases hpath : name ∈ path
              · rw [textOf, if_pos hpath]
                exact .looped hopens hpath
              rw [textOf, if_neg hpath]
              rcases hvalue : parameters.get? name with _ | value
              · exact .unbound hopens hpath hvalue
              cases value with
              | list items => exact .structured hopens hpath hvalue rfl
              | map entries => exact .structured hopens hpath hvalue rfl
              | reference target => exact .structured hopens hpath hvalue rfl
              | scalar value =>
                  cases value with
                  | null => exact .printed hopens hpath hvalue .null hrest
                  | bool b =>
                      cases b with
                      | false => exact .printed hopens hpath hvalue .false hrest
                      | true => exact .printed hopens hpath hvalue .true hrest
                  | int i => exact .printed hopens hpath hvalue (.int i) hrest
                  | float x => exact .printed hopens hpath hvalue (.float x) hrest
                  | string inner =>
                      -- one more name is on the path, so the outer induction covers the inner text
                      have hfewer := OrderedMap.unvisited_cons_lt
                        (OrderedMap.mem_keys_of_get? hvalue) hpath
                      have hinner := ihOuter _ hfewer (name :: path) inner inner.toList rfl
                      rw [← expandWithin_eq] at hinner
                      show Expands parameters path text s
                        ((expandWithin parameters (name :: path) inner).bind _)
                      cases hexpand : expandWithin parameters (name :: path) inner with
                      | error e =>
                          rw [hexpand] at hinner
                          exact .broken hopens hpath hvalue hinner
                      | ok out =>
                          rw [hexpand] at hinner
                          exact .nested hopens hpath hvalue hinner hrest

/-- A run gives what the expansion gives. -/
theorem Expands.eq_joined {path : List String} {text : String} {s : List Char}
    {outcome : Except Failure String} (h : Expands parameters path text s outcome) :
    outcome = joined parameters path text (pieces s) := by
  induction h with
  | done =>
      rw [pieces_nil]
      rfl
  | copied hopens _ ih =>
      rw [pieces_of_opens hopens, joined, ← ih]
      rfl
  | looped hopens hpath =>
      rw [pieces_of_opens hopens, joined, textOf, if_pos hpath]
      rfl
  | unbound hopens hfresh hvalue =>
      rw [pieces_of_opens hopens, joined, textOf, if_neg hfresh, hvalue]
      rfl
  | @structured _ _ _ _ _ value hopens hfresh hvalue hstructured =>
      rw [pieces_of_opens hopens, joined, textOf, if_neg hfresh, hvalue]
      cases value with
      | scalar _ => cases hstructured
      | _ => rfl
  | printed hopens hfresh hvalue hprints _ ih =>
      rw [pieces_of_opens hopens, joined, textOf, if_neg hfresh, hvalue, ← ih]
      cases hprints <;> rfl
  | @nested _ _ _ _ _ inner out _ hopens hfresh hvalue _ _ ihInner ihRest =>
      rw [← expandWithin_eq] at ihInner
      rw [pieces_of_opens hopens, joined, textOf, if_neg hfresh, hvalue, ← ihRest]
      show _ = (expandWithin parameters _ inner).bind _
      rw [← ihInner]
      rfl
  | @broken _ _ _ _ _ inner _ hopens hfresh hvalue _ ihInner =>
      rw [← expandWithin_eq] at ihInner
      rw [pieces_of_opens hopens, joined, textOf, if_neg hfresh, hvalue]
      show _ = (expandWithin parameters _ inner).bind _
      rw [← ihInner]
      rfl

/-- The run of an expansion, and the only one. -/
theorem expands_iff {path : List String} {s : String} {outcome : Except Failure String} :
    Expands parameters path s s.toList outcome ↔ expandWithin parameters path s = outcome := by
  rw [expandWithin_eq]
  constructor
  · intro h
    exact h.eq_joined.symm
  · rintro rfl
    exact expands_joined path s s.toList

/-! ## Replacing placeholders in one pass -/

/-- A text with its placeholders replaced, read once from left to right: a placeholder gives way to
the text of its parameter, and any other piece is kept. -/
inductive Replaced (parameters : Parameters) : List Char → String → Prop
  | done : Replaced parameters [] ""
  | kept {s c rest out} (hopens : Opens s (.char c) rest) (hrest : Replaced parameters rest out) :
      Replaced parameters s (String.singleton c ++ out)
  | printed {s name rest value text out} (hopens : Opens s (.parameter name) rest)
      (hvalue : parameters.get? name = some (.scalar value)) (hprints : Prints value text)
      (hrest : Replaced parameters rest out) : Replaced parameters s (text ++ out)
  /-- The value is a text, and its own placeholders are replaced in the same way. -/
  | nested {s name rest inner text out} (hopens : Opens s (.parameter name) rest)
      (hvalue : parameters.get? name = some (.string inner))
      (hinner : Replaced parameters inner.toList text) (hrest : Replaced parameters rest out) :
      Replaced parameters s (text ++ out)

/-- A text has a placeholder for a parameter. -/
def Mentions (s : List Char) (name : String) : Prop := .parameter name ∈ pieces s

/-- The value of a parameter is a text with a placeholder for another one. -/
def Refers (parameters : Parameters) (name inner : String) : Prop :=
  ∃ text, parameters.get? name = some (.string text) ∧ Mentions text.toList inner

/-- A text leads to a parameter through placeholders, its own and those of values. -/
def Leads (parameters : Parameters) (s : List Char) (name : String) : Prop :=
  ∃ first, Mentions s first ∧ ReflTransGen (Refers parameters) first name

/-- Every parameter that a text leads to has a text, and none leads back to itself. -/
def Resolvable (parameters : Parameters) (s : List Char) : Prop :=
  ∀ name, Leads parameters s name →
    (∃ value, parameters.get? name = some (.scalar value)) ∧
      ¬ TransGen (Refers parameters) name name

/-- The failures of expanding a text that the parameters give reason for. -/
inductive Fault (parameters : Parameters) (s : List Char) : Failure → Prop
  | unknown {name} (hleads : Leads parameters s name) (hvalue : parameters.get? name = none) :
      Fault parameters s (.unknownParameter name)
  /-- A list, a map or a reference stands where a text is needed. -/
  | structured {name text value} (hleads : Leads parameters s name)
      (htext : Mentions text.toList name) (hvalue : parameters.get? name = some value)
      (hstructured : value.isScalar = false) :
      Fault parameters s (.structuredParameter name text value.typeName)
  | cycle {name} (hleads : Leads parameters s name)
      (hcycle : TransGen (Refers parameters) name name) :
      Fault parameters s (.parameterCycle name)

section Opening

variable {s rest : List Char} {piece : Piece} {name : String}

theorem Opens.mentions_iff (h : Opens s piece rest) :
    Mentions s name ↔ .parameter name = piece ∨ Mentions rest name := by
  rw [Mentions, pieces_of_opens h, List.mem_cons, Mentions]

theorem Opens.mentions (h : Opens s (.parameter name) rest) : Mentions s name :=
  h.mentions_iff.2 (Or.inl rfl)

theorem Opens.leads (h : Opens s (.parameter name) rest) : Leads parameters s name :=
  ⟨name, h.mentions, .refl⟩

theorem Opens.leads_of_rest (h : Opens s piece rest) (hleads : Leads parameters rest name) :
    Leads parameters s name := by
  obtain ⟨first, hfirst, hsteps⟩ := hleads
  exact ⟨first, h.mentions_iff.2 (Or.inr hfirst), hsteps⟩

/-- What the text of a parameter leads to, the parameter leads to. -/
theorem transGen_of_leads {text : String} {inner : String}
    (hvalue : parameters.get? name = some (.string text))
    (hleads : Leads parameters text.toList inner) : TransGen (Refers parameters) name inner := by
  obtain ⟨first, hfirst, hsteps⟩ := hleads
  exact TransGen.head' ⟨text, hvalue, hfirst⟩ hsteps

theorem leads_of_transGen {text : String} {inner : String}
    (hvalue : parameters.get? name = some (.string text))
    (h : TransGen (Refers parameters) name inner) : Leads parameters text.toList inner := by
  obtain ⟨first, ⟨text', hvalue', hfirst⟩, hsteps⟩ := TransGen.head'_iff.1 h
  rw [hvalue] at hvalue'
  cases hvalue'
  exact ⟨first, hfirst, hsteps⟩

/-- What the text of a mentioned parameter leads to, the whole text leads to. -/
theorem Opens.leads_of_inner {text : String} {inner : String} (h : Opens s (.parameter name) rest)
    (hvalue : parameters.get? name = some (.string text))
    (hleads : Leads parameters text.toList inner) : Leads parameters s inner :=
  ⟨name, h.mentions, (transGen_of_leads hvalue hleads).to_reflTransGen⟩

end Opening

/-- A fault of a text is one of every text that leads to what the first one leads to. -/
theorem Fault.mono {s s' : List Char} {e : Failure} (h : Fault parameters s e)
    (hleads : ∀ name, Leads parameters s name → Leads parameters s' name) :
    Fault parameters s' e := by
  cases h with
  | unknown hname hvalue => exact .unknown (hleads _ hname) hvalue
  | structured hname htext hvalue hstructured =>
      exact .structured (hleads _ hname) htext hvalue hstructured
  | cycle hname hcycle => exact .cycle (hleads _ hname) hcycle

/-- What a run relies on: the parameters being expanded refer to those that the rest of the text
mentions, and the rest mentions only what the whole text does. -/
structure Inside (parameters : Parameters) (path : List String) (text : String) (s : List Char) :
    Prop where
  refers : ∀ above ∈ path, ∀ name, Mentions s name → TransGen (Refers parameters) above name
  mentioned : ∀ name, Mentions s name → Mentions text.toList name

namespace Inside

variable {path : List String} {text : String} {s rest : List Char}

theorem start (parameters : Parameters) (text : String) :
    Inside parameters [] text text.toList where
  refers := fun _ h => absurd h List.not_mem_nil
  mentioned := fun _ h => h

theorem of_rest {piece : Piece} (h : Inside parameters path text s) (hopens : Opens s piece rest) :
    Inside parameters path text rest where
  refers above habove name hname :=
    h.refers above habove name (hopens.mentions_iff.2 (Or.inr hname))
  mentioned name hname := h.mentioned name (hopens.mentions_iff.2 (Or.inr hname))

/-- The text of a parameter is expanded inside one more parameter. -/
theorem inner {name inner : String} (h : Inside parameters path text s)
    (hopens : Opens s (.parameter name) rest)
    (hvalue : parameters.get? name = some (.string inner)) :
    Inside parameters (name :: path) inner inner.toList where
  refers above habove next hnext := by
    have hstep : Refers parameters name next := ⟨inner, hvalue, hnext⟩
    rcases List.mem_cons.1 habove with rfl | habove
    · exact .single hstep
    · exact (h.refers above habove name hopens.mentions).tail hstep
  mentioned := fun _ hnext => hnext

end Inside

/-- A run ends with the text in which the placeholders are replaced, or with a fault: meeting one of
the parameters being expanded again closes a cycle. -/
theorem Expands.replaced_or_fault {path : List String} {text : String} {s : List Char}
    {outcome : Except Failure String} (h : Expands parameters path text s outcome)
    (hinside : Inside parameters path text s) :
    (∃ out, outcome = .ok out ∧ Replaced parameters s out) ∨
      ∃ e, outcome = .error e ∧ Fault parameters s e := by
  induction h with
  | done => exact Or.inl ⟨"", rfl, .done⟩
  | copied hopens _ ih =>
      rcases ih (hinside.of_rest hopens) with ⟨out, rfl, hreplaced⟩ | ⟨e, rfl, hfault⟩
      · exact Or.inl ⟨_, rfl, .kept hopens hreplaced⟩
      · exact Or.inr ⟨e, rfl, hfault.mono fun _ => hopens.leads_of_rest⟩
  | looped hopens habove =>
      -- the parameter above refers to what is mentioned here, which is itself
      have hcycle := hinside.refers _ habove _ hopens.mentions
      exact Or.inr ⟨_, rfl, .cycle hopens.leads hcycle⟩
  | unbound hopens _ hvalue => exact Or.inr ⟨_, rfl, .unknown hopens.leads hvalue⟩
  | structured hopens _ hvalue hstructured =>
      -- the failure quotes the whole text, not what is left of it
      have htext := hinside.mentioned _ hopens.mentions
      exact Or.inr ⟨_, rfl, .structured hopens.leads htext hvalue hstructured⟩
  | printed hopens _ hvalue hprints _ ih =>
      rcases ih (hinside.of_rest hopens) with ⟨out, rfl, hreplaced⟩ | ⟨e, rfl, hfault⟩
      · exact Or.inl ⟨_, rfl, .printed hopens hvalue hprints hreplaced⟩
      · exact Or.inr ⟨e, rfl, hfault.mono fun _ => hopens.leads_of_rest⟩
  | nested hopens _ hvalue _ _ ihInner ihRest =>
      rcases ihInner (hinside.inner hopens hvalue) with ⟨text, heq, htext⟩ | ⟨e, heq, -⟩
      · obtain rfl := Except.ok.inj heq
        rcases ihRest (hinside.of_rest hopens) with ⟨out, rfl, hreplaced⟩ | ⟨e, rfl, hfault⟩
        · exact Or.inl ⟨_, rfl, .nested hopens hvalue htext hreplaced⟩
        · exact Or.inr ⟨e, rfl, hfault.mono fun _ => hopens.leads_of_rest⟩
      · exact nomatch heq
  | broken hopens _ hvalue _ ih =>
      rcases ih (hinside.inner hopens hvalue) with ⟨text, heq, -⟩ | ⟨e, heq, hfault⟩
      · exact nomatch heq
      · exact Or.inr ⟨_, heq, hfault.mono fun _ => hopens.leads_of_inner hvalue⟩

/-- Where placeholders are replaced, every parameter on the way has a text and none leads back to
itself. -/
theorem Replaced.resolvable {s : List Char} {out : String} (h : Replaced parameters s out) :
    Resolvable parameters s := by
  induction h with
  | done =>
      rintro name ⟨first, hfirst, -⟩
      rw [Mentions, pieces_nil] at hfirst
      exact absurd hfirst List.not_mem_nil
  | kept hopens _ ih =>
      rintro name ⟨first, hfirst, hsteps⟩
      rcases hopens.mentions_iff.1 hfirst with heq | hfirst
      · exact nomatch heq
      · exact ih name ⟨first, hfirst, hsteps⟩
  | @printed s mentioned rest value text out hopens hvalue hprints _ ih =>
      rintro name ⟨first, hfirst, hsteps⟩
      rcases hopens.mentions_iff.1 hfirst with heq | hfirst
      · obtain rfl := Piece.parameter.inj heq
        -- a printed parameter refers to nothing
        have hnone : ∀ inner, ¬ Refers parameters first inner := by
          rintro inner ⟨text', hvalue', -⟩
          rw [hvalue] at hvalue'
          cases hvalue'
          cases hprints
        rcases hsteps.cases_head with rfl | ⟨inner, hstep, -⟩
        · refine ⟨⟨value, hvalue⟩, fun hcycle => ?_⟩
          obtain ⟨inner, hstep, -⟩ := TransGen.head'_iff.1 hcycle
          exact hnone inner hstep
        · exact absurd hstep (hnone inner)
      · exact ih name ⟨first, hfirst, hsteps⟩
  | @nested s mentioned rest inner text out hopens hvalue _ _ ihInner ihRest =>
      rintro name ⟨first, hfirst, hsteps⟩
      rcases hopens.mentions_iff.1 hfirst with heq | hfirst
      · obtain rfl := Piece.parameter.inj heq
        rcases Relation.reflTransGen_iff_eq_or_transGen.1 hsteps with rfl | hsteps
        · -- a cycle through the parameter would be one among those that its text leads to
          refine ⟨⟨_, hvalue⟩, fun hcycle => ?_⟩
          exact (ihInner name (leads_of_transGen hvalue hcycle)).2 hcycle
        · exact ihInner name (leads_of_transGen hvalue hsteps)
      · exact ihRest name ⟨first, hfirst, hsteps⟩

theorem Prints.unique {value : Scalar} {text text' : String} (h : Prints value text)
    (h' : Prints value text') : text = text' := by
  cases h <;> cases h' <;> rfl

/-- Placeholders are replaced in one way. -/
theorem Replaced.unique {s : List Char} {out out' : String} (h : Replaced parameters s out)
    (h' : Replaced parameters s out') : out = out' := by
  induction h generalizing out' with
  | done =>
      cases h' with
      | done => rfl
      | kept hopens | printed hopens | nested hopens => exact nomatch hopens
  | kept hopens _ ih =>
      cases h' with
      | done => exact nomatch hopens
      | kept hopens' hrest' =>
          obtain ⟨heq, rfl⟩ := hopens.unique hopens'
          obtain rfl := Piece.char.inj heq
          rw [ih hrest']
      | printed hopens' | nested hopens' => exact nomatch (hopens.unique hopens').1
  | printed hopens hvalue hprints _ ih =>
      -- the value decides between the two rules for a placeholder
      cases h' with
      | done => exact nomatch hopens
      | kept hopens' => exact nomatch (hopens.unique hopens').1
      | printed hopens' hvalue' hprints' hrest' =>
          obtain ⟨heq, rfl⟩ := hopens.unique hopens'
          obtain rfl := Piece.parameter.inj heq
          rw [hvalue] at hvalue'
          cases hvalue'
          rw [hprints.unique hprints', ih hrest']
      | nested hopens' hvalue' =>
          obtain ⟨heq, rfl⟩ := hopens.unique hopens'
          obtain rfl := Piece.parameter.inj heq
          -- a text is not printed
          rw [hvalue] at hvalue'
          cases hvalue'
          exact nomatch hprints
  | nested hopens hvalue _ _ ihInner ihRest =>
      cases h' with
      | done => exact nomatch hopens
      | kept hopens' => exact nomatch (hopens.unique hopens').1
      | printed hopens' hvalue' hprints' =>
          obtain ⟨heq, rfl⟩ := hopens.unique hopens'
          obtain rfl := Piece.parameter.inj heq
          rw [hvalue] at hvalue'
          cases hvalue'
          exact nomatch hprints'
      | nested hopens' hvalue' hinner' hrest' =>
          obtain ⟨heq, rfl⟩ := hopens.unique hopens'
          obtain rfl := Piece.parameter.inj heq
          rw [hvalue] at hvalue'
          cases hvalue'
          rw [ihInner hinner', ihRest hrest']

/-- What stands in the way of a fault, and what a fault stands in the way of. -/
theorem Fault.not_resolvable {s : List Char} {e : Failure} (h : Fault parameters s e) :
    ¬ Resolvable parameters s := by
  intro hresolvable
  cases h with
  | unknown hleads hvalue =>
      obtain ⟨⟨value, hbound⟩, -⟩ := hresolvable _ hleads
      exact nomatch hvalue.symm.trans hbound
  | structured hleads _ hvalue hstructured =>
      obtain ⟨⟨scalar, hbound⟩, -⟩ := hresolvable _ hleads
      obtain rfl := Option.some.inj (hvalue.symm.trans hbound)
      exact nomatch hstructured
  | cycle hleads hcycle => exact (hresolvable _ hleads).2 hcycle

/-! ## What an expansion gives -/

theorem expand_replaced_or_fault (parameters : Parameters) (s : String) :
    (∃ out, expand parameters s = .ok out ∧ Replaced parameters s.toList out) ∨
      ∃ e, expand parameters s = .error e ∧ Fault parameters s.toList e :=
  (expands_iff.2 rfl).replaced_or_fault (.start parameters s)

theorem replaced_of_expand {s out : String} (h : expand parameters s = .ok out) :
    Replaced parameters s.toList out := by
  rcases expand_replaced_or_fault parameters s with ⟨out', hok, hreplaced⟩ | ⟨e, herror, -⟩
  · obtain rfl := Except.ok.inj (hok.symm.trans h)
    exact hreplaced
  · exact nomatch herror.symm.trans h

theorem expand_eq_ok_of_resolvable {s : String} (h : Resolvable parameters s.toList) :
    ∃ out, expand parameters s = .ok out := by
  rcases expand_replaced_or_fault parameters s with ⟨out, hok, -⟩ | ⟨e, -, hfault⟩
  · exact ⟨out, hok⟩
  · exact absurd h hfault.not_resolvable

theorem expand_of_replaced {s out : String} (h : Replaced parameters s.toList out) :
    expand parameters s = .ok out := by
  obtain ⟨out', hok⟩ := expand_eq_ok_of_resolvable h.resolvable
  rw [hok, h.unique (replaced_of_expand hok)]

/-- Expanding a text ends for all parameters, those that refer to themselves included. It succeeds
exactly when every parameter that the text leads to has a text and none leads back to itself; when
it fails, its failure names a parameter that the text leads to and that has no value, no text, or a
way back to itself. -/
theorem expand_exact (parameters : Parameters) (s : String) :
    (∀ outcome, Expands parameters [] s s.toList outcome ↔ expand parameters s = outcome) ∧
    ((∃ out, expand parameters s = .ok out) ↔ Resolvable parameters s.toList) ∧
    ∀ e, expand parameters s = .error e → Fault parameters s.toList e := by
  refine ⟨fun _ => expands_iff, ⟨?_, expand_eq_ok_of_resolvable⟩, ?_⟩
  · rintro ⟨out, hok⟩
    exact (replaced_of_expand hok).resolvable
  · intro e herror
    rcases expand_replaced_or_fault parameters s with ⟨out, hok, -⟩ | ⟨e', herror', hfault⟩
    · exact nomatch hok.symm.trans herror
    · obtain rfl := Except.error.inj (herror'.symm.trans herror)
      exact hfault

/-- Two parameters, the second of which refers to itself. -/
def loopingParameters : Parameters := .ofList [("a", .string "%b%"), ("b", .string "%b%")]

theorem expand_exact_looping :
    expand loopingParameters "%a%" = .error (.parameterCycle "b") ∧
      Fault loopingParameters "%a%".toList (.parameterCycle "b") := by
  have herror : expand loopingParameters "%a%" = .error (.parameterCycle "b") := by
    decide +kernel
  exact ⟨herror, (expand_exact loopingParameters "%a%").2.2 _ herror⟩

-- a parameter that is met twice on different ways is no cycle
example : expand
    (.ofList [("a", .string "%b%%c%"), ("b", .string "%c%"), ("c", .scalar (.int ⟨7, by decide⟩))])
    "%a% %b%" = .ok "77 7" := by decide +kernel

/-! ## Escaped texts -/

/-- Characters with every percent sign doubled. -/
def escapeChars : List Char → List Char
  | [] => []
  | c :: rest => if c = '%' then '%' :: '%' :: escapeChars rest else c :: escapeChars rest

/-- A text with every percent sign doubled. -/
def escape (s : String) : String := String.ofList (escapeChars s.toList)

theorem replaced_escapeChars (parameters : Parameters) (s : List Char) :
    Replaced parameters (escapeChars s) (String.ofList s) := by
  induction s with
  | nil => exact .done
  | cons c rest ih =>
      have hcons : String.ofList (c :: rest) = String.singleton c ++ String.ofList rest := by
        rw [← String.toList_inj, String.toList_append, String.toList_singleton,
          String.toList_ofList, String.toList_ofList, List.singleton_append]
      rw [hcons, escapeChars]
      by_cases hc : c = '%'
      · subst hc
        rw [if_pos rfl]
        exact .kept .escaped ih
      · rw [if_neg hc]
        exact .kept (.plain hc) ih

/-- An escaped text stands for the text itself. -/
theorem replaced_escape (parameters : Parameters) (s : String) :
    Replaced parameters (escape s).toList s := by
  have h := replaced_escapeChars parameters s.toList
  rwa [String.ofList_toList, ← String.toList_ofList (l := escapeChars s.toList)] at h

/-- A placeholder alone opens as itself. -/
theorem opens_placeholder {name : String} (hname : IsName name.toList) :
    Opens ("%" ++ name ++ "%").toList (.parameter name) [] := by
  have h : Opens ('%' :: (name.toList ++ ['%'])) (.parameter (String.ofList name.toList)) [] :=
    .placeholder hname
  rw [String.ofList_toList] at h
  rw [String.toList_append, String.toList_append]
  exact h

/-- An expansion that succeeds is one pass from left to right over the text, in which `%%` becomes a
percent sign, a placeholder becomes the text of its parameter, and nothing else changes. So a text
whose percent signs are doubled stands for itself, written out or as the value of a parameter. -/
theorem expand_replaces (parameters : Parameters) (s : String) :
    (∀ out, expand parameters s = .ok out ↔ Replaced parameters s.toList out) ∧
    expand parameters (escape s) = .ok s ∧
    ∀ name, IsName name.toList → parameters.get? name = some (.string (escape s)) →
      expand parameters ("%" ++ name ++ "%") = .ok s := by
  refine ⟨fun out => ⟨replaced_of_expand, expand_of_replaced⟩,
    expand_of_replaced (replaced_escape parameters s), fun name hname hvalue => ?_⟩
  have hreplaced : Replaced parameters ("%" ++ name ++ "%").toList (s ++ "") :=
    .nested (opens_placeholder hname) hvalue (replaced_escape parameters s) .done
  rw [String.append_empty] at hreplaced
  exact expand_of_replaced hreplaced

/-- A parameter whose value is an escaped text. -/
def escapedParameters : Parameters := .ofList [("note", .string (escape "5% of %note%"))]

theorem expand_replaces_escaped :
    IsName "note".toList ∧
      escapedParameters.get? "note" = some (.string (escape "5% of %note%")) ∧
      expand escapedParameters "%note%" = .ok "5% of %note%" := by
  have hname : IsName "note".toList := (isName_iff (by decide)).1 (by decide)
  have hvalue : escapedParameters.get? "note" = some (.string (escape "5% of %note%")) := by rfl
  exact ⟨hname, hvalue,
    (expand_replaces escapedParameters "5% of %note%").2.2 "note" hname hvalue⟩

end ServiceGraph.Placeholder
