import Mathlib.Data.List.Chain
import Mathlib.Data.List.Perm.Lattice
import Mathlib.Logic.Relation
import ServiceGraph.Graph.Inheritance
import ServiceGraph.Proofs.Building
import ServiceGraph.Proofs.OrderedMap

/-!
# What flattening inheritance does

What a child takes over from a parent is said field by field (`Definition.Inherits`), and laying the
child over the parent is the one way to do it (`Definition.inherits_iff`).

The parent link of a definition leads, through aliases, to the id `Graph.parentOf`. A definition is
rooted when following these ids stays inside the definitions and ends at one without parent
(`Graph.Rooted`). Its flattened form is itself when it has no parent, and otherwise what it comes to
over the flattened form of its parent (`Graph.Flat`). Both are said of the lookup of a graph alone,
not of the order of its definitions.

The walk up from a definition arrives at a root or at a form that is known, or fails at a link that
dangles or closes a loop, and then the definition is not rooted (`Graph.climb_arrives_or_faults`).
The forms collected on the way are flattened forms (`Graph.Memo`, kept by
`Graph.exists_layOver_memo` and `Graph.exists_layDown_memo`).
`Graph.flattenInheritance_exact_and_atomic` puts this together.
-/

set_option autoImplicit false

namespace ServiceGraph

/-! ## A child over its parent -/

namespace Definition

/-- `d` is what a child comes to over a parent, field by field. -/
structure Inherits (child parent d : Definition) : Prop where
  parent_eq : d.parent = none
  -- these are the child's own, set or not
  sharedFlag_eq : d.sharedFlag = child.sharedFlag
  abstractFlag_eq : d.abstractFlag = child.abstractFlag
  syntheticFlag_eq : d.syntheticFlag = child.syntheticFlag
  tags_eq : d.tags = child.tags
  decoration_eq : d.decoration = child.decoration
  autowiringTypes_eq : d.autowiringTypes = child.autowiringTypes
  -- the parent counts where the child leaves these unset
  className_eq : d.className = child.className.or parent.className
  lazyFlag_eq : d.lazyFlag = child.lazyFlag.or parent.lazyFlag
  publicFlag_eq : d.publicFlag = child.publicFlag.or parent.publicFlag
  autowireFlag_eq : d.autowireFlag = child.autowireFlag.or parent.autowireFlag
  factory_eq : d.factory = child.factory.or parent.factory
  configurator_eq : d.configurator = child.configurator.or parent.configurator
  file_eq : d.file = child.file.or parent.file
  deprecation_eq : d.deprecation = child.deprecation.or parent.deprecation
  -- the parent's come first
  arguments_eq : d.arguments = parent.arguments ++ child.arguments
  calls_eq : d.calls = parent.calls ++ child.calls
  property_names : d.properties.keys =
    parent.properties.keys ++ child.properties.keys.filter (· ∉ parent.properties.keys)
  /-- A property has the child's value where both set it. -/
  property (name : String) : d.properties.get? name =
    (child.properties.get? name).or (parent.properties.get? name)

variable {child parent d d' : Definition}

theorem inherits_inherit (child parent : Definition) :
    child.Inherits parent (child.inherit parent) where
  parent_eq := rfl
  sharedFlag_eq := rfl
  abstractFlag_eq := rfl
  syntheticFlag_eq := rfl
  tags_eq := rfl
  decoration_eq := rfl
  autowiringTypes_eq := rfl
  className_eq := Option.orElse_eq_or
  lazyFlag_eq := Option.orElse_eq_or
  publicFlag_eq := Option.orElse_eq_or
  autowireFlag_eq := Option.orElse_eq_or
  factory_eq := Option.orElse_eq_or
  configurator_eq := Option.orElse_eq_or
  file_eq := Option.orElse_eq_or
  deprecation_eq := Option.orElse_eq_or
  arguments_eq := rfl
  calls_eq := rfl
  property_names := OrderedMap.keys_insertMany_entries _ _
  property := OrderedMap.get?_insertMany_entries _ _

/-- The fields leave no choice. -/
theorem Inherits.unique (h : child.Inherits parent d) (h' : child.Inherits parent d') : d = d' := by
  have hproperties : d.properties = d'.properties :=
    OrderedMap.eq_of_keys_of_get? (h.property_names.trans h'.property_names.symm)
      fun name => (h.property name).trans (h'.property name).symm
  cases d
  cases d'
  rw [mk.injEq]
  exact ⟨h.parent_eq.trans h'.parent_eq.symm, h.className_eq.trans h'.className_eq.symm,
    h.sharedFlag_eq.trans h'.sharedFlag_eq.symm, h.lazyFlag_eq.trans h'.lazyFlag_eq.symm,
    h.publicFlag_eq.trans h'.publicFlag_eq.symm, h.abstractFlag_eq.trans h'.abstractFlag_eq.symm,
    h.syntheticFlag_eq.trans h'.syntheticFlag_eq.symm,
    h.autowireFlag_eq.trans h'.autowireFlag_eq.symm, h.factory_eq.trans h'.factory_eq.symm,
    h.configurator_eq.trans h'.configurator_eq.symm, h.file_eq.trans h'.file_eq.symm,
    h.arguments_eq.trans h'.arguments_eq.symm, hproperties, h.calls_eq.trans h'.calls_eq.symm,
    h.tags_eq.trans h'.tags_eq.symm, h.decoration_eq.trans h'.decoration_eq.symm,
    h.deprecation_eq.trans h'.deprecation_eq.symm,
    h.autowiringTypes_eq.trans h'.autowiringTypes_eq.symm⟩

theorem inherits_iff : child.Inherits parent d ↔ d = child.inherit parent := by
  constructor
  · intro h
    exact h.unique (inherits_inherit child parent)
  · rintro rfl
    exact inherits_inherit child parent

end Definition

namespace Graph

variable {g : Graph}

/-! ## Parents, roots and flattened forms -/

/-- The id that the parent link of a definition leads to. -/
def parentOf (g : Graph) (id : String) : Option String :=
  (g.definitions.get? id).bind fun d => d.parent.map g.resolveAlias

/-- The ids from which following parents stays inside the definitions and ends at a definition
without parent. -/
inductive Rooted (g : Graph) : String → Prop
  | root {id : String} {d : Definition} (hd : g.definitions.get? id = some d)
      (hparent : d.parent = none) : Rooted g id
  | child {id above : String} (hparent : g.parentOf id = some above) (habove : Rooted g above) :
      Rooted g id

/-- The flattened forms of the definitions. -/
inductive Flat (g : Graph) : String → Definition → Prop
  | root {id : String} {d : Definition} (hd : g.definitions.get? id = some d)
      (hparent : d.parent = none) : Flat g id d
  | child {id above : String} {d upper flat : Definition} (hd : g.definitions.get? id = some d)
      (hparent : g.parentOf id = some above) (hupper : Flat g above upper)
      (hinherits : d.Inherits upper flat) : Flat g id flat

/-- The failures that a graph justifies. -/
inductive ParentFault (g : Graph) : Failure → Prop
  /-- A parent link that leads to no definition. -/
  | missingParent {id parent : String} {d : Definition} (hd : g.definitions.get? id = some d)
      (hparent : d.parent = some parent) (hmissing : g.resolveAlias parent ∉ g.definitions.keys) :
      ParentFault g (.missingParent id parent)
  /-- A walk along parents whose last id was passed before. -/
  | parentCycle {walk : List String} {last : String}
      (hwalk : (walk ++ [last]).IsChain fun id above => g.parentOf id = some above)
      (hlast : last ∈ walk) : ParentFault g (.parentCycle (walk ++ [last]))

theorem parentOf_eq_some_iff {id above : String} :
    g.parentOf id = some above ↔ ∃ d parent, g.definitions.get? id = some d ∧
      d.parent = some parent ∧ g.resolveAlias parent = above := by
  rw [parentOf, Option.bind_eq_some_iff]
  constructor
  · rintro ⟨d, hd, hmap⟩
    obtain ⟨parent, hparent, habove⟩ := Option.map_eq_some_iff.1 hmap
    exact ⟨d, parent, hd, hparent, habove⟩
  · rintro ⟨d, parent, hd, hparent, habove⟩
    exact ⟨d, hd, Option.map_eq_some_iff.2 ⟨parent, hparent, habove⟩⟩

theorem parentOf_ne_some_of_root {id above : String} {d : Definition}
    (hd : g.definitions.get? id = some d) (hparent : d.parent = none) :
    g.parentOf id ≠ some above := by
  rw [parentOf, hd, Option.bind_some, hparent, Option.map_none]
  exact (Option.some_ne_none above).symm

theorem parentOf_of_lookup {id parent : String} {d : Definition}
    (hd : g.definitions.get? id = some d) (hparent : d.parent = some parent) :
    g.parentOf id = some (g.resolveAlias parent) :=
  parentOf_eq_some_iff.2 ⟨d, parent, hd, hparent, rfl⟩

namespace Rooted

theorem of_parentOf {id above : String} (h : g.Rooted id) (hparent : g.parentOf id = some above) :
    g.Rooted above := by
  cases h with
  | root hd hnone => exact absurd hparent (parentOf_ne_some_of_root hd hnone)
  | child hparent' habove =>
      rw [hparent] at hparent'
      obtain rfl := Option.some.inj hparent'
      exact habove

theorem mem_keys {id : String} (h : g.Rooted id) : id ∈ g.definitions.keys := by
  cases h with
  | root hd _ => exact OrderedMap.mem_keys_of_get? hd
  | child hparent _ =>
      obtain ⟨d, -, hd, -, -⟩ := parentOf_eq_some_iff.1 hparent
      exact OrderedMap.mem_keys_of_get? hd

/-- A rooted definition is not on a loop of parents. -/
theorem not_loop {id : String} (h : g.Rooted id) :
    ¬ Relation.TransGen (fun id above => g.parentOf id = some above) id id := by
  induction h with
  | root hd hnone =>
      intro hloop
      obtain ⟨above, hparent, -⟩ := Relation.TransGen.head'_iff.1 hloop
      exact parentOf_ne_some_of_root hd hnone hparent
  | child hparent habove ih =>
      intro hloop
      obtain ⟨above, hparent', hback⟩ := Relation.TransGen.head'_iff.1 hloop
      rw [hparent] at hparent'
      obtain rfl := Option.some.inj hparent'
      -- the loop through the child is one through its parent
      exact ih (Relation.TransGen.tail' hback hparent)

end Rooted

namespace Flat

theorem rooted {id : String} {d : Definition} (h : g.Flat id d) : g.Rooted id := by
  induction h with
  | root hd hparent => exact .root hd hparent
  | child _ hparent _ _ ih => exact .child hparent ih

/-- A definition has at most one flattened form. -/
theorem unique {id : String} {d d' : Definition} (h : g.Flat id d) (h' : g.Flat id d') :
    d = d' := by
  induction h generalizing d' with
  | root hd hnone =>
      cases h' with
      | root hd' _ => exact Option.some.inj (hd.symm.trans hd')
      | child _ hparent' _ _ => exact absurd hparent' (parentOf_ne_some_of_root hd hnone)
  | child hd hparent _ hinherits ih =>
      cases h' with
      | root hd' hnone' => exact absurd hparent (parentOf_ne_some_of_root hd' hnone')
      | child hd' hparent' hupper' hinherits' =>
          obtain rfl := Option.some.inj (hd.symm.trans hd')
          obtain rfl := Option.some.inj (hparent.symm.trans hparent')
          obtain rfl := ih hupper'
          exact hinherits.unique hinherits'

/-- A flattened form has no parent. -/
theorem parent_eq_none {id : String} {d : Definition} (h : g.Flat id d) : d.parent = none := by
  cases h with
  | root _ hparent => exact hparent
  | child _ _ _ hinherits => exact hinherits.parent_eq

end Flat

/-! ## The walk up -/

/-- A walk up, its upper end first. -/
def Linked (g : Graph) (walked : List String) : Prop :=
  walked.IsChain fun above id => g.parentOf id = some above

/-- Everything on a walk leads to its upper end. -/
theorem Linked.reaches {top : String} {walked : List String} (h : g.Linked (top :: walked))
    {id : String} (hid : id ∈ top :: walked) :
    Relation.ReflTransGen (fun id above => g.parentOf id = some above) id top := by
  induction walked generalizing top with
  | nil =>
      rw [List.mem_singleton.1 hid]
  | cons next rest ih =>
      obtain ⟨hstep, hrest⟩ := List.isChain_cons_cons.1 h
      rcases List.mem_cons.1 hid with rfl | hid
      · exact Relation.ReflTransGen.refl
      · exact (ih hrest hid).tail hstep

/-- The upper end of a finished walk is known or has no parent. -/
def Arrived (g : Graph) (done : OrderedMap String Definition) (top : String) : Prop :=
  top ∈ done.keys ∨ ∃ d, g.definitions.get? top = some d ∧ d.parent = none

theorem lookup_eq_ok_iff {id : String} {d : Definition} :
    g.lookup id = .ok d ↔ g.definitions.get? id = some d := by
  rw [lookup]
  cases g.definitions.get? id with
  | none => simp
  | some d' => simp

/-- A walk that goes on from `walked` arrives, or it finds a fault, and then the definition that it
has come to is not rooted. -/
theorem climb_arrives_or_faults (done : OrderedMap String Definition) {walked : List String}
    {id : String} (hlinked : g.Linked walked) (hend : walked.head? = some id)
    (hid : id ∈ g.definitions.keys) :
    (∃ top rest, g.climb done walked id = .ok (top :: rest) ∧ walked <:+ top :: rest ∧
      g.Linked (top :: rest) ∧ g.Arrived done top) ∨
    ∃ e, g.climb done walked id = .error e ∧ g.ParentFault e ∧ ¬ g.Rooted id := by
  induction walked, id using climb.induct g done with
  | case1 walked id hdone =>
      -- the form of the definition is known
      rw [climb, if_pos hdone]
      obtain ⟨rest, rfl⟩ := List.head?_eq_some_iff.1 hend
      exact Or.inl ⟨id, rest, rfl, List.suffix_refl _, hlinked,
        Or.inl ((OrderedMap.mem_keys_iff done id).2 hdone)⟩
  | case2 walked id hdone e hlookup =>
      obtain ⟨d, hd⟩ := OrderedMap.exists_get?_of_mem_keys hid
      rw [lookup_eq_ok_iff.2 hd] at hlookup
      cases hlookup
  | case3 walked id hdone d hlookup hparent =>
      -- the definition has no parent
      rw [climb, if_neg hdone]
      simp only [hlookup, hparent]
      obtain ⟨rest, rfl⟩ := List.head?_eq_some_iff.1 hend
      exact Or.inl ⟨id, rest, rfl, List.suffix_refl _, hlinked,
        Or.inr ⟨d, lookup_eq_ok_iff.1 hlookup, hparent⟩⟩
  | case4 walked id hdone d hlookup parent hparent hknown hcycle =>
      -- the parent was passed before, so it leads back to the definition along the walk
      rw [climb, if_neg hdone]
      simp only [hlookup, hparent, hknown, hcycle, dite_true]
      obtain ⟨rest, rfl⟩ := List.head?_eq_some_iff.1 hend
      have hstep := parentOf_of_lookup (lookup_eq_ok_iff.1 hlookup) hparent
      refine Or.inr ⟨_, rfl, ?_, fun hrooted => ?_⟩
      · rw [List.reverse_cons]
        refine .parentCycle ?_ (List.mem_reverse.2 hcycle)
        rw [← List.reverse_cons, List.isChain_reverse]
        exact List.isChain_cons_cons.2 ⟨hstep, hlinked⟩
      · have hback := hlinked.reaches hcycle
        exact (hrooted.of_parentOf hstep).not_loop (Relation.TransGen.tail' hback hstep)
  | case5 walked id hdone d hlookup parent hparent hknown hcycle ih =>
      -- one step further up
      rw [climb, if_neg hdone]
      simp only [hlookup, hparent, hknown, hcycle, dite_true, dite_false]
      obtain ⟨rest, rfl⟩ := List.head?_eq_some_iff.1 hend
      have hstep := parentOf_of_lookup (lookup_eq_ok_iff.1 hlookup) hparent
      rcases ih (List.isChain_cons_cons.2 ⟨hstep, hlinked⟩) rfl
          ((OrderedMap.mem_keys_iff _ _).2 hknown) with
        ⟨top, rest', hclimb, hsuffix, hlinked', harrived⟩ | ⟨e, hclimb, hfault, hnot⟩
      · exact Or.inl ⟨top, rest', hclimb, (List.suffix_cons _ _).trans hsuffix, hlinked', harrived⟩
      · exact Or.inr ⟨e, hclimb, hfault, fun hrooted => hnot (hrooted.of_parentOf hstep)⟩
  | case6 walked id hdone d hlookup parent hparent hknown =>
      -- the parent is no definition
      rw [climb, if_neg hdone]
      simp only [hlookup, hparent, hknown]
      have hd := lookup_eq_ok_iff.1 hlookup
      have hmissing : g.resolveAlias parent ∉ g.definitions.keys := by
        rw [OrderedMap.mem_keys_iff]
        exact hknown
      refine Or.inr ⟨_, rfl, .missingParent hd hparent hmissing, fun hrooted => ?_⟩
      exact hmissing (hrooted.of_parentOf (parentOf_of_lookup hd hparent)).mem_keys

/-! ## The way down -/

/-- Every known form is the flattened form of a definition with a parent. -/
def Memo (g : Graph) (done : OrderedMap String Definition) : Prop :=
  ∀ id flat, done.get? id = some flat → g.Flat id flat ∧ ∃ above, g.parentOf id = some above

theorem memo_empty : g.Memo ∅ := fun _ _ h => nomatch h

/-- The form that a walk starts down from is flattened. -/
theorem Memo.exists_formOf {done : OrderedMap String Definition} {top : String}
    (hmemo : g.Memo done) (harrived : g.Arrived done top) :
    ∃ flat, g.formOf done top = .ok flat ∧ g.Flat top flat := by
  rw [formOf]
  rcases hknown : done.get? top with _ | flat
  · have hnew : top ∉ done.keys := OrderedMap.get?_eq_none_iff.1 hknown
    obtain ⟨d, hd, hnone⟩ := harrived.resolve_left hnew
    exact ⟨d, lookup_eq_ok_iff.2 hd, .root hd hnone⟩
  · exact ⟨flat, rfl, (hmemo top flat hknown).1⟩

/-- Laying one definition over its parent adds its flattened form. -/
theorem exists_layOver_memo {done : OrderedMap String Definition} {parent child : String}
    (hmemo : g.Memo done) (hparent : g.parentOf child = some parent)
    (harrived : g.Arrived done parent) :
    ∃ done', g.layOver done parent child = .ok done' ∧ g.Memo done' ∧
      ∀ id, id ∈ done'.keys ↔ id ∈ done.keys ∨ id = child := by
  rw [layOver]
  by_cases hdone : done.contains child = true
  · rw [if_pos hdone]
    refine ⟨done, rfl, hmemo, fun id => ⟨Or.inl, ?_⟩⟩
    rintro (h | rfl)
    · exact h
    · exact (OrderedMap.mem_keys_iff _ _).2 hdone
  rw [if_neg hdone]
  obtain ⟨d, -, hd, -, -⟩ := parentOf_eq_some_iff.1 hparent
  -- the form above is flattened, so the one laid over it is
  obtain ⟨above, hform, hflat⟩ := hmemo.exists_formOf harrived
  refine ⟨done.insert child (d.inherit above), ?_, ?_, ?_⟩
  · rw [hform, lookup_eq_ok_iff.2 hd]
    rfl
  · intro id flat hget
    rw [OrderedMap.get?_insert] at hget
    by_cases hid : child = id
    · subst hid
      rw [if_pos rfl] at hget
      obtain rfl := Option.some.inj hget
      exact ⟨.child hd hparent hflat (d.inherits_inherit above), parent, hparent⟩
    · rw [if_neg hid] at hget
      exact hmemo id flat hget
  · intro id
    rw [OrderedMap.keys_insert]
    by_cases hmem : child ∈ done.keys
    · exact absurd ((OrderedMap.mem_keys_iff _ _).1 hmem) hdone
    · rw [if_neg hmem, List.mem_append, List.mem_singleton]

/-- Coming down a walk adds the flattened forms of everything below its upper end. -/
theorem exists_layDown_memo {done : OrderedMap String Definition} {top : String}
    {rest : List String} (hmemo : g.Memo done) (hlinked : g.Linked (top :: rest))
    (harrived : g.Arrived done top) :
    ∃ done', g.layDown done (top :: rest) = .ok done' ∧ g.Memo done' ∧
      ∀ id, id ∈ done'.keys ↔ id ∈ done.keys ∨ id ∈ rest := by
  induction rest generalizing done top with
  | nil =>
      rw [layDown]
      · exact ⟨done, rfl, hmemo, fun id => by simp⟩
      · exact nofun
  | cons child rest ih =>
      obtain ⟨hstep, hrest⟩ := List.isChain_cons_cons.1 hlinked
      obtain ⟨done₁, hlay, hmemo₁, hkeys₁⟩ := exists_layOver_memo hmemo hstep harrived
      have hknown : child ∈ done₁.keys := (hkeys₁ child).2 (Or.inr rfl)
      obtain ⟨done', hdown, hmemo', hkeys⟩ := ih hmemo₁ hrest (Or.inl hknown)
      refine ⟨done', ?_, hmemo', fun id => ?_⟩
      · rw [layDown, hlay]
        exact hdown
      · rw [hkeys, hkeys₁, List.mem_cons, or_assoc]

/-! ## Flattening the definitions one after the other -/

/-- Flattening a definition succeeds with its form known afterwards, or finds a fault above it. -/
theorem flatten_memo_or_fault {done : OrderedMap String Definition} {id above : String}
    (hmemo : g.Memo done) (hparent : g.parentOf id = some above) :
    (∃ done', g.flatten done id = .ok done' ∧ g.Memo done' ∧
      (∀ x ∈ done.keys, x ∈ done'.keys) ∧ id ∈ done'.keys) ∨
    ∃ e, g.flatten done id = .error e ∧ g.ParentFault e ∧ ¬ g.Rooted id := by
  obtain ⟨d, -, hd, -, -⟩ := parentOf_eq_some_iff.1 hparent
  have hlinked : g.Linked [id] := List.isChain_singleton id
  rcases climb_arrives_or_faults done hlinked rfl (OrderedMap.mem_keys_of_get? hd) with
    ⟨top, rest, hclimb, hsuffix, hlinked', harrived⟩ | ⟨e, hclimb, hfault⟩
  · obtain ⟨done', hdown, hmemo', hkeys⟩ := exists_layDown_memo hmemo hlinked' harrived
    refine Or.inl ⟨done', ?_, hmemo', fun x hx => (hkeys x).2 (Or.inl hx), (hkeys id).2 ?_⟩
    · rw [flatten, hclimb]
      exact hdown
    · rcases List.mem_cons.1 (hsuffix.subset List.mem_cons_self) with rfl | hid
      · -- the walk arrived where it started, which has a parent
        refine Or.inl (harrived.resolve_right ?_)
        rintro ⟨d', hd', hnone⟩
        exact parentOf_ne_some_of_root hd' hnone hparent
      · exact Or.inr hid
  · refine Or.inr ⟨e, ?_, hfault⟩
    rw [flatten, hclimb]
    rfl

theorem flattenAll_memo_or_fault {done : OrderedMap String Definition} {ids : List String}
    (hmemo : g.Memo done) (hids : ∀ id ∈ ids, ∃ above, g.parentOf id = some above) :
    (∃ done', g.flattenAll done ids = .ok done' ∧ g.Memo done' ∧
      (∀ x ∈ done.keys, x ∈ done'.keys) ∧ ∀ id ∈ ids, id ∈ done'.keys) ∨
    ∃ e, g.flattenAll done ids = .error e ∧ g.ParentFault e ∧ ∃ id ∈ ids, ¬ g.Rooted id := by
  induction ids generalizing done with
  | nil =>
      exact Or.inl ⟨done, rfl, hmemo, fun _ h => h, fun _ h => absurd h List.not_mem_nil⟩
  | cons id rest ih =>
      obtain ⟨above, hparent⟩ := hids id List.mem_cons_self
      rcases flatten_memo_or_fault hmemo hparent with
        ⟨done₁, hflatten, hmemo₁, hkeep₁, hid⟩ | ⟨e, hflatten, hfault, hnot⟩
      · have hrest := ih hmemo₁ fun x hx => hids x (List.mem_cons_of_mem id hx)
        have heq : g.flattenAll done (id :: rest) = g.flattenAll done₁ rest := by
          rw [flattenAll, hflatten]
          rfl
        rcases hrest with ⟨done', hall, hmemo', hkeep, hmem⟩ | ⟨e, hall, hfault, x, hx, hnot⟩
        · refine Or.inl ⟨done', heq.trans hall, hmemo', fun x hx => hkeep x (hkeep₁ x hx), ?_⟩
          intro x hx
          rcases List.mem_cons.1 hx with rfl | hx
          · exact hkeep x hid
          · exact hmem x hx
        · exact Or.inr ⟨e, heq.trans hall, hfault, x, List.mem_cons_of_mem id hx, hnot⟩
      · refine Or.inr ⟨e, ?_, hfault, id, List.mem_cons_self, hnot⟩
        rw [flattenAll, hflatten]
        rfl

theorem mem_children_iff {id : String} :
    id ∈ g.children.map Prod.fst ↔ ∃ above, g.parentOf id = some above := by
  constructor
  · intro h
    obtain ⟨⟨_, d⟩, he, rfl⟩ := List.mem_map.1 h
    obtain ⟨hmem, hsome⟩ := List.mem_filter.1 he
    obtain ⟨parent, hparent⟩ := Option.isSome_iff_exists.1 hsome
    exact ⟨_, parentOf_eq_some_iff.2 ⟨d, parent, OrderedMap.get?_eq_some_iff.2 hmem, hparent, rfl⟩⟩
  · rintro ⟨above, h⟩
    obtain ⟨d, parent, hd, hparent, -⟩ := parentOf_eq_some_iff.1 h
    refine List.mem_map.2 ⟨(id, d), List.mem_filter.2 ⟨OrderedMap.get?_eq_some_iff.1 hd, ?_⟩, rfl⟩
    rw [hparent]
    rfl

theorem nodup_children : (g.children.map Prod.fst).Nodup :=
  g.definitions.nodup.sublist (List.filter_sublist.map Prod.fst)

/-! ## The same definitions in another order -/

/-- Another graph has the same definitions and aliases, its definitions in some order. -/
structure SameDefinitions (g h : Graph) : Prop where
  aliases : h.aliases = g.aliases
  definitions : ∀ id, h.definitions.get? id = g.definitions.get? id

namespace SameDefinitions

variable {h : Graph}

theorem symm (hsame : g.SameDefinitions h) : h.SameDefinitions g where
  aliases := hsame.aliases.symm
  definitions := fun id => (hsame.definitions id).symm

theorem parentOf_eq (hsame : g.SameDefinitions h) (id : String) :
    h.parentOf id = g.parentOf id := by
  have hresolve : h.resolveAlias = g.resolveAlias := by
    funext id
    rw [resolveAlias, resolveAlias, hsame.aliases]
  rw [parentOf, parentOf, hsame.definitions, hresolve]

theorem flat (hsame : g.SameDefinitions h) {id : String} {d : Definition} (hflat : g.Flat id d) :
    h.Flat id d := by
  induction hflat with
  | @root id d hd hparent =>
      exact .root ((hsame.definitions id).trans hd) hparent
  | @child id _ _ _ _ hd hparent _ hinherits ih =>
      exact .child ((hsame.definitions id).trans hd) ((hsame.parentOf_eq id).trans hparent) ih
        hinherits

theorem rooted (hsame : g.SameDefinitions h) {id : String} (hrooted : g.Rooted id) :
    h.Rooted id := by
  induction hrooted with
  | @root id d hd hparent =>
      exact .root ((hsame.definitions id).trans hd) hparent
  | @child id _ hparent _ ih =>
      exact .child ((hsame.parentOf_eq id).trans hparent) ih

theorem length_children (hsame : g.SameDefinitions h) :
    h.children.length = g.children.length := by
  have hperm : (h.children.map Prod.fst).Perm (g.children.map Prod.fst) := by
    rw [List.perm_ext_iff_of_nodup nodup_children nodup_children]
    intro id
    rw [mem_children_iff, mem_children_iff, hsame.parentOf_eq]
  simpa using hperm.length_eq

end SameDefinitions

/-! ## Flattening a graph -/

/-- `g'` is `g` with its definitions flattened, `count` of which had a parent. -/
structure Flattened (g : Graph) (count : Nat) (g' : Graph) : Prop where
  count_eq : count = g.children.length
  /-- Aliases, parameters, blocks and documents stay. -/
  only_definitions : g' = { g with definitions := g'.definitions }
  keys_eq : g'.definitions.keys = g.definitions.keys
  root : ∀ id d, g.definitions.get? id = some d → d.parent = none →
    g'.definitions.get? id = some d
  child : ∀ id d above, g.definitions.get? id = some d → g.parentOf id = some above →
    ∃ upper flat, g.Flat above upper ∧ d.Inherits upper flat ∧ g'.definitions.get? id = some flat

namespace Flattened

variable {count : Nat} {g' : Graph}

/-- Every definition is replaced by its flattened form. -/
theorem exists_flat (h : g.Flattened count g') {id : String} {d : Definition}
    (hd : g.definitions.get? id = some d) :
    ∃ flat, g.Flat id flat ∧ g'.definitions.get? id = some flat := by
  cases hparent : d.parent with
  | none => exact ⟨d, .root hd hparent, h.root id d hd hparent⟩
  | some parent =>
      have hstep := parentOf_of_lookup hd hparent
      obtain ⟨upper, flat, hupper, hinherits, hget⟩ := h.child id d _ hd hstep
      exact ⟨flat, .child hd hstep hupper hinherits, hget⟩

/-- What a flattened graph holds are flattened forms. -/
theorem flat_of_get? (h : g.Flattened count g') {id : String} {flat : Definition}
    (hget : g'.definitions.get? id = some flat) : g.Flat id flat := by
  have hmem : id ∈ g.definitions.keys := h.keys_eq ▸ OrderedMap.mem_keys_of_get? hget
  obtain ⟨d, hd⟩ := OrderedMap.exists_get?_of_mem_keys hmem
  obtain ⟨flat', hflat, hget'⟩ := h.exists_flat hd
  obtain rfl := Option.some.inj (hget.symm.trans hget')
  exact hflat

theorem parent_eq_none (h : g.Flattened count g') {id : String} {flat : Definition}
    (hget : g'.definitions.get? id = some flat) : flat.parent = none :=
  (h.flat_of_get? hget).parent_eq_none

theorem get?_eq_some_iff (h : g.Flattened count g') {id : String} {flat : Definition} :
    g'.definitions.get? id = some flat ↔ g.Flat id flat := by
  refine ⟨h.flat_of_get?, fun hflat => ?_⟩
  obtain ⟨d, hd⟩ := OrderedMap.exists_get?_of_mem_keys hflat.rooted.mem_keys
  obtain ⟨flat', hflat', hget⟩ := h.exists_flat hd
  rwa [hflat.unique hflat']

theorem rooted (h : g.Flattened count g') {id : String} (hid : id ∈ g.definitions.keys) :
    g.Rooted id := by
  obtain ⟨d, hd⟩ := OrderedMap.exists_get?_of_mem_keys hid
  obtain ⟨flat, hflat, -⟩ := h.exists_flat hd
  exact hflat.rooted

end Flattened

/-- The forms of all children make a flattened graph. -/
theorem flattened_of_memo {done : OrderedMap String Definition} (hmemo : g.Memo done)
    (hall : ∀ id ∈ g.children.map Prod.fst, id ∈ done.keys) :
    g.Flattened done.size { g with definitions := g.definitions.insertMany done.entries } := by
  -- the forms are those of the children, no more and no less
  have hkeys : ∀ id, id ∈ done.keys ↔ id ∈ g.children.map Prod.fst := by
    intro id
    refine ⟨fun hid => ?_, hall id⟩
    obtain ⟨flat, hget⟩ := OrderedMap.exists_get?_of_mem_keys hid
    exact mem_children_iff.2 (hmemo id flat hget).2
  refine ⟨?_, rfl, ?_, ?_, ?_⟩
  · have hperm : done.keys.Perm (g.children.map Prod.fst) := by
      rw [List.perm_ext_iff_of_nodup done.keys_nodup nodup_children]
      exact hkeys
    simpa [OrderedMap.keys, OrderedMap.size] using hperm.length_eq
  · apply OrderedMap.keys_insertMany_of_subset
    intro id hid
    obtain ⟨above, hparent⟩ := mem_children_iff.1 ((hkeys id).1 hid)
    obtain ⟨d, -, hd, -, -⟩ := parentOf_eq_some_iff.1 hparent
    exact OrderedMap.mem_keys_of_get? hd
  · intro id d hd hnone
    have hnew : done.get? id = none := by
      rw [OrderedMap.get?_eq_none_iff, hkeys, mem_children_iff]
      rintro ⟨above, hparent⟩
      exact parentOf_ne_some_of_root hd hnone hparent
    rw [OrderedMap.get?_insertMany_entries, hnew, hd, Option.none_or]
  · intro id d above hd hparent
    have hid : id ∈ done.keys := (hkeys id).2 (mem_children_iff.2 ⟨above, hparent⟩)
    obtain ⟨form, hget⟩ := OrderedMap.exists_get?_of_mem_keys hid
    have hform := (hmemo id form hget).1
    have hlookup : (g.definitions.insertMany done.entries).get? id = some form := by
      rw [OrderedMap.get?_insertMany_entries, hget, Option.some_or]
    cases hform with
    | root hd' hnone => exact absurd hparent (parentOf_ne_some_of_root hd' hnone)
    | child hd' hparent' hupper hinherits =>
        obtain rfl := Option.some.inj (hd.symm.trans hd')
        obtain rfl := Option.some.inj (hparent.symm.trans hparent')
        exact ⟨_, form, hupper, hinherits, hlookup⟩

/-- The step either sets the flattened graph or leaves the graph as it is. -/
theorem runOn_flattenInheritance_eq (g : Graph) :
    flattenInheritance.runOn g =
      match g.resolveInheritance with
      | .ok (g', count) => (.ok count, g')
      | .error e => (.error e, g) := by
  rw [flattenInheritance, Building.runOn_bind, Building.runOn_get]
  simp only [Building.runOn_bind, Building.runOn_liftExcept]
  rcases g.resolveInheritance with e | ⟨g', count⟩
  · rfl
  · rfl

/-- Flattening replaces the definitions of a graph by their flattened forms, or finds a fault above
one of them and changes nothing. -/
theorem flattened_or_fault (g : Graph) :
    (∃ count g', flattenInheritance.runOn g = (.ok count, g') ∧ g.Flattened count g') ∨
    ∃ e, flattenInheritance.runOn g = (.error e, g) ∧ g.ParentFault e ∧
      ∃ id ∈ g.children.map Prod.fst, ¬ g.Rooted id := by
  rw [runOn_flattenInheritance_eq]
  rcases flattenAll_memo_or_fault memo_empty fun id hid => mem_children_iff.1 hid with
    ⟨done, hall, hmemo, -, hmem⟩ | ⟨e, hall, hfault⟩
  · refine Or.inl ⟨_, _, ?_, flattened_of_memo hmemo hmem⟩
    rw [resolveInheritance, hall]
    rfl
  · refine Or.inr ⟨e, ?_, hfault⟩
    rw [resolveInheritance, hall]
    rfl

/-- A graph without parents is flattened already. -/
theorem flattenInheritance_of_no_parent
    (h : ∀ id d, g.definitions.get? id = some d → d.parent = none) :
    flattenInheritance.runOn g = (.ok 0, g) := by
  have hchildren : g.children = [] := by
    rw [children, List.filter_eq_nil_iff]
    rintro ⟨id, d⟩ hmem
    rw [h id d (OrderedMap.get?_eq_some_iff.2 hmem)]
    exact Bool.false_ne_true
  rw [runOn_flattenInheritance_eq, resolveInheritance, hchildren]
  rfl

/-- The order of the definitions does not matter for what flattening makes of them. -/
theorem Flattened.exists_of_sameDefinitions {count : Nat} {g' h : Graph}
    (hflattened : g.Flattened count g') (hsame : g.SameDefinitions h) :
    ∃ h', flattenInheritance.runOn h = (.ok count, h') ∧ g'.SameDefinitions h' := by
  rcases h.flattened_or_fault with
    ⟨count', h', hrun, hflattened'⟩ | ⟨e, hrun, hfault, id, hid, hnot⟩
  · have hcount : count' = count := by
      rw [hflattened'.count_eq, hflattened.count_eq, hsame.length_children]
    refine ⟨h', hcount ▸ hrun, ?_, fun id => ?_⟩
    · rw [hflattened'.only_definitions, hflattened.only_definitions]
      exact hsame.aliases
    · apply Option.ext
      intro flat
      rw [hflattened'.get?_eq_some_iff, hflattened.get?_eq_some_iff]
      exact ⟨hsame.symm.flat, hsame.flat⟩
  · obtain ⟨above, hparent⟩ := mem_children_iff.1 hid
    rw [hsame.parentOf_eq] at hparent
    obtain ⟨d, -, hd, -, -⟩ := parentOf_eq_some_iff.1 hparent
    exact absurd (hsame.rooted (hflattened.rooted (OrderedMap.mem_keys_of_get? hd))) hnot

/-- Flattening inheritance is exact and changes all or nothing. It succeeds exactly when every
definition with a parent is rooted; then it counts these definitions and puts each over the
flattened form of its parent, in whatever order the definitions stand, and a second run finds
nothing to do. When it fails the graph stays, and the failure names a fault of it. -/
theorem flattenInheritance_exact_and_atomic (g : Graph) :
    ((∃ count g', flattenInheritance.runOn g = (.ok count, g')) ↔
      ∀ id d, g.definitions.get? id = some d → d.parent ≠ none → g.Rooted id) ∧
    (∀ count g', flattenInheritance.runOn g = (.ok count, g') →
      g.Flattened count g' ∧
      (∀ id d, g'.definitions.get? id = some d → d.parent = none) ∧
      flattenInheritance.runOn g' = (.ok 0, g') ∧
      ∀ h, g.SameDefinitions h →
        ∃ h', flattenInheritance.runOn h = (.ok count, h') ∧ g'.SameDefinitions h') ∧
    (∀ e g', flattenInheritance.runOn g = (.error e, g') → g' = g ∧ g.ParentFault e) := by
  rcases g.flattened_or_fault with
    ⟨count, g', hrun, hflattened⟩ | ⟨e, hrun, hfault, id, hid, hnot⟩
  · refine ⟨⟨fun _ id d hd _ => ?_, fun _ => ⟨count, g', hrun⟩⟩, ?_, ?_⟩
    · exact hflattened.rooted (OrderedMap.mem_keys_of_get? hd)
    · intro count' g'' hrun'
      obtain ⟨hcount, rfl⟩ := Prod.mk.inj (hrun.symm.trans hrun')
      obtain rfl := Except.ok.inj hcount
      have hnone : ∀ id d, g'.definitions.get? id = some d → d.parent = none :=
        fun id d => hflattened.parent_eq_none
      exact ⟨hflattened, hnone, flattenInheritance_of_no_parent hnone,
        fun h hsame => hflattened.exists_of_sameDefinitions hsame⟩
    · intro e g'' hrun'
      rw [hrun] at hrun'
      exact nomatch congrArg Prod.fst hrun'
  · refine ⟨⟨?_, fun hrooted => ?_⟩, ?_, ?_⟩
    · rintro ⟨count, g', hrun'⟩
      rw [hrun] at hrun'
      exact nomatch congrArg Prod.fst hrun'
    · obtain ⟨above, hparent⟩ := mem_children_iff.1 hid
      obtain ⟨d, parent, hd, hlink, -⟩ := parentOf_eq_some_iff.1 hparent
      refine absurd (hrooted id d hd ?_) hnot
      rw [hlink]
      exact nofun
    · intro count g' hrun'
      rw [hrun] at hrun'
      exact nomatch congrArg Prod.fst hrun'
    · intro e' g' hrun'
      obtain ⟨he, rfl⟩ := Prod.mk.inj (hrun.symm.trans hrun')
      obtain rfl := Except.error.inj he
      exact ⟨rfl, hfault⟩

end Graph

end ServiceGraph
