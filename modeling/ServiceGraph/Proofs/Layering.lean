import ServiceGraph.Proofs.Inheritance

/-!
# Laying definitions over each other

For three definitions it does not matter which two of them are laid over each other first
(`Definition.inherit_assoc`). Laying neighbours of a chain over each other until one definition is
left (`Definition.Lays`, in terms of the fields that are inherited) therefore comes to the same in
whatever order it is done: from the root down, from the leaf up, or with a part of the chain laid
together before.

The definitions from an id along its parents up to the root are its lineage (`Graph.Lineage`).
`Graph.inheritance_in_any_order` says that flattening finds what the lineage comes to, from
whichever flattened ancestors it starts.
-/

set_option autoImplicit false

namespace ServiceGraph

namespace Definition

/-- A child laid over a parent that was laid over its own parent. Each field is the child's own, or
the first that is set from the child upwards, or made of the parents' and then the child's. -/
theorem inherit_assoc (child middle base : Definition) :
    child.inherit (middle.inherit base) = (child.inherit middle).inherit base := by
  have hproperties :
      (base.properties.insertMany middle.properties.entries).insertMany child.properties.entries =
        base.properties.insertMany
          (middle.properties.insertMany child.properties.entries).entries :=
    (OrderedMap.insertMany_entries_insertMany _ _ _).symm
  simp only [inherit, Option.orElse_eq_orElse, Option.orElse_eq_or, Option.or_assoc, hproperties,
    List.append_assoc]

instance : Std.Associative inherit where
  assoc := fun child middle base => (inherit_assoc child middle base).symm

/-- What a chain of definitions, the lowest first, comes to when neighbours are laid over each other
until one definition is left. -/
inductive Lays : List Definition → Definition → Prop
  | one (d : Definition) : Lays [d] d
  | join {lower upper : List Definition} {child parent d : Definition} (hlower : Lays lower child)
      (hupper : Lays upper parent) (hinherits : child.Inherits parent d) : Lays (lower ++ upper) d

/-- Laying a chain together from its leaf up. -/
theorem lays_foldl (leaf : Definition) (rest : List Definition) :
    Lays (leaf :: rest) (rest.foldl inherit leaf) := by
  induction rest using List.reverseRecOn with
  | nil => exact .one leaf
  | append_singleton rest d ih =>
      rw [List.foldl_append, ← List.cons_append]
      exact .join ih (.one d) (inherits_inherit _ d)

/-- Laying a chain together from its root down. -/
theorem lays_foldr (chain : List Definition) (root : Definition) :
    Lays (chain ++ [root]) (chain.foldr inherit root) := by
  induction chain with
  | nil => exact .one root
  | cons d rest ih =>
      have htop := Lays.join (.one d) ih (d.inherits_inherit _)
      exact htop

/-- In whatever order a chain is laid together, it comes to what it does from its leaf up. -/
theorem Lays.exists_eq_foldl {chain : List Definition} {d : Definition} (h : Lays chain d) :
    ∃ leaf rest, chain = leaf :: rest ∧ d = rest.foldl inherit leaf := by
  induction h with
  | one d => exact ⟨d, [], rfl, rfl⟩
  | join _ _ hinherits ihlower ihupper =>
      obtain ⟨leaf, lower, rfl, rfl⟩ := ihlower
      obtain ⟨next, upper, rfl, rfl⟩ := ihupper
      obtain rfl := inherits_iff.1 hinherits
      refine ⟨leaf, lower ++ next :: upper, rfl, ?_⟩
      rw [List.foldl_append, List.foldl_cons, List.foldl_assoc]

theorem Lays.unique {chain : List Definition} {d d' : Definition} (h : Lays chain d)
    (h' : Lays chain d') : d = d' := by
  obtain ⟨leaf, rest, rfl, rfl⟩ := h.exists_eq_foldl
  obtain ⟨leaf', rest', hchain, rfl⟩ := h'.exists_eq_foldl
  obtain ⟨rfl, rfl⟩ := List.cons.inj hchain
  rfl

end Definition

namespace Graph

variable {g : Graph}

/-- The definitions from an id along its parents up to one without parent, in this order. -/
inductive Lineage (g : Graph) : String → List Definition → Prop
  | root {id : String} {d : Definition} (hd : g.definitions.get? id = some d)
      (hparent : d.parent = none) : Lineage g id [d]
  | child {id above : String} {d : Definition} {chain : List Definition}
      (hd : g.definitions.get? id = some d) (hparent : g.parentOf id = some above)
      (habove : Lineage g above chain) : Lineage g id (d :: chain)

/-- A flattened form is what the lineage comes to from its root down. -/
theorem Lineage.exists_flat {id : String} {chain : List Definition} (h : g.Lineage id chain) :
    ∃ flat, g.Flat id flat ∧ Definition.Lays chain flat := by
  induction h with
  | @root _ d hd hparent => exact ⟨d, .root hd hparent, .one d⟩
  | @child _ _ d _ hd hparent _ ih =>
      obtain ⟨upper, hflat, hlays⟩ := ih
      have hinherits := d.inherits_inherit upper
      have htop := Definition.Lays.join (.one d) hlays hinherits
      exact ⟨d.inherit upper, .child hd hparent hflat hinherits, htop⟩

/-- The form of a definition without parent is never kept. -/
theorem Memo.get?_eq_none_of_root {done : OrderedMap String Definition} {id : String}
    {d : Definition} (h : g.Memo done) (hd : g.definitions.get? id = some d)
    (hnone : d.parent = none) : done.get? id = none := by
  rcases hget : done.get? id with _ | form
  · rfl
  · obtain ⟨-, above, hparent⟩ := h id form hget
    exact absurd hparent (parentOf_ne_some_of_root hd hnone)

/-- Flattening a definition finds its flattened form, whichever forms are known before. -/
theorem Flat.exists_flatten {done : OrderedMap String Definition} {id : String} {flat : Definition}
    (h : g.Flat id flat) (hmemo : g.Memo done) :
    ∃ done', g.flatten done id = .ok done' ∧ g.formOf done' id = .ok flat := by
  cases h with
  | root hd hnone =>
      -- there is nothing to lay down, and the definition is its own form
      have hnew := hmemo.get?_eq_none_of_root hd hnone
      have hunknown : ¬ done.contains id = true := by
        rw [OrderedMap.contains, hnew]
        exact Bool.false_ne_true
      have hlookup := lookup_eq_ok_iff.2 hd
      refine ⟨done, ?_, ?_⟩
      · rw [flatten, climb, if_neg hunknown, hlookup]
        simp only [hnone]
        rfl
      · rw [formOf, hnew]
        exact hlookup
  | child hd hparent habove hinherits =>
      have hflat := Flat.child hd hparent habove hinherits
      rcases flatten_memo_or_fault hmemo hparent with
        ⟨done', hflatten, hmemo', -, hid⟩ | ⟨e, -, -, hnot⟩
      · obtain ⟨form, hget⟩ := OrderedMap.exists_get?_of_mem_keys hid
        obtain rfl := (hmemo' id form hget).1.unique hflat
        refine ⟨done', hflatten, ?_⟩
        rw [formOf, hget]
      · exact absurd hflat.rooted hnot

/-- Inheritance is associative: three definitions come to the same whichever two are laid over each
other first. So a chain comes to one definition in whatever order it is laid together, from its leaf
up or from its root down, and that is what flattening finds for the chain from an id up to its root,
whichever of the definitions on the way were flattened before. -/
theorem inheritance_in_any_order :
    (∀ child middle base : Definition,
      child.inherit (middle.inherit base) = (child.inherit middle).inherit base) ∧
    (∀ leaf rest d, Definition.Lays (leaf :: rest) d ↔ d = rest.foldl Definition.inherit leaf) ∧
    (∀ chain root d, Definition.Lays (chain ++ [root]) d ↔
      d = chain.foldr Definition.inherit root) ∧
    ∀ (g : Graph) id chain d, g.Lineage id chain → Definition.Lays chain d →
      ∀ done, g.Memo done →
        ∃ done', g.flatten done id = .ok done' ∧ g.formOf done' id = .ok d := by
  refine ⟨Definition.inherit_assoc, ?_, ?_, ?_⟩
  · intro leaf rest d
    constructor
    · intro h
      exact h.unique (Definition.lays_foldl leaf rest)
    · rintro rfl
      exact Definition.lays_foldl leaf rest
  · intro chain root d
    constructor
    · intro h
      exact h.unique (Definition.lays_foldr chain root)
    · rintro rfl
      exact Definition.lays_foldr chain root
  · intro g id chain d hlineage hlays done hmemo
    obtain ⟨flat, hflat, hlays'⟩ := hlineage.exists_flat
    obtain rfl := hlays.unique hlays'
    exact hflat.exists_flatten hmemo

namespace Tower

/-- A definition without parent. -/
def base : Definition where
  className := some "Base"
  properties := .ofList [("db", .string "b"), ("log", .string "b")]

/-- A definition over the first one. -/
def middle : Definition where
  parent := some "base"
  properties := .ofList [("cache", .string "m"), ("db", .string "m")]

/-- A definition over the second one, which it knows under another id. -/
def leaf : Definition where
  parent := some "link"
  publicFlag := some false
  properties := .ofList [("log", .string "l")]

-- a property stands where the topmost definition has it, with the value of the lowest one
example : ((leaf.inherit middle).inherit base).properties.entries.map (fun e => (e.1, e.2.text?)) =
    [("db", some "m"), ("log", some "l"), ("cache", some "m")] := by
  decide

/-- The graph of these definitions. -/
def graph : Graph where
  definitions := .ofList [("leaf", leaf), ("middle", middle), ("base", base)]
  aliases := .ofList [("link", ⟨"middle", true⟩)]

/-- The form of the second definition, known before. -/
def known : OrderedMap String Definition := .ofList [("middle", middle.inherit base)]

/-- The third definition over the known form of the second one comes to what it does when it is laid
over the second one first. -/
theorem inheritance_in_any_order_tower :
    graph.Lineage "leaf" [leaf, middle, base] ∧
    Definition.Lays [leaf, middle, base] ((leaf.inherit middle).inherit base) ∧
    graph.Memo known ∧
    ∃ done', graph.flatten known "leaf" = .ok done' ∧
      graph.formOf done' "leaf" = .ok ((leaf.inherit middle).inherit base) := by
  have hleaf : graph.parentOf "leaf" = some "middle" := by decide
  have hmiddle : graph.parentOf "middle" = some "base" := by decide
  have hlineage : graph.Lineage "leaf" [leaf, middle, base] :=
    .child rfl hleaf (.child rfl hmiddle (.root rfl rfl))
  have hlays : Definition.Lays [leaf, middle, base] ((leaf.inherit middle).inherit base) :=
    Definition.lays_foldl leaf [middle, base]
  have hmemo : graph.Memo known := by
    intro id flat hget
    rw [OrderedMap.get?_eq_some_iff] at hget
    obtain ⟨rfl, rfl⟩ := Prod.mk.inj (List.mem_singleton.1 hget)
    exact ⟨.child rfl hmiddle (.root rfl rfl) (middle.inherits_inherit base), "base", hmiddle⟩
  exact ⟨hlineage, hlays, hmemo,
    inheritance_in_any_order.2.2.2 graph "leaf" _ _ hlineage hlays known hmemo⟩

end Tower

end Graph

end ServiceGraph
