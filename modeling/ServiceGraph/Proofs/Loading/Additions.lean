import ServiceGraph.Proofs.Building
import ServiceGraph.Proofs.Loading.Equation
import ServiceGraph.Proofs.OrderedMap

/-!
# What loading adds to a graph

`Additions` lists services, parameters, configuration blocks and documents read, each in the order
in which they are added, and `g.Adds a g'` says that `g'` is `g` with all of `a` added at the end:
the services are new, a parameter that was set before takes its new value, and a block joins those
of its extension. Additions made one after the other add up (`Graph.Adds.trans`), and the ids of the
new graph are those of the old one and the added ones (`Graph.Adds.has_iff`).

Merging the parts of a document adds them in written order up to the first service that cannot be
added (`Loader.adds_mergeOwn`), and all of them when it succeeds (`Loader.adds_mergeOwn_of_ok`).
-/

set_option autoImplicit false

namespace ServiceGraph

/-! ## Lists of additions -/

/-- What is added to a graph, each kind in its own order. -/
structure Additions where
  entries : List (String × Entry) := []
  parameters : List (String × Value) := []
  blocks : List (String × Block) := []
  resources : List Path := []

namespace Additions

instance : Append Additions where
  append a b :=
    ⟨a.entries ++ b.entries, a.parameters ++ b.parameters, a.blocks ++ b.blocks,
      a.resources ++ b.resources⟩

theorem append_def (a b : Additions) :
    a ++ b = ⟨a.entries ++ b.entries, a.parameters ++ b.parameters, a.blocks ++ b.blocks,
      a.resources ++ b.resources⟩ := rfl

end Additions

/-- The definitions among entries. -/
def definitionsOf (entries : List (String × Entry)) : List (String × Definition) :=
  entries.filterMap fun e =>
    match e.2 with
    | .definition d => some (e.1, d)
    | .aliasing _ => none

/-- The aliases among entries. -/
def aliasesOf (entries : List (String × Entry)) : List (String × Alias) :=
  entries.filterMap fun e =>
    match e.2 with
    | .definition _ => none
    | .aliasing a => some (e.1, a)

theorem mem_of_mem_definitionsOf {entries : List (String × Entry)} {id : String} {d : Definition}
    (h : (id, d) ∈ definitionsOf entries) : (id, .definition d) ∈ entries := by
  obtain ⟨⟨id', entry⟩, hmem, hentry⟩ := List.mem_filterMap.1 h
  cases entry with
  | aliasing a => exact nomatch hentry
  | definition d' =>
      obtain ⟨rfl, rfl⟩ := Prod.mk.inj (Option.some.inj hentry)
      exact hmem

theorem mem_of_mem_aliasesOf {entries : List (String × Entry)} {id : String} {a : Alias}
    (h : (id, a) ∈ aliasesOf entries) : (id, .aliasing a) ∈ entries := by
  obtain ⟨⟨id', entry⟩, hmem, hentry⟩ := List.mem_filterMap.1 h
  cases entry with
  | definition d => exact nomatch hentry
  | aliasing a' =>
      obtain ⟨rfl, rfl⟩ := Prod.mk.inj (Option.some.inj hentry)
      exact hmem

/-- Every entry is a definition or an alias. -/
theorem perm_ids (entries : List (String × Entry)) :
    (entries.map Prod.fst).Perm
      ((definitionsOf entries).map Prod.fst ++ (aliasesOf entries).map Prod.fst) := by
  induction entries with
  | nil => exact List.Perm.refl _
  | cons e rest ih =>
      obtain ⟨id, entry⟩ := e
      cases entry with
      | definition d => exact ih.cons id
      | aliasing a => exact (ih.cons id).trans List.perm_middle.symm

/-- The entries that services of a file produce; a service that produces none is left out. -/
def entriesOf (file : String) (services : List (String × Json)) : List (String × Entry) :=
  services.filterMap fun service =>
    match Entry.read ⟨service.1, file⟩ service.2 with
    | .ok entry => some (service.1, entry)
    | .error _ => none

/-- Every service of a file produces an entry. -/
def ProduceEntries (file : String) (services : List (String × Json)) : Prop :=
  ∀ service ∈ services, ∃ entry, Entry.read ⟨service.1, file⟩ service.2 = .ok entry

theorem map_fst_entriesOf {file : String} {services : List (String × Json)}
    (h : ProduceEntries file services) :
    (entriesOf file services).map Prod.fst = services.map Prod.fst := by
  induction services with
  | nil => rfl
  | cons service rest ih =>
      obtain ⟨entry, hentry⟩ := h service List.mem_cons_self
      have hrest := ih fun service hservice => h service (List.mem_cons_of_mem _ hservice)
      simp only [entriesOf, List.filterMap_cons, hentry, List.map_cons] at hrest ⊢
      rw [hrest]

/-- The blocks of extensions with one more block. -/
def queueBlock (blocks : OrderedMap String (List Block)) (block : String × Block) :
    OrderedMap String (List Block) :=
  blocks.insert block.1 ((blocks.get? block.1).getD [] ++ [block.2])

/-- What a document adds by itself. -/
def Document.additions (d : Document) : Additions where
  entries := entriesOf d.file d.services
  parameters := d.parameters.map fun p => (p.1, Value.ofJson p.2)
  blocks := d.extensions.map fun b => (b.1, Document.block b.2)

/-- One graph is the other with everything in a list of additions added at the end. -/
structure Graph.Adds (g : Graph) (a : Additions) (g' : Graph) : Prop where
  definitions : g'.definitions.entries = g.definitions.entries ++ definitionsOf a.entries
  aliases : g'.aliases.entries = g.aliases.entries ++ aliasesOf a.entries
  parameters : g'.parameters = g.parameters.insertMany a.parameters
  blocks : g'.blocks = a.blocks.foldl queueBlock g.blocks
  resources : g'.resources = g.resources ++ a.resources

namespace Graph

namespace Adds

theorem refl (g : Graph) : g.Adds {} g where
  definitions := (List.append_nil _).symm
  aliases := (List.append_nil _).symm
  parameters := rfl
  blocks := rfl
  resources := (List.append_nil _).symm

theorem trans {g g' g'' : Graph} {a b : Additions} (h : g.Adds a g') (h' : g'.Adds b g'') :
    g.Adds (a ++ b) g'' where
  definitions := by
    rw [h'.definitions, h.definitions, List.append_assoc, Additions.append_def]
    simp only [definitionsOf, List.filterMap_append]
  aliases := by
    rw [h'.aliases, h.aliases, List.append_assoc, Additions.append_def]
    simp only [aliasesOf, List.filterMap_append]
  parameters := by
    rw [h'.parameters, h.parameters, Additions.append_def, OrderedMap.insertMany_append]
  blocks := by
    rw [h'.blocks, h.blocks, Additions.append_def, List.foldl_append]
  resources := by
    rw [h'.resources, h.resources, List.append_assoc, Additions.append_def]

end Adds

/-! ## The operations of a graph -/

theorem adds_addResource (g : Graph) (path : Path) :
    g.Adds { resources := [path] } (g.addResource path) where
  definitions := (List.append_nil _).symm
  aliases := (List.append_nil _).symm
  parameters := rfl
  blocks := rfl
  resources := rfl

theorem adds_addParameters (g : Graph) (parameters : List (String × Json)) :
    g.Adds { parameters := parameters.map fun p => (p.1, Value.ofJson p.2) }
      (g.addParameters parameters) := by
  induction parameters generalizing g with
  | nil => exact Adds.refl g
  | cons p rest ih =>
      have hstep : g.Adds { parameters := [(p.1, Value.ofJson p.2)] }
          (g.setParameter p.1 (Value.ofJson p.2)) :=
        ⟨(List.append_nil _).symm, (List.append_nil _).symm, rfl, rfl, (List.append_nil _).symm⟩
      exact hstep.trans (ih (g.setParameter p.1 (Value.ofJson p.2)))

theorem adds_addBlocks (g : Graph) (blocks : List (String × Json)) :
    g.Adds { blocks := blocks.map fun b => (b.1, Document.block b.2) } (g.addBlocks blocks) := by
  induction blocks generalizing g with
  | nil => exact Adds.refl g
  | cons b rest ih =>
      have hstep : g.Adds { blocks := [(b.1, Document.block b.2)] }
          (g.addBlock b.1 (Document.block b.2)) :=
        ⟨(List.append_nil _).symm, (List.append_nil _).symm, rfl, rfl, (List.append_nil _).symm⟩
      exact hstep.trans (ih (g.addBlock b.1 (Document.block b.2)))

theorem not_mem_keys_of_not_has {g : Graph} {id : String} (h : g.has id = false) :
    id ∉ g.definitions.keys ∧ id ∉ g.aliases.keys := by
  rw [has, Bool.or_eq_false_iff] at h
  rw [OrderedMap.mem_keys_iff, OrderedMap.mem_keys_iff, h.1, h.2]
  exact ⟨Bool.false_ne_true, Bool.false_ne_true⟩

theorem adds_setEntry {g : Graph} {id : String} (h : g.has id = false) (entry : Entry) :
    g.Adds { entries := [(id, entry)] } (g.setEntry id entry) := by
  obtain ⟨hd, ha⟩ := not_mem_keys_of_not_has h
  cases entry with
  | definition d =>
      refine ⟨OrderedMap.entries_insert_of_not_mem d hd, ?_, rfl, rfl, (List.append_nil _).symm⟩
      show (g.aliases.erase id).entries = g.aliases.entries ++ []
      rw [OrderedMap.erase_of_not_mem ha, List.append_nil]
  | aliasing a =>
      refine ⟨?_, OrderedMap.entries_insert_of_not_mem a ha, rfl, rfl, (List.append_nil _).symm⟩
      show (g.definitions.erase id).entries = g.definitions.entries ++ []
      rw [OrderedMap.erase_of_not_mem hd, List.append_nil]

theorem runOn_addServices_cons (file id : String) (value : Json) (rest : List (String × Json))
    (g : Graph) :
    (addServices file ((id, value) :: rest)).runOn g =
      if g.has id = true then (.error (.duplicateId id file), g)
      else
        match Entry.read ⟨id, file⟩ value with
        | .error e => (.error e, g)
        | .ok entry => (addServices file rest).runOn (g.setEntry id entry) := by
  rw [addServices, Building.runOn_bind, Building.runOn_get]
  by_cases h : g.has id = true
  · simp only [if_pos h]
    rfl
  · simp only [if_neg h, Building.runOn_bind, Building.runOn_liftExcept]
    cases Entry.read ⟨id, file⟩ value with
    | error e => rfl
    | ok entry => rfl

/-- Services are added one by one up to the first that cannot be, and all of them when there is no
such service. -/
theorem adds_addServices (file : String) (services : List (String × Json)) (g : Graph) :
    ∃ added rest, services = added ++ rest ∧ ProduceEntries file added ∧
      g.Adds { entries := entriesOf file added } ((addServices file services).runOn g).2 ∧
      (((addServices file services).runOn g).1 = .ok () → rest = []) := by
  induction services generalizing g with
  | nil => exact ⟨[], [], rfl, fun _ h => absurd h List.not_mem_nil, Adds.refl g, fun _ => rfl⟩
  | cons service rest ih =>
      obtain ⟨id, value⟩ := service
      rw [runOn_addServices_cons]
      -- an id that is taken and an entry that cannot be read end the sequence
      by_cases hid : g.has id = true
      · simp only [if_pos hid]
        exact ⟨[], _, rfl, fun _ h => absurd h List.not_mem_nil, Adds.refl g, nofun⟩
      simp only [if_neg hid]
      cases hread : Entry.read ⟨id, file⟩ value with
      | error e =>
          exact ⟨[], _, rfl, fun _ h => absurd h List.not_mem_nil, Adds.refl g, nofun⟩
      | ok entry =>
          obtain ⟨added, rest', hsplit, hproduce, hadds, hok⟩ := ih (g.setEntry id entry)
          refine ⟨(id, value) :: added, rest', congrArg _ hsplit, ?_, ?_, hok⟩
          · intro service hservice
            rcases List.mem_cons.1 hservice with rfl | hservice
            · exact ⟨entry, hread⟩
            · exact hproduce service hservice
          · have hentries : entriesOf file ((id, value) :: added) =
                [(id, entry)] ++ entriesOf file added := by
              simp only [entriesOf, List.filterMap_cons, hread, List.singleton_append]
            rw [hentries]
            exact (adds_setEntry (Bool.eq_false_iff.2 hid) entry).trans hadds

/-! ## What additions leave in place -/

namespace Adds

variable {g g' : Graph} {a : Additions}

theorem has_of_has (h : g.Adds a g') {id : String} (hid : g.has id = true) : g'.has id = true := by
  rw [has, Bool.or_eq_true, ← OrderedMap.mem_keys_iff, ← OrderedMap.mem_keys_iff] at hid ⊢
  refine hid.imp (fun hd => ?_) fun ha => ?_
  · rw [OrderedMap.keys, h.definitions, List.map_append]
    exact List.mem_append_left _ hd
  · rw [OrderedMap.keys, h.aliases, List.map_append]
    exact List.mem_append_left _ ha

theorem has_of_mem (h : g.Adds a g') {e : String × Entry} (he : e ∈ a.entries) :
    g'.has e.1 = true := by
  rw [has, Bool.or_eq_true, ← OrderedMap.mem_keys_iff, ← OrderedMap.mem_keys_iff]
  obtain ⟨id, entry⟩ := e
  cases entry with
  | definition d =>
      have hd : (id, d) ∈ definitionsOf a.entries := List.mem_filterMap.2 ⟨_, he, rfl⟩
      refine Or.inl (List.mem_map.2 ⟨(id, d), ?_, rfl⟩)
      rw [h.definitions]
      exact List.mem_append_right _ hd
  | aliasing b =>
      have hb : (id, b) ∈ aliasesOf a.entries := List.mem_filterMap.2 ⟨_, he, rfl⟩
      refine Or.inr (List.mem_map.2 ⟨(id, b), ?_, rfl⟩)
      rw [h.aliases]
      exact List.mem_append_right _ hb

/-- The ids of a graph are the old ones and the added ones. -/
theorem has_iff (h : g.Adds a g') {id : String} :
    g'.has id = true ↔ g.has id = true ∨ ∃ entry, (id, entry) ∈ a.entries := by
  constructor
  · intro hid
    rw [has, Bool.or_eq_true, ← OrderedMap.mem_keys_iff, ← OrderedMap.mem_keys_iff] at hid ⊢
    rw [OrderedMap.keys, OrderedMap.keys, h.definitions, h.aliases, List.map_append,
      List.map_append, List.mem_append, List.mem_append] at hid
    rcases hid with (hd | hd) | ha | ha
    · exact Or.inl (Or.inl hd)
    · obtain ⟨⟨id', d⟩, hmem, rfl⟩ := List.mem_map.1 hd
      exact Or.inr ⟨_, mem_of_mem_definitionsOf hmem⟩
    · exact Or.inl (Or.inr ha)
    · obtain ⟨⟨id', b⟩, hmem, rfl⟩ := List.mem_map.1 ha
      exact Or.inr ⟨_, mem_of_mem_aliasesOf hmem⟩
  · rintro (hid | ⟨entry, hmem⟩)
    · exact h.has_of_has hid
    · exact h.has_of_mem hmem

/-- What is added to the empty graph has one entry for each id. -/
theorem nodup_ids (h : Adds {} a g)
    (hdisjoint : ∀ id, ¬ (id ∈ g.definitions.keys ∧ id ∈ g.aliases.keys)) :
    (a.entries.map Prod.fst).Nodup := by
  have hdefinitions : g.definitions.keys = (definitionsOf a.entries).map Prod.fst := by
    rw [OrderedMap.keys, h.definitions]
    rfl
  have haliases : g.aliases.keys = (aliasesOf a.entries).map Prod.fst := by
    rw [OrderedMap.keys, h.aliases]
    rfl
  rw [(perm_ids a.entries).nodup_iff, ← hdefinitions, ← haliases, List.nodup_append]
  refine ⟨g.definitions.keys_nodup, g.aliases.keys_nodup, ?_⟩
  rintro id hd _ ha rfl
  exact hdisjoint id ⟨hd, ha⟩

/-- The parameters that are set are the old ones and the added ones. -/
theorem mem_parameters_iff (h : g.Adds a g') {name : String} :
    name ∈ g'.parameters.keys ↔ name ∈ g.parameters.keys ∨ name ∈ a.parameters.map Prod.fst := by
  rw [h.parameters, OrderedMap.keys_insertMany, List.mem_append, List.mem_eraseDups,
    List.mem_filter]
  by_cases hname : name ∈ g.parameters.keys <;> simp [hname]

/-- The names that blocks wait for are the old ones and the added ones. -/
theorem mem_blocks_iff (h : g.Adds a g') {name : String} :
    name ∈ g'.blocks.keys ↔ name ∈ g.blocks.keys ∨ name ∈ a.blocks.map Prod.fst := by
  have hkeys : g'.blocks.keys = _ :=
    (congrArg OrderedMap.keys h.blocks).trans (OrderedMap.keys_foldl_insert _ _ _ _)
  rw [hkeys, List.mem_append, List.mem_eraseDups, List.mem_filter]
  by_cases hname : name ∈ g.blocks.keys <;> simp [hname]

/-- The added blocks of an extension follow its old ones, in their order. -/
theorem blocksOf_eq (h : g.Adds a g') (name : String) :
    g'.blocksOf name = g.blocksOf name ++ (a.blocks.filter (·.1 = name)).map Prod.snd := by
  -- for blocks queued on top of any others, so that the induction can go on
  have hqueue : ∀ (l : List (String × Block)) (m : OrderedMap String (List Block)),
      ((l.foldl queueBlock m).get? name).getD [] =
        (m.get? name).getD [] ++ (l.filter (·.1 = name)).map Prod.snd := by
    intro l
    induction l with
    | nil => simp
    | cons b rest ih =>
        intro m
        rw [List.foldl_cons, ih, queueBlock, OrderedMap.get?_insert]
        by_cases hb : b.1 = name
        · simp [hb]
        · simp [hb]
  rw [blocksOf, h.blocks]
  exact hqueue a.blocks g.blocks

end Adds

end Graph

namespace Loader

/-- Whatever the outcome, merging the parts of a document adds to the graph. -/
theorem adds_mergeOwn (d : Document) (g : Graph) : ∃ a, g.Adds a (mergeOwn d g).2 := by
  obtain ⟨added, -, -, -, hadds, -⟩ := Graph.adds_addServices d.file d.services
    ((g.addParameters d.parameters).addBlocks d.extensions)
  exact ⟨_, ((Graph.adds_addParameters g d.parameters).trans
    (Graph.adds_addBlocks _ d.extensions)).trans hadds⟩

/-- Merging the parts of a document adds exactly these parts when it succeeds. -/
theorem adds_mergeOwn_of_ok {d : Document} {g g' : Graph} (h : mergeOwn d g = (.ok (), g')) :
    g.Adds d.additions g' ∧ ProduceEntries d.file d.services := by
  obtain ⟨added, rest, hsplit, hproduce, hadds, hok⟩ := Graph.adds_addServices d.file d.services
    ((g.addParameters d.parameters).addBlocks d.extensions)
  -- success leaves no service over
  have hrest : rest = [] := hok (congrArg Prod.fst h)
  rw [hrest, List.append_nil] at hsplit
  subst hsplit
  have hown := ((Graph.adds_addParameters g d.parameters).trans
    (Graph.adds_addBlocks _ d.extensions)).trans hadds
  rw [← mergeOwn, h] at hown
  exact ⟨by simpa [Additions.append_def, Document.additions] using hown, hproduce⟩

end Loader

end ServiceGraph
