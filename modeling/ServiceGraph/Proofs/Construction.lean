import ServiceGraph.Proofs.Inheritance
import ServiceGraph.Proofs.Loading.EntriesSet
import ServiceGraph.Proofs.Wiring.Bindings

/-!
# How a graph is constructed

`Graph.Step g sets g'` says that `g'` comes of `g` by one operation, which succeeds or fails, and
that the operation sets the entries of `sets`. `Graph.Evolves` is a sequence of operations with the
log of all entries that were set.

The log decides about the ids (`Graph.Evolves.sets`): every id that was ever set is there, as what
it was set last, so it is a definition or an alias and never both, and no operation removes it
(`Graph.Evolves.one_kind_each`).
-/

set_option autoImplicit false

namespace ServiceGraph

open Loading (runOn)

/-! ## Operations on a graph -/

namespace Graph

/-- One operation on a graph and the entries that it sets. -/
inductive Step : Graph → List (String × Entry) → Graph → Prop
  | parameterSet {g : Graph} (name : String) (value : Value) : Step g [] (g.setParameter name value)
  | definitionSet {g : Graph} (id : String) (d : Definition) :
      Step g [(id, .definition d)] (g.setDefinition id d)
  | aliasSet {g : Graph} (id : String) (a : Alias) : Step g [(id, .aliasing a)] (g.setAlias id a)
  | callAdded {g g' : Graph} {id : String} {call : MethodCall}
      (hcall : g.addCall id call = .ok g') : Step g [] g'
  | callRefused {g : Graph} {id : String} {call : MethodCall} {e : Failure}
      (hcall : g.addCall id call = .error e) : Step g [] g
  | blockAdded {g : Graph} (name : String) (block : Block) : Step g [] (g.addBlock name block)
  | resourceAdded {g : Graph} (path : Path) : Step g [] (g.addResource path)
  /-- A resource is loaded in any session that holds the graph. -/
  | loaded (l : Loader Id) (resource : String) (dir : Option Path) (s : Session) :
      Step s.graph (l.setBy resource dir s) (runOn (l.load resource dir) s).2.graph
  /-- The parameters of an extension are set from blocks. -/
  | extended {g : Graph} (name : String) (blocks : List Block) :
      Step g [] (((Extension.parameters name).load blocks).runOn g).2
  | flattened {g : Graph} : Step g [] (flattenInheritance.runOn g).2
  | wired {g : Graph} (w : Wiring) : Step g [] (w.process.runOn g).2

/-- A graph after operations, with the log of the entries that they set, in order. -/
inductive Evolves : Graph → List (String × Entry) → Graph → Prop
  | start {g : Graph} : Evolves g [] g
  | step {g g' g'' : Graph} {log sets : List (String × Entry)} (hbefore : Evolves g log g')
      (hstep : Step g' sets g'') : Evolves g (log ++ sets) g''

theorem sets_addCall {g g' : Graph} {id : String} {call : MethodCall}
    (h : g.addCall id call = .ok g') : g.Sets [] g' := by
  rw [addCall] at h
  by_cases hcontains : g.definitions.contains (g.resolveAlias id) = true
  · simp only [if_pos hcontains] at h
    obtain rfl := Except.ok.inj h
    exact Sets.of_same (OrderedMap.keys_update _ _ _) rfl
  · simp only [if_neg hcontains] at h
    cases h

theorem sets_setParameters (name : String) (blocks : List Block) (g : Graph) :
    g.Sets [] (blocks.foldl (Extension.setParameters name) g) := by
  -- setting parameters touches neither definitions nor aliases
  have hblock (block : Block) (g : Graph) :
      g.Sets [] (Extension.setParameters name g block) := by
    induction block generalizing g with
    | nil => exact Sets.refl g
    | cons member rest ih =>
        have hfirst : g.Sets []
            (g.setParameter (name ++ "." ++ member.1) (Value.ofJson member.2)) :=
          Sets.of_same rfl rfl
        exact hfirst.trans (ih _)
  induction blocks generalizing g with
  | nil => exact Sets.refl g
  | cons block rest ih => exact (hblock block g).trans (ih _)

theorem sets_flattenInheritance (g : Graph) : g.Sets [] (flattenInheritance.runOn g).2 := by
  rcases flattened_or_fault g with ⟨count, g', hrun, hflattened⟩ | ⟨e, hrun, -⟩
  · rw [hrun]
    refine Sets.of_same hflattened.keys_eq ?_
    rw [hflattened.only_definitions]
  · rw [hrun]
    exact Sets.refl g

/-- Whatever its outcome, an operation sets its entries and leaves the other ids in place. -/
theorem Step.sets {g g' : Graph} {sets : List (String × Entry)} (h : Step g sets g') :
    g.Sets sets g' := by
  cases h with
  | definitionSet id d => exact sets_setEntry g id (.definition d)
  | aliasSet id a => exact sets_setEntry g id (.aliasing a)
  | callAdded hcall => exact sets_addCall hcall
  | callRefused _ => exact Sets.refl g
  | loaded l resource dir s => exact l.sets_load resource dir s
  | extended name blocks => exact sets_setParameters name blocks g
  | flattened => exact sets_flattenInheritance g
  | wired w =>
      -- wiring adds calls to definitions, in place
      obtain ⟨added, hadded⟩ := w.exists_withCalls g
      rw [hadded]
      exact Sets.of_same (g.keys_withCalls added) rfl
  | parameterSet | blockAdded | resourceAdded => exact Sets.of_same rfl rfl

/-- A graph after entries were set one after the other. -/
def setAll (g : Graph) (log : List (String × Entry)) : Graph :=
  log.foldl (fun g e => g.setEntry e.1 e.2) g

theorem Evolves.setAll {g g' : Graph} {before : List (String × Entry)} (h : Evolves g before g')
    (log : List (String × Entry)) : Evolves g (before ++ log) (g'.setAll log) := by
  induction log generalizing before g' with
  | nil => rwa [List.append_nil]
  | cons e rest ih =>
      obtain ⟨id, entry⟩ := e
      have hset : Evolves g (before ++ [(id, entry)]) (g'.setEntry id entry) := by
        cases entry with
        | definition d => exact h.step (.definitionSet id d)
        | aliasing a => exact h.step (.aliasSet id a)
      rw [List.append_cons]
      exact ih hset

/-- Loading resources in order is a sequence of operations. -/
theorem Evolves.exists_loadAll (l : Loader Id) {g : Graph} {s : Session}
    {before : List (String × Entry)} (h : Evolves g before s.graph) (resources : List String) :
    ∃ log, Evolves g log (runOn (l.loadAll resources) s).2.graph := by
  induction resources generalizing s before with
  | nil => exact ⟨before, h⟩
  | cons resource rest ih =>
      rw [Loader.runOn_loadAll_cons]
      have hload := h.step (.loaded l resource none s)
      rcases hrun : runOn (l.load resource none) s with ⟨outcome, s'⟩
      rw [hrun] at hload
      cases outcome with
      | error e => exact ⟨_, hload⟩
      | ok _ => exact ih hload

theorem Evolves.sets {g g' : Graph} {log : List (String × Entry)} (h : Evolves g log g') :
    g.Sets log g' := by
  induction h with
  | start => exact Sets.refl _
  | step _ hstep ih => exact ih.trans hstep.sets

/-! ## The last set decides -/

/-- The entry of an id that was set last. -/
def lastSet (log : List (String × Entry)) (id : String) : Option Entry :=
  OrderedMap.valueAt id log.reverse

theorem lastSet_isSome_iff {log : List (String × Entry)} {id : String} :
    (lastSet log id).isSome = true ↔ ∃ entry, (id, entry) ∈ log := by
  rw [lastSet, OrderedMap.valueAt_isSome_iff, List.map_reverse, List.mem_reverse, List.mem_map]
  constructor
  · rintro ⟨⟨id', entry⟩, hmem, rfl⟩
    exact ⟨entry, hmem⟩
  · rintro ⟨entry, hmem⟩
    exact ⟨(id, entry), hmem, rfl⟩

namespace Sets

variable {g g' : Graph} {log : List (String × Entry)}

/-- An id is a definition when it was set last as one, or when it was one and was not set. -/
theorem mem_definitions_iff (h : g.Sets log g') {id : String} :
    id ∈ g'.definitions.keys ↔
      (∃ d, lastSet log id = some (.definition d)) ∨
        lastSet log id = none ∧ id ∈ g.definitions.keys := by
  rw [h.definitions, OrderedMap.mem_keys_iff, OrderedMap.contains, OrderedMap.get?_edit,
    definitionEdits, ← List.map_reverse, OrderedMap.valueAt_map, ← lastSet]
  rcases lastSet log id with _ | d | a
  · simp [OrderedMap.mem_keys_iff, OrderedMap.contains]
  · simp [Entry.definition?]
  · simp [Entry.definition?]

/-- An id has the alias that was set last, or the one it had when it was not set. -/
theorem get?_aliases (h : g.Sets log g') (id : String) :
    g'.aliases.get? id =
      match lastSet log id with
      | some entry => entry.alias?
      | none => g.aliases.get? id := by
  rw [h.aliases, OrderedMap.get?_edit, aliasEdits, ← List.map_reverse, OrderedMap.valueAt_map,
    ← lastSet]
  cases lastSet log id with
  | none => rfl
  | some entry => rfl

/-- No id disappears. -/
theorem has_of_has (h : g.Sets log g') {id : String} (hid : g.has id = true) :
    g'.has id = true := by
  rw [has, Bool.or_eq_true, ← OrderedMap.mem_keys_iff] at hid ⊢
  rw [h.mem_definitions_iff]
  rw [OrderedMap.contains, h.get?_aliases id]
  rcases lastSet log id with _ | d | a
  · exact hid.imp (fun hd => Or.inr ⟨rfl, hd⟩) fun ha => ha
  · exact Or.inl (Or.inl ⟨d, rfl⟩)
  · exact Or.inr rfl

/-- Definitions that are not set to aliases keep their order. -/
theorem filter_definitions (h : g.Sets log g') {p : String → Bool}
    (hp : ∀ id, p id = true → id ∈ g.definitions.keys ∧ ∀ a, (id, .aliasing a) ∉ log) :
    g'.definitions.keys.filter p = g.definitions.keys.filter p := by
  rw [h.definitions]
  refine OrderedMap.filter_keys_edit fun id hid => ⟨(hp id hid).1, fun hremoved => ?_⟩
  obtain ⟨⟨id', entry⟩, hmem, hedit⟩ := List.mem_map.1 hremoved
  cases entry with
  | definition d => exact nomatch congrArg Prod.snd hedit
  | aliasing a =>
      obtain rfl : id' = id := congrArg Prod.fst hedit
      exact (hp id' hid).2 a hmem

/-- Aliases that are not set to definitions keep their order. -/
theorem filter_aliases (h : g.Sets log g') {p : String → Bool}
    (hp : ∀ id, p id = true → id ∈ g.aliases.keys ∧ ∀ d, (id, .definition d) ∉ log) :
    g'.aliases.keys.filter p = g.aliases.keys.filter p := by
  rw [h.aliases]
  refine OrderedMap.filter_keys_edit fun id hid => ⟨(hp id hid).1, fun hremoved => ?_⟩
  obtain ⟨⟨id', entry⟩, hmem, hedit⟩ := List.mem_map.1 hremoved
  cases entry with
  | aliasing a => exact nomatch congrArg Prod.snd hedit
  | definition d =>
      obtain rfl : id' = id := congrArg Prod.fst hedit
      exact (hp id' hid).2 d hmem

end Sets

/-! ## Ids of a constructed graph -/

/-- The ids of a graph are those of a log, each of the kind that was set last. -/
structure Recorded (log : List (String × Entry)) (g : Graph) : Prop where
  disjoint (id : String) : ¬ (id ∈ g.definitions.keys ∧ id ∈ g.aliases.keys)
  has_iff (id : String) : g.has id = true ↔ ∃ entry, (id, entry) ∈ log
  definition_iff (id : String) :
    id ∈ g.definitions.keys ↔ ∃ d, lastSet log id = some (.definition d)
  alias_iff (id : String) (a : Alias) :
    g.aliases.get? id = some a ↔ lastSet log id = some (.aliasing a)

/-- Setting an id to what it is already, a definition or an alias, keeps all ids in their places. -/
structure ReplacesInPlace (g : Graph) : Prop where
  definition (id : String) (d : Definition) : id ∈ g.definitions.keys →
    (g.setDefinition id d).definitions.keys = g.definitions.keys ∧
      (g.setDefinition id d).aliases = g.aliases
  aliasing (id : String) (a : Alias) : id ∈ g.aliases.keys →
    (g.setAlias id a).aliases.keys = g.aliases.keys ∧
      (g.setAlias id a).definitions = g.definitions

/-- `g'` has the ids of `g`, and those that never change their kind on the way keep their order. -/
structure KeepsIds (g : Graph) (log : List (String × Entry)) (g' : Graph) : Prop where
  has (id : String) : g.has id = true → g'.has id = true
  definitions (p : String → Bool) :
    (∀ id, p id = true → id ∈ g.definitions.keys ∧ ∀ a, (id, .aliasing a) ∉ log) →
      g'.definitions.keys.filter p = g.definitions.keys.filter p
  aliases (p : String → Bool) :
    (∀ id, p id = true → id ∈ g.aliases.keys ∧ ∀ d, (id, .definition d) ∉ log) →
      g'.aliases.keys.filter p = g.aliases.keys.filter p

/-- Setting entries on top of the empty graph records them. -/
theorem Sets.recorded {g : Graph} {log : List (String × Entry)} (h : Sets {} log g) :
    g.Recorded log := by
  have hdefinition (id : String) :
      id ∈ g.definitions.keys ↔ ∃ d, lastSet log id = some (.definition d) := by
    rw [h.mem_definitions_iff]
    exact or_iff_left fun hold => absurd hold.2 List.not_mem_nil
  have halias (id : String) : g.aliases.get? id = (lastSet log id).bind Entry.alias? := by
    rw [h.get?_aliases]
    cases lastSet log id with
    | none => rfl
    | some entry => rfl
  refine ⟨fun id => ?_, fun id => ?_, hdefinition, fun id a => ?_⟩
  · -- an id that is a definition was set last as one, and so has no alias
    rintro ⟨hd, ha⟩
    obtain ⟨d, hd⟩ := (hdefinition id).1 hd
    obtain ⟨a, ha⟩ := OrderedMap.exists_get?_of_mem_keys ha
    rw [halias, hd] at ha
    exact nomatch ha
  · rw [Graph.has, Bool.or_eq_true, ← OrderedMap.mem_keys_iff, hdefinition, OrderedMap.contains,
      halias, ← lastSet_isSome_iff]
    rcases lastSet log id with _ | d | a
    · simp
    · simp
    · simp [Entry.alias?]
  · rw [halias]
    rcases lastSet log id with _ | d | b
    · simp
    · simp [Entry.alias?]
    · simp [Entry.alias?]

theorem Recorded.replacesInPlace {g : Graph} {log : List (String × Entry)} (h : g.Recorded log) :
    g.ReplacesInPlace where
  definition id d hid :=
    ⟨OrderedMap.keys_insert_of_mem d hid,
      OrderedMap.erase_of_not_mem fun ha => h.disjoint id ⟨hid, ha⟩⟩
  aliasing id a hid :=
    ⟨OrderedMap.keys_insert_of_mem a hid,
      OrderedMap.erase_of_not_mem fun hd => h.disjoint id ⟨hd, hid⟩⟩

/-- In every graph that operations make of the empty graph, an id is a definition or an alias, the
one it was set to last, and it is there exactly when it was ever set. Replacing keeps its place, and
no further operation removes an id or moves those that keep their kind. -/
theorem Evolves.one_kind_each {g : Graph} {log : List (String × Entry)} (h : Evolves {} log g) :
    g.Recorded log ∧ g.ReplacesInPlace ∧
      ∀ (log' : List (String × Entry)) (g' : Graph), Evolves g log' g' → g.KeepsIds log' g' := by
  have hrecorded := h.sets.recorded
  refine ⟨hrecorded, hrecorded.replacesInPlace, fun log' g' h' => ?_⟩
  have hsets := h'.sets
  exact ⟨fun _ => hsets.has_of_has, fun _ => hsets.filter_definitions,
    fun _ => hsets.filter_aliases⟩

/-- A definition that becomes an alias, of a service whose parent is missing. -/
def swappedLog : List (String × Entry) :=
  [("db", .definition {}), ("db", .aliasing ⟨"mail", true⟩),
    ("mail", .definition { parent := some "gone" })]

/-- The graph of that log, after flattening failed and the rules were run. -/
def swapped : Graph :=
  (({} : Wiring).process.runOn (flattenInheritance.runOn (setAll {} swappedLog)).2).2

theorem evolves_swapped : Evolves {} swappedLog swapped :=
  ((Evolves.start.setAll swappedLog).step .flattened).step (.wired {})

theorem Evolves.one_kind_each_swapped :
    Evolves {} swappedLog swapped ∧ swapped.Recorded swappedLog ∧ swapped.ReplacesInPlace ∧
      ∀ (log' : List (String × Entry)) (g' : Graph),
        Evolves swapped log' g' → swapped.KeepsIds log' g' :=
  ⟨evolves_swapped, one_kind_each evolves_swapped⟩

end Graph

end ServiceGraph
