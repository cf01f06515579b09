import ServiceGraph.Proofs.Building
import ServiceGraph.Proofs.Loading.Additions
import ServiceGraph.Proofs.Loading.Equation
import ServiceGraph.Proofs.OrderedMap

/-!
# The entries that loading sets

`g.Sets sets g'` says that the ids of `g'` are those of `g` after the entries of `sets` were set one
after the other: each id stands where setting the entries leaves it, and an id is an alias when the
entry that was set last is one.

A load sets the services of the documents it merges, each document up to the first service that it
cannot take. `Loader.setBy` collects them along the recursion of the loader, so it says for a load
that fails, too, which entries were set before it failed (`Loader.sets_load`).
-/

set_option autoImplicit false

namespace ServiceGraph

open Loading (runOn)

/-! ## Setting entries -/

namespace Entry

/-- The definition of an entry. -/
def definition? : Entry → Option Definition
  | .definition d => some d
  | .aliasing _ => none

/-- The alias of an entry. -/
def alias? : Entry → Option Alias
  | .definition _ => none
  | .aliasing a => some a

end Entry

/-- What setting entries does to the definitions: an alias removes the definition of its id. -/
def definitionEdits (sets : List (String × Entry)) : List (String × Option Definition) :=
  sets.map fun e => (e.1, e.2.definition?)

/-- What setting entries does to the aliases: a definition removes the alias of its id. -/
def aliasEdits (sets : List (String × Entry)) : List (String × Option Alias) :=
  sets.map fun e => (e.1, e.2.alias?)

/-- The ids of a graph are those of another one after entries were set one after the other. -/
structure Graph.Sets (g : Graph) (sets : List (String × Entry)) (g' : Graph) : Prop where
  definitions : g'.definitions.keys = (g.definitions.edit (definitionEdits sets)).keys
  aliases : g'.aliases = g.aliases.edit (aliasEdits sets)

namespace Graph

namespace Sets

variable {g g' g'' : Graph} {sets sets' : List (String × Entry)}

/-- Nothing was set when ids and aliases are the same. -/
theorem of_same (hdefinitions : g'.definitions.keys = g.definitions.keys)
    (haliases : g'.aliases = g.aliases) : g.Sets [] g' where
  definitions := hdefinitions
  aliases := haliases

theorem refl (g : Graph) : g.Sets [] g := of_same rfl rfl

theorem trans (h : g.Sets sets g') (h' : g'.Sets sets' g'') : g.Sets (sets ++ sets') g'' where
  definitions := by
    rw [h'.definitions, definitionEdits, definitionEdits, List.map_append, OrderedMap.edit_append]
    exact OrderedMap.keys_edit_congr h.definitions _
  aliases := by
    rw [h'.aliases, h.aliases, aliasEdits, aliasEdits, aliasEdits, List.map_append,
      OrderedMap.edit_append]

end Sets

theorem sets_setEntry (g : Graph) (id : String) (entry : Entry) :
    g.Sets [(id, entry)] (g.setEntry id entry) := by
  cases entry with
  | definition d => exact ⟨rfl, rfl⟩
  | aliasing a => exact ⟨rfl, rfl⟩

/-- Additions without entries set nothing. -/
theorem Adds.sets {g g' : Graph} {a : Additions} (h : g.Adds a g') (hnone : a.entries = []) :
    g.Sets [] g' := by
  have hdefinitions := h.definitions
  have haliases := h.aliases
  rw [hnone] at hdefinitions haliases
  refine Sets.of_same ?_ (OrderedMap.ext (haliases.trans (List.append_nil _)))
  rw [OrderedMap.keys, hdefinitions]
  exact congrArg (List.map Prod.fst) (List.append_nil _)

/-- The services of a file that a graph takes: those before the first whose id is taken or that
cannot be read. -/
def servicesTaken (file : String) : List (String × Json) → Graph → List (String × Entry)
  | [], _ => []
  | (id, value) :: rest, g =>
    if g.has id = true then []
    else
      match Entry.read ⟨id, file⟩ value with
      | .error _ => []
      | .ok entry => (id, entry) :: servicesTaken file rest (g.setEntry id entry)

theorem sets_addServices (file : String) (services : List (String × Json)) (g : Graph) :
    g.Sets (servicesTaken file services g) ((addServices file services).runOn g).2 := by
  induction services generalizing g with
  | nil => exact Sets.refl g
  | cons service rest ih =>
      obtain ⟨id, value⟩ := service
      rw [runOn_addServices_cons, servicesTaken]
      -- the code and the list stop at the same service
      by_cases hid : g.has id = true
      · simp only [if_pos hid]
        exact Sets.refl g
      simp only [if_neg hid]
      cases Entry.read ⟨id, file⟩ value with
      | error e => exact Sets.refl g
      | ok entry => exact (sets_setEntry g id entry).trans (ih (g.setEntry id entry))

end Graph

/-! ## The entries that a load sets -/

namespace Loader

variable (l : Loader Id)

/-- The entries that merging the parts of a document sets. -/
def setByOwn (d : Document) (g : Graph) : List (String × Entry) :=
  Graph.servicesTaken d.file d.services ((g.addParameters d.parameters).addBlocks d.extensions)

/-- The entries that loading imports sets, when loading a resource sets those of `sets`. -/
def setByImports (load : String → Loading Id Unit)
    (sets : String → Session → List (String × Entry)) (file : String) :
    List Json → Session → List (String × Entry)
  | [], _ => []
  | item :: rest, s =>
    match Import.read file item with
    | .error _ => []
    | .ok entry =>
      match runOn (load entry.resource) s with
      | (.ok (), s') => sets entry.resource s ++ setByImports load sets file rest s'
      | (.error e, s') =>
        if entry.ignoreErrors && e.kind = .imports then
          sets entry.resource s ++ setByImports load sets file rest s'
        else sets entry.resource s

/-- The entries that merging a document sets: those of its imports, and then its own. -/
def setByDocument (load : String → Loading Id Unit)
    (sets : String → Session → List (String × Entry)) (d : Document) (s : Session) :
    List (String × Entry) :=
  match l.accept d with
  | .error _ => []
  | .ok () =>
    match runOn (loadImports load d.file d.imports) s with
    | (.error _, _) => setByImports load sets d.file d.imports s
    | (.ok (), s') => setByImports load sets d.file d.imports s ++ setByOwn d s'.graph

/-- The entries that a load sets with room for `room` more documents in progress. -/
def setWithin : Nat → String → Option Path → Session → List (String × Entry)
  | 0, _, _, _ => []
  | room + 1, resource, dir, s =>
    match l.pathOf resource dir with
    | .error _ => []
    | .ok p =>
      if p ∈ s.inProgress ∨ p ∈ s.loaded then []
      else
        match l.documentAt p with
        | .ok (some d) =>
          l.setByDocument (fun resource => l.loadWithin room resource p.parent?)
            (fun resource => setWithin room resource p.parent?) d ((s.record p).enter p)
        | _ => []

/-- The entries that a load sets, in the order in which it sets them. -/
def setBy (resource : String) (dir : Option Path) (s : Session) : List (String × Entry) :=
  l.setWithin (l.maxDepth - s.inProgress.length) resource dir s

theorem sets_mergeOwn (d : Document) (g : Graph) : g.Sets (setByOwn d g) (mergeOwn d g).2 := by
  have hparts := (g.adds_addParameters d.parameters).trans
    ((g.addParameters d.parameters).adds_addBlocks d.extensions)
  exact (hparts.sets rfl).trans (Graph.sets_addServices d.file d.services _)

section Imports

variable {load : String → Loading Id Unit} {sets : String → Session → List (String × Entry)}

theorem sets_loadImports
    (hload : ∀ (resource : String) (s : Session),
      s.graph.Sets (sets resource s) (runOn (load resource) s).2.graph)
    (file : String) (items : List Json) (s : Session) :
    s.graph.Sets (setByImports load sets file items s)
      (runOn (loadImports load file items) s).2.graph := by
  induction items generalizing s with
  | nil => exact Graph.Sets.refl s.graph
  | cons item rest ih =>
      rw [runOn_loadImports_cons, setByImports]
      cases Import.read file item with
      | error e => exact Graph.Sets.refl s.graph
      | ok entry =>
          have hfirst := hload entry.resource s
          rcases hrun : runOn (load entry.resource) s with ⟨outcome, s'⟩
          rw [hrun] at hfirst
          -- the further imports are loaded in the session that the first one leaves
          cases outcome with
          | ok _ =>
              simp only [hrun]
              exact hfirst.trans (ih s')
          | error e =>
              simp only [hrun]
              split
              · exact hfirst.trans (ih s')
              · exact hfirst

theorem sets_mergeDocument
    (hload : ∀ (resource : String) (s : Session),
      s.graph.Sets (sets resource s) (runOn (load resource) s).2.graph)
    (d : Document) (s : Session) :
    s.graph.Sets (l.setByDocument load sets d s) (runOn (l.mergeDocument load d) s).2.graph := by
  rw [runOn_mergeDocument, setByDocument]
  cases l.accept d with
  | error e => exact Graph.Sets.refl s.graph
  | ok _ =>
      have himports := sets_loadImports hload d.file d.imports s
      rcases hrun : runOn (loadImports load d.file d.imports) s with ⟨outcome, s'⟩
      rw [hrun] at himports
      cases outcome with
      | error e => exact himports
      | ok _ => exact himports.trans (sets_mergeOwn d s'.graph)

end Imports

theorem sets_loadWithin (room : Nat) (resource : String) (dir : Option Path) (s : Session) :
    s.graph.Sets (l.setWithin room resource dir s)
      (runOn (l.loadWithin room resource dir) s).2.graph := by
  induction room generalizing resource dir s with
  | zero =>
      rw [runOn_loadWithin_zero]
      cases l.pathOf resource dir with
      | error e => exact Graph.Sets.refl s.graph
      | ok p =>
          by_cases hp : p ∈ s.inProgress
          · simp only [if_pos hp]
            exact Graph.Sets.refl s.graph
          · simp only [if_neg hp]
            exact Graph.Sets.refl s.graph
  | succ room ih =>
      -- the list branches where the load does, and nothing is set before the document is read
      rw [runOn_loadWithin_succ, setWithin]
      cases l.pathOf resource dir with
      | error e => exact Graph.Sets.refl s.graph
      | ok p =>
          by_cases hp : p ∈ s.inProgress
          · simp only [if_pos hp, if_pos (Or.inl hp)]
            exact Graph.Sets.refl s.graph
          by_cases hl : p ∈ s.loaded
          · simp only [if_neg hp, if_pos hl, if_pos (Or.inr hl)]
            exact Graph.Sets.refl s.graph
          simp only [if_neg hp, if_neg hl, if_neg (not_or.2 ⟨hp, hl⟩)]
          -- recording the path sets nothing
          have hrecord : s.graph.Sets [] (s.record p).graph :=
            (s.graph.adds_addResource p).sets rfl
          rw [openWith, documentAt]
          cases l.textOf p with
          | error e => exact Graph.Sets.refl s.graph
          | ok text =>
              cases hparse : Document.parse text p.text with
              | error e =>
                  simp only [bind, Except.bind, hparse]
                  exact hrecord
              | ok parsed =>
                  cases parsed with
                  | none =>
                      simp only [bind, Except.bind, hparse]
                      exact hrecord
                  | some d =>
                      simp only [bind, Except.bind, hparse]
                      exact hrecord.trans (l.sets_mergeDocument
                        (fun resource s => ih resource p.parent? s) d ((s.record p).enter p))

/-- Whatever its outcome, a load sets the entries it collects. -/
theorem sets_load (resource : String) (dir : Option Path) (s : Session) :
    s.graph.Sets (l.setBy resource dir s) (runOn (l.load resource dir) s).2.graph :=
  l.sets_loadWithin (l.maxDepth - s.inProgress.length) resource dir s

end Loader

end ServiceGraph
