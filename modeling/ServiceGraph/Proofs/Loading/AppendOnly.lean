import ServiceGraph.Proofs.Loading.Additions
import ServiceGraph.Proofs.Loading.Files
import ServiceGraph.Proofs.Loading.Invariants

/-!
# Loading only appends

`g.GrowsTo g'` says that `g'` is `g` with things added at the end: services, documents, names of
extensions, blocks of each extension and names of parameters all keep what they had as a prefix,
and a service that was there is what it was. Additions of services under new ids make a graph grow
(`Graph.Adds.growsTo`).

A step of loading appends when the graph of the session grows in every result of it, failures
included (`Loading.Appends`): whatever graph the session had grown from, it has still grown from. To
have grown from a graph is therefore an invariant, and loading keeps it
(`Loader.load_only_appends`).
-/

set_option autoImplicit false

namespace ServiceGraph

/-! ## Growing graphs -/

/-- One graph is the other with things added at the end. -/
structure Graph.GrowsTo (g g' : Graph) : Prop where
  definitions : g.definitions.entries <+: g'.definitions.entries
  aliases : g.aliases.entries <+: g'.aliases.entries
  resources : g.resources <+: g'.resources
  /-- The names of the extensions that blocks wait for. -/
  extensions : g.blocks.keys <+: g'.blocks.keys
  blocks (name : String) : g.blocksOf name <+: g'.blocksOf name
  /-- A parameter may have a new value. -/
  parameters : g.parameters.keys <+: g'.parameters.keys
  /-- A service is neither replaced nor changed, and a definition does not become an alias. -/
  services (id : String) (hid : g.has id = true) :
    g'.definitions.get? id = g.definitions.get? id ∧ g'.aliases.get? id = g.aliases.get? id

namespace Graph

namespace GrowsTo

variable {g g' g'' : Graph}

theorem refl (g : Graph) : g.GrowsTo g where
  definitions := List.prefix_rfl
  aliases := List.prefix_rfl
  resources := List.prefix_rfl
  extensions := List.prefix_rfl
  blocks := fun _ => List.prefix_rfl
  parameters := List.prefix_rfl
  services := fun _ _ => ⟨rfl, rfl⟩

/-- What a graph has, a graph that it grows to has. -/
theorem has_of_has (h : g.GrowsTo g') {id : String} (hid : g.has id = true) :
    g'.has id = true := by
  obtain ⟨hdefinition, halias⟩ := h.services id hid
  simp only [has, OrderedMap.contains] at hid ⊢
  rw [hdefinition, halias]
  exact hid

theorem trans (h : g.GrowsTo g') (h' : g'.GrowsTo g'') : g.GrowsTo g'' where
  definitions := h.definitions.trans h'.definitions
  aliases := h.aliases.trans h'.aliases
  resources := h.resources.trans h'.resources
  extensions := h.extensions.trans h'.extensions
  blocks := fun name => (h.blocks name).trans (h'.blocks name)
  parameters := h.parameters.trans h'.parameters
  services := by
    intro id hid
    obtain ⟨hdefinition, halias⟩ := h.services id hid
    obtain ⟨hdefinition', halias'⟩ := h'.services id (h.has_of_has hid)
    exact ⟨hdefinition'.trans hdefinition, halias'.trans halias⟩

end GrowsTo

/-- Additions under new ids make a graph grow. -/
theorem Adds.growsTo {g g' : Graph} {a : Additions} (h : g.Adds a g')
    (hnew : ∀ e ∈ a.entries, g.has e.1 = false) : g.GrowsTo g' where
  definitions := ⟨_, h.definitions.symm⟩
  aliases := ⟨_, h.aliases.symm⟩
  resources := ⟨_, h.resources.symm⟩
  extensions := by
    have hkeys : g'.blocks.keys = g.blocks.keys ++ _ :=
      (congrArg OrderedMap.keys h.blocks).trans (OrderedMap.keys_foldl_insert _ _ _ _)
    rw [hkeys]
    exact List.prefix_append _ _
  blocks := by
    intro name
    rw [h.blocksOf_eq]
    exact List.prefix_append _ _
  parameters := by
    rw [h.parameters, OrderedMap.keys_insertMany]
    exact List.prefix_append _ _
  services := by
    intro id hid
    -- an id that was there is not among the added ones, of either kind
    have hnot : ∀ entry, (id, entry) ∉ a.entries := by
      intro entry hmem
      rw [hnew _ hmem] at hid
      exact Bool.false_ne_true hid
    constructor
    · refine OrderedMap.get?_eq_of_append h.definitions fun hmem => ?_
      obtain ⟨⟨id', d⟩, hd, rfl⟩ := List.mem_map.1 hmem
      exact hnot _ (mem_of_mem_definitionsOf hd)
    · refine OrderedMap.get?_eq_of_append h.aliases fun hmem => ?_
      obtain ⟨⟨id', b⟩, hb, rfl⟩ := List.mem_map.1 hmem
      exact hnot _ (mem_of_mem_aliasesOf hb)

/-- Services are added under ids that are free. -/
theorem growsTo_addServices (file : String) (services : List (String × Json)) (g : Graph) :
    g.GrowsTo ((addServices file services).runOn g).2 := by
  induction services generalizing g with
  | nil => exact GrowsTo.refl g
  | cons service rest ih =>
      obtain ⟨id, value⟩ := service
      rw [runOn_addServices_cons]
      by_cases hid : g.has id = true
      · rw [if_pos hid]
        exact GrowsTo.refl g
      · rw [if_neg hid]
        cases Entry.read ⟨id, file⟩ value with
        | error e => exact GrowsTo.refl g
        | ok entry =>
            have hfree : g.has id = false := Bool.eq_false_iff.2 hid
            have hset : g.GrowsTo (g.setEntry id entry) := by
              refine (adds_setEntry hfree entry).growsTo ?_
              intro e he
              rw [List.mem_singleton.1 he]
              exact hfree
            exact hset.trans (ih (g.setEntry id entry))

end Graph

/-! ## Steps of loading -/

namespace Loading

variable {m : Type → Type} [Monad m] {α β : Type}

/-- The graph of the session grows, whatever the result of a step. -/
def Appends (x : Loading m α) : Prop :=
  ∀ s : Session, Ensures (fun result => s.graph.GrowsTo result.2.graph) (x.run.run s)

variable [LawfulMonad m]

/-- A step appends when it keeps whatever the graph has grown from. -/
theorem appends_iff_keeps {x : Loading m α} : Appends x ↔ ∀ g : Graph, Keeps g.GrowsTo x := by
  constructor
  · intro hx g s hs
    exact (hx s).imp fun _ hgrows => hs.trans hgrows
  · intro hx s
    exact hx s.graph s (.refl s.graph)

theorem appends_get : Appends (get : Loading m Session) :=
  appends_iff_keeps.2 fun _ => keeps_get

theorem Appends.bind {x : Loading m α} {f : α → Loading m β} (hx : Appends x)
    (hf : ∀ a, Appends (f a)) : Appends (x >>= f) :=
  appends_iff_keeps.2 fun g =>
    (appends_iff_keeps.1 hx g).bind fun a => appends_iff_keeps.1 (hf a) g

end Loading

/-! ## The loader -/

namespace Loader

variable {m : Type → Type} [Monad m] [LawfulMonad m]

open Loading

omit [Monad m] [LawfulMonad m] in
/-- Each way in which a load changes the graph makes it grow. -/
theorem preserves_growsTo (l : Loader m) (g : Graph) : l.Preserves g.GrowsTo where
  recorded path g' hg' :=
    hg'.trans ((g'.adds_addResource path).growsTo fun _ he => absurd he List.not_mem_nil)
  parts d g' _ hg' :=
    (hg'.trans
      ((g'.adds_addParameters d.parameters).growsTo fun _ he => absurd he List.not_mem_nil)).trans
      ((Graph.adds_addBlocks _ d.extensions).growsTo fun _ he => absurd he List.not_mem_nil)
  services file services g' hg' := hg'.trans (Graph.growsTo_addServices file services g')

theorem appends_loadWithin (l : Loader m) (room : Nat) (resource : String) (dir : Option Path) :
    Appends (l.loadWithin room resource dir) :=
  appends_iff_keeps.2 fun g => (l.preserves_growsTo g).keeps_loadWithin room resource dir

/-- Loading only appends to the graph, in any session, whatever the locator does and whether the
load succeeds or fails halfway. -/
theorem load_only_appends (l : Loader m) (resource : String) (dir : Option Path) (s : Session) :
    Ensures (fun result => s.graph.GrowsTo result.2.graph) ((l.load resource dir).run.run s) := by
  have hload : Appends (l.load resource dir) := by
    rw [load]
    refine appends_get.bind fun s => ?_
    exact l.appends_loadWithin (l.maxDepth - s.inProgress.length) resource dir
  exact hload s

/-- A document that adds a service of its own and one of an import before it meets an id that is
taken. -/
def halfwayFiles : MemoryFiles := .ofJson
  [("/app.json", .object
      [("imports", .array [MemoryFiles.importing "base.json"]),
        ("parameters", .object [("host", .string "app")]),
        ("services", .object
          [("mailer", .object [("class", .string "Mailer")]), ("db", .string "@mailer")])]),
    ("/base.json", .object [("services", .object [("cache", .object [])])])]

/-- The loader of these files. -/
def halfway : Loader Id := { locator := halfwayFiles.locator }

/-- A session in which the id was taken by a definition, and the parameter was set. -/
def halfwaySession : Session where
  graph := (({} : Graph).setDefinition "db" {}).setParameter "host" (.string "old")

theorem load_only_appends_halfway : ∃ s,
    runOn (halfway.load "app.json" none) halfwaySession =
      (.error (.duplicateId "db" "/app.json"), s) ∧
    s.graph.definitions.keys = ["db", "cache", "mailer"] ∧ s.graph.aliases.keys = [] ∧
    halfwaySession.graph.GrowsTo s.graph := by
  have hgrows := halfway.load_only_appends "app.json" none halfwaySession
  rw [Ensures.id_iff, ← runOn] at hgrows
  rcases hrun : runOn (halfway.load "app.json" none) halfwaySession with ⟨outcome, s⟩
  have hfacts : (runOn (halfway.load "app.json" none) halfwaySession).1 =
        .error (.duplicateId "db" "/app.json") ∧
      (runOn (halfway.load "app.json" none) halfwaySession).2.graph.definitions.keys =
        ["db", "cache", "mailer"] ∧
      (runOn (halfway.load "app.json" none) halfwaySession).2.graph.aliases.keys = [] := by
    decide +kernel
  rw [hrun] at hgrows hfacts
  obtain ⟨rfl, hdefinitions, haliases⟩ := hfacts
  exact ⟨s, rfl, hdefinitions, haliases, hgrows⟩

end Loader

end ServiceGraph
