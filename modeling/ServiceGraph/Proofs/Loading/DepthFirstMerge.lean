import ServiceGraph.Proofs.DepthFirst
import ServiceGraph.Proofs.Loading.Bookkeeping
import ServiceGraph.Proofs.Loading.Files

/-!
# Loading is a depth-first merge

`Loader.Imports` is the import relation of the documents that a loader can read. When no import may
fail, a run that succeeds walks this relation depth first: it records the documents in the order in
which the walk enters them, and merges each of them once, in the order in which the walk leaves
them (`Runs.exists_walk`, by induction on the run). Since a document is marked as loaded after
everything it imports, there is no cycle among the documents that were loaded.

`Loader.loadAll_merges_depthFirst` states this for a whole sequence of entry documents.
-/

set_option autoImplicit false

namespace ServiceGraph

open Loading (runOn)

/-! ## The import relation -/

namespace Loader

variable (l : Loader Id)

/-- The paths that entries of the imports of a file lead to, in their order. -/
def Targets (file : String) (items : List Json) (dir : Option Path) (paths : List Path) : Prop :=
  List.Forall₂ (fun item path => ∃ entry, Import.read file item = .ok entry ∧
    l.pathOf entry.resource dir = .ok path) items paths

/-- The paths that the document at a path imports, in their order; an empty document imports
nothing. -/
inductive Imports (path : Path) : List Path → Prop
  | empty (hempty : l.documentAt path = .ok none) : Imports path []
  | document {d : Document} {paths : List Path} (hdocument : l.documentAt path = .ok (some d))
      (htargets : l.Targets d.file d.imports path.parent? paths) : Imports path paths

/-- The documents at paths, without the empty ones. -/
def documentsOf (paths : List Path) : List Document :=
  paths.filterMap fun path =>
    match l.documentAt path with
    | .ok result => result
    | .error _ => none

variable {l}

theorem targets_unique {file : String} {items : List Json} {dir : Option Path}
    {paths paths' : List Path} (h : l.Targets file items dir paths)
    (h' : l.Targets file items dir paths') : paths = paths' := by
  refine List.right_unique_forall₂' ?_ h h'
  rintro item path path' ⟨entry, hentry, hpath⟩ ⟨entry', hentry', hpath'⟩
  obtain rfl := Except.ok.inj (hentry.symm.trans hentry')
  exact Except.ok.inj (hpath.symm.trans hpath')

/-- The import relation lists the successors of a document in one way. -/
theorem imports_unique (path : Path) (paths paths' : List Path) (h : l.Imports path paths)
    (h' : l.Imports path paths') : paths = paths' := by
  cases h with
  | empty hempty =>
      cases h' with
      | empty _ => rfl
      | document hdocument _ => exact absurd hempty (document_ne_empty hdocument)
  | document hdocument htargets =>
      cases h' with
      | empty hempty => exact absurd hempty (document_ne_empty hdocument)
      | document hdocument' htargets' =>
          obtain rfl := document_unique hdocument hdocument'
          exact targets_unique htargets htargets'

theorem documentsOf_append (paths paths' : List Path) :
    l.documentsOf (paths ++ paths') = l.documentsOf paths ++ l.documentsOf paths' :=
  List.filterMap_append

theorem documentsOf_singleton_of_some {path : Path} {d : Document}
    (h : l.documentAt path = .ok (some d)) : l.documentsOf [path] = [d] := by
  simp only [documentsOf, List.filterMap_cons, List.filterMap_nil, h]

theorem documentsOf_singleton_of_none {path : Path} (h : l.documentAt path = .ok none) :
    l.documentsOf [path] = [] := by
  simp only [documentsOf, List.filterMap_cons, List.filterMap_nil, h]

end Loader

/-! ## Merging documents -/

/-- What documents add one after the other, and the paths that are recorded. -/
def Additions.ofDocuments (documents : List Document) (resources : List Path) : Additions where
  entries := documents.flatMap fun d => d.additions.entries
  parameters := documents.flatMap fun d => d.additions.parameters
  blocks := documents.flatMap fun d => d.additions.blocks
  resources := resources

theorem Additions.ofDocuments_append (documents documents' : List Document)
    (resources resources' : List Path) :
    ofDocuments (documents ++ documents') (resources ++ resources') =
      ofDocuments documents resources ++ ofDocuments documents' resources' := by
  simp only [ofDocuments, append_def, List.flatMap_append]

theorem Document.additions_eq (d : Document) : d.additions = Additions.ofDocuments [d] [] := by
  simp only [Additions.ofDocuments, List.flatMap_cons, List.flatMap_nil, List.append_nil]
  rfl

/-! ## Runs without an ignored failure -/

/-- The paths are those of the documents that a session has loaded or has in progress. -/
def Session.Knows (s : Session) (paths : List Path) : Prop :=
  ∀ path, path ∈ paths ↔ path ∈ s.loaded ∨ path ∈ s.inProgress

namespace LoadTask

/-- The paths that a task starts from. -/
def Starts (l : Loader Id) : LoadTask → List Path → Prop
  | .resource name dir, paths => ∃ path, l.pathOf name dir = .ok path ∧ paths = [path]
  | .document d path, paths => l.Targets d.file d.imports path.parent? paths
  | .imports file items dir, paths => l.Targets file items dir paths

/-- The documents that a task merges after everything it walks. -/
def own : LoadTask → List Document
  | .document d _ => [d]
  | _ => []

theorem own_resource (name : String) (dir : Option Path) : own (.resource name dir) = [] := rfl

theorem own_imports (file : String) (items : List Json) (dir : Option Path) :
    own (.imports file items dir) = [] := rfl

/-- A task that comes up when no import may fail. -/
def Mandatory (l : Loader Id) : LoadTask → Prop
  | .resource _ _ => True
  | .document d path => l.documentAt path = .ok (some d)
  | .imports file items _ =>
      ∀ item ∈ items, ∀ entry, Import.read file item = .ok entry → entry.ignoreErrors = false

/-- The walk of a successful run from `s` to `s'`, the documents of `seen` seen before: it enters
the documents of `pre` and leaves those of `post`. -/
structure Walk (l : Loader Id) (task : LoadTask) (seen : List Path) (s s' : Session)
    (roots pre post : List Path) : Prop where
  starts : task.Starts l roots
  walk : DepthFirst l.Imports seen roots pre post
  reached : ∀ path ∈ roots, path ∈ s'.loaded
  loaded : s'.loaded = post.reverse ++ s.loaded
  layered : Layered l.Imports s.loaded → Layered l.Imports s'.loaded
  adds : s.graph.Adds (Additions.ofDocuments (l.documentsOf post ++ task.own) pre) s'.graph
  produce : ∀ d ∈ l.documentsOf post ++ task.own, ProduceEntries d.file d.services

namespace Walk

variable {l : Loader Id} {seen : List Path} {s : Session}

theorem known {resource : String} {dir : Option Path} {path : Path} (hseen : s.Knows seen)
    (hadmits : l.Admits resource dir s path) (hloaded : path ∈ s.loaded) :
    Walk l (.resource resource dir) seen s s [path] [] [] where
  starts := ⟨path, hadmits.found, rfl⟩
  walk := .skip ((hseen path).2 (Or.inl hloaded)) .nil
  reached := by
    intro p hp
    rwa [List.mem_singleton.1 hp]
  loaded := rfl
  layered := id
  adds := Graph.Adds.refl s.graph
  produce := fun _ h => absurd h List.not_mem_nil

/-- A path that a load may open was not seen. -/
theorem not_mem_seen {resource : String} {dir : Option Path} {path : Path} (hseen : s.Knows seen)
    (hadmits : l.Admits resource dir s path) (hnew : path ∉ s.loaded) : path ∉ seen := by
  rw [hseen path]
  rintro (h | h)
  · exact hnew h
  · exact hadmits.fresh h

theorem empty {resource : String} {dir : Option Path} {path : Path} (hseen : s.Knows seen)
    (hadmits : l.Admits resource dir s path) (hnew : path ∉ s.loaded)
    (hempty : l.documentAt path = .ok none) :
    Walk l (.resource resource dir) seen s ((s.record path).markLoaded path) [path] [path]
      [path] := by
  have hmark : ((s.record path).markLoaded path).loaded = path :: s.loaded := if_neg hnew
  refine ⟨⟨path, hadmits.found, rfl⟩, ?_, ?_, hmark, ?_, ?_, ?_⟩
  · exact DepthFirst.visit (not_mem_seen hseen hadmits hnew) (.empty hempty) .nil .nil
  · intro p hp
    rw [List.mem_singleton.1 hp, hmark]
    exact List.mem_cons_self
  · intro hlayered
    rw [hmark]
    refine ⟨hnew, ?_, hlayered⟩
    rintro y ⟨ys, hys, hy⟩
    rw [Loader.imports_unique path ys [] hys (.empty hempty)] at hy
    exact absurd hy List.not_mem_nil
  · rw [Loader.documentsOf_singleton_of_none hempty]
    exact s.graph.adds_addResource path
  · rw [Loader.documentsOf_singleton_of_none hempty]
    exact fun _ h => absurd h List.not_mem_nil

/-- A document is entered before the walk of its imports and left after it. -/
theorem opened {resource : String} {dir : Option Path} {path : Path} {d : Document}
    {s' : Session} {roots pre post : List Path} (hseen : s.Knows seen)
    (hadmits : l.Admits resource dir s path) (hnew : path ∉ s.loaded)
    (hdocument : l.documentAt path = .ok (some d)) (hnew' : path ∉ s'.loaded)
    (h : Walk l (.document d path) (seen ++ [path]) ((s.record path).enter path) s' roots pre
      post) :
    Walk l (.resource resource dir) seen s (s'.leave path) [path] (path :: pre)
      (post ++ [path]) := by
  have hleave : (s'.leave path).loaded = path :: s'.loaded := if_neg hnew'
  have himports : l.Imports path roots := .document hdocument h.starts
  have hdocuments : l.documentsOf (post ++ [path]) = l.documentsOf post ++ [d] := by
    rw [Loader.documentsOf_append, Loader.documentsOf_singleton_of_some hdocument]
  refine ⟨⟨path, hadmits.found, rfl⟩, ?_, ?_, ?_, ?_, ?_, ?_⟩
  · have hvisit := DepthFirst.visit (not_mem_seen hseen hadmits hnew) himports h.walk .nil
    rwa [List.append_nil] at hvisit
  · intro p hp
    rw [List.mem_singleton.1 hp, hleave]
    exact List.mem_cons_self
  · rw [hleave, h.loaded, List.reverse_append]
    rfl
  · -- everything the document imports was loaded before it
    intro hlayered
    rw [hleave]
    refine ⟨hnew', ?_, h.layered hlayered⟩
    rintro y ⟨ys, hys, hy⟩
    rw [Loader.imports_unique path ys roots hys himports] at hy
    exact h.reached y hy
  · have hadds := (s.graph.adds_addResource path).trans h.adds
    rw [hdocuments, own_resource, List.append_nil]
    exact hadds
  · rw [hdocuments, own_resource, List.append_nil]
    exact h.produce

/-- The parts of a document are merged after its imports. -/
theorem merged {d : Document} {path : Path} {s' : Session} {g : Graph}
    {roots pre post : List Path} (hown : Loader.mergeOwn d s'.graph = (.ok (), g))
    (h : Walk l (.imports d.file d.imports path.parent?) seen s s' roots pre post) :
    Walk l (.document d path) seen s { s' with graph := g } roots pre post := by
  obtain ⟨hadds, hproduce⟩ := Loader.adds_mergeOwn_of_ok hown
  have hfirst := h.adds
  have hrest := h.produce
  rw [own_imports, List.append_nil] at hfirst hrest
  refine ⟨h.starts, h.walk, h.reached, h.loaded, h.layered, ?_, ?_⟩
  · rw [d.additions_eq] at hadds
    have hboth := hfirst.trans hadds
    rw [← Additions.ofDocuments_append, List.append_nil] at hboth
    exact hboth
  · intro d' hd'
    rcases List.mem_append.1 hd' with hd' | hd'
    · exact hrest d' hd'
    · rw [List.mem_singleton.1 hd']
      exact hproduce

theorem done (file : String) (dir : Option Path) : Walk l (.imports file [] dir) seen s s [] [] []
    where
  starts := .nil
  walk := .nil
  reached := fun _ h => absurd h List.not_mem_nil
  loaded := rfl
  layered := id
  adds := Graph.Adds.refl s.graph
  produce := fun _ h => absurd h List.not_mem_nil

/-- The walk of the further imports goes on where the walk of the first one ended. -/
theorem imported {file : String} {item : Json} {rest : List Json} {dir : Option Path}
    {entry : Import} {s₁ s' : Session} {roots₁ roots₂ pre₁ pre₂ post₁ post₂ : List Path}
    (hentry : Import.read file item = .ok entry) (hkeep : ∀ path ∈ s₁.loaded, path ∈ s'.loaded)
    (h₁ : Walk l (.resource entry.resource dir) seen s s₁ roots₁ pre₁ post₁)
    (h₂ : Walk l (.imports file rest dir) (seen ++ pre₁) s₁ s' roots₂ pre₂ post₂) :
    Walk l (.imports file (item :: rest) dir) seen s s' (roots₁ ++ roots₂) (pre₁ ++ pre₂)
      (post₁ ++ post₂) := by
  obtain ⟨path, hpath, hroots⟩ := h₁.starts
  have hadds := h₁.adds.trans h₂.adds
  rw [← Additions.ofDocuments_append] at hadds
  refine ⟨?_, h₁.walk.append h₂.walk, ?_, ?_, h₂.layered ∘ h₁.layered, ?_, ?_⟩
  · rw [hroots]
    exact .cons ⟨entry, hentry, hpath⟩ h₂.starts
  · intro p hp
    rcases List.mem_append.1 hp with hp | hp
    · exact hkeep p (h₁.reached p hp)
    · exact h₂.reached p hp
  · rw [h₂.loaded, h₁.loaded, List.reverse_append, List.append_assoc]
  · rw [own_resource, own_imports, List.append_nil, List.append_nil] at hadds
    rw [own_imports, List.append_nil, Loader.documentsOf_append]
    exact hadds
  · rw [own_imports, List.append_nil, Loader.documentsOf_append]
    intro d hd
    rcases List.mem_append.1 hd with hd | hd
    · exact h₁.produce d (List.mem_append_left _ hd)
    · exact h₂.produce d (List.mem_append_left _ hd)

end Walk

end LoadTask

namespace Runs

variable {l : Loader Id}

/-- A run that succeeds is a walk when no import may fail. The paths in progress count as seen: a
run that meets one of them does not succeed. -/
theorem exists_walk (hall : l.AllMandatory) {task : LoadTask} {s s' : Session}
    {outcome : Except Failure Unit} {calls : List LoadCall} (h : Runs l task s outcome s' calls)
    (hok : outcome = .ok ()) (htask : task.Mandatory l) {seen : List Path} (hseen : s.Knows seen) :
    ∃ roots pre post, task.Walk l seen s s' roots pre post := by
  induction h generalizing seen with
  | known hadmits hloaded => exact ⟨_, _, _, .known hseen hadmits hloaded⟩
  | empty hadmits hnew hempty => exact ⟨_, _, _, .empty hseen hadmits hnew hempty⟩
  | @opened _ _ s path _ _ _ _ hadmits hnew hdocument hrun ih =>
      -- the document itself is seen by the walk of its imports
      have hseen' : ((s.record path).enter path).Knows (seen ++ [path]) := by
        intro p
        rw [List.mem_append, hseen p, List.mem_singleton]
        show _ ↔ p ∈ s.loaded ∨ p ∈ path :: s.inProgress
        rw [List.mem_cons]
        tauto
      obtain ⟨roots, pre, post, hwalk⟩ := ih hok hdocument hseen'
      have hnew' := hrun.not_mem_loaded (x := path) List.mem_cons_self hnew
      exact ⟨_, _, _, .opened hseen hadmits hnew hdocument hnew' hwalk⟩
  | merged _ _ hown ih =>
      subst hok
      obtain ⟨roots, pre, post, hwalk⟩ := ih rfl (hall _ _ htask) hseen
      exact ⟨_, _, _, .merged hown hwalk⟩
  | done => exact ⟨_, _, _, .done _ _⟩
  | @imported _ _ _ _ s _ s₁ _ _ s' _ hentry hload hrest ih₁ ih₂ =>
      obtain ⟨roots₁, pre₁, post₁, h₁⟩ := ih₁ rfl trivial hseen
      -- the documents that the first import left are those that it entered
      have hseen₁ : s₁.Knows (seen ++ pre₁) := by
        intro p
        rw [List.mem_append, hseen p, h₁.loaded, hload.inProgress_eq, List.mem_append,
          List.mem_reverse, h₁.walk.perm.mem_iff]
        tauto
      obtain ⟨roots₂, pre₂, post₂, h₂⟩ :=
        ih₂ hok (fun item hitem => htask item (List.mem_cons_of_mem _ hitem)) hseen₁
      exact ⟨_, _, _, .imported hentry (fun _ => hrest.mem_loaded) h₁ h₂⟩
  | ignored hentry _ hignore =>
      -- no import may fail
      have hmandatory := htask _ List.mem_cons_self _ hentry
      rw [hignore] at hmandatory
      exact nomatch hmandatory
  | _ => exact nomatch hok

end Runs

/-! ## Loading a sequence of entry documents -/

/-- A graph is what merging documents one after the other makes of the empty graph. -/
structure Graph.Merges (g : Graph) (documents : List Document) : Prop where
  /-- Every service is read. -/
  produce : ∀ d ∈ documents, ProduceEntries d.file d.services
  definitions : g.definitions.entries =
    documents.flatMap fun d => definitionsOf (entriesOf d.file d.services)
  aliases : g.aliases.entries = documents.flatMap fun d => aliasesOf (entriesOf d.file d.services)
  /-- A parameter stands where it was first written. -/
  parameter_names : g.parameters.keys =
    ((documents.flatMap Document.parameters).map Prod.fst).eraseDups
  /-- A parameter has the value that was last written. -/
  parameter_value (name : String) : g.parameters.get? name =
    OrderedMap.valueAt name
      ((documents.flatMap Document.parameters).map fun p => (p.1, Value.ofJson p.2)).reverse
  namespaces : g.blocks.keys = ((documents.flatMap Document.extensions).map Prod.fst).eraseDups
  /-- The sections of an extension are queued in order. -/
  blocks (name : String) : g.blocksOf name =
    ((documents.flatMap Document.extensions).filter (·.1 = name)).map fun b =>
      Document.block b.2

/-- A graph is the depth-first merge of entry documents. -/
structure Loader.DepthFirstMerge (l : Loader Id) (entries : List String) (g : Graph)
    (roots pre post : List Path) : Prop where
  roots_found : List.Forall₂ (fun entry root => l.pathOf entry none = .ok root) entries roots
  walk : DepthFirst l.Imports [] roots pre post
  only_walk (pre' post' : List Path) :
    DepthFirst l.Imports [] roots pre' post' → pre' = pre ∧ post' = post
  resources : g.resources = pre
  nodup : pre.Nodup
  acyclic : ∀ path ∈ pre, ¬ Relation.TransGen (Successor l.Imports) path path
  /-- Read backwards, the imports of a document stand behind it. -/
  imports_first : Layered l.Imports post.reverse
  /-- The graph is merged from the documents in the order in which the walk leaves them. -/
  merges : g.Merges (l.documentsOf post)

theorem Graph.Adds.merges {documents : List Document} {resources : List Path} {g : Graph}
    (h : Graph.Adds {} (Additions.ofDocuments documents resources) g)
    (hproduce : ∀ d ∈ documents, ProduceEntries d.file d.services) : g.Merges documents where
  produce := hproduce
  definitions := by
    rw [h.definitions, Additions.ofDocuments, definitionsOf, List.filterMap_flatMap]
    rfl
  aliases := by
    rw [h.aliases, Additions.ofDocuments, aliasesOf, List.filterMap_flatMap]
    rfl
  parameter_names := by
    have hnames : (Additions.ofDocuments documents resources).parameters.map Prod.fst =
        (documents.flatMap Document.parameters).map Prod.fst := by
      simp only [Additions.ofDocuments, Document.additions, List.map_flatMap, List.map_map]
      rfl
    rw [← hnames, ← OrderedMap.keys_ofList, h.parameters]
    rfl
  parameter_value := by
    intro name
    have hvalues : (Additions.ofDocuments documents resources).parameters =
        (documents.flatMap Document.parameters).map fun p => (p.1, Value.ofJson p.2) := by
      simp only [Additions.ofDocuments, Document.additions, List.map_flatMap]
    rw [← hvalues, ← OrderedMap.get?_ofList, h.parameters]
    rfl
  namespaces := by
    have hnames : (Additions.ofDocuments documents resources).blocks.map Prod.fst =
        (documents.flatMap Document.extensions).map Prod.fst := by
      simp only [Additions.ofDocuments, Document.additions, List.map_flatMap, List.map_map]
      rfl
    have hkeys := OrderedMap.keys_foldl_insert Prod.fst
      (fun (m : OrderedMap String (List Block)) b => (m.get? b.1).getD [] ++ [b.2])
      (Additions.ofDocuments documents resources).blocks ∅
    rw [← hnames, h.blocks]
    refine hkeys.trans ?_
    have hnone : ((∅ : OrderedMap String (List Block)).keys) = [] := rfl
    simp [hnone]
  blocks := by
    intro name
    have hblocks : (Additions.ofDocuments documents resources).blocks =
        (documents.flatMap Document.extensions).map fun b => (b.1, Document.block b.2) := by
      simp only [Additions.ofDocuments, Document.additions, List.map_flatMap]
    rw [h.blocksOf_eq name, hblocks, List.filter_map, List.map_map]
    rfl

namespace Loader

variable {l : Loader Id}

/-- The walks of the entry documents make one walk. -/
theorem exists_walk_loadAll (hall : l.AllMandatory) {entries : List String} {s s' : Session}
    (h : runOn (l.loadAll entries) s = (.ok (), s')) {seen : List Path} (hseen : s.Knows seen) :
    ∃ roots pre post,
      List.Forall₂ (fun entry root => l.pathOf entry none = .ok root) entries roots ∧
      DepthFirst l.Imports seen roots pre post ∧
      (Layered l.Imports s.loaded → Layered l.Imports s'.loaded) ∧
      s'.loaded = post.reverse ++ s.loaded ∧
      s.graph.Adds (Additions.ofDocuments (l.documentsOf post) pre) s'.graph ∧
      ∀ d ∈ l.documentsOf post, ProduceEntries d.file d.services := by
  induction entries generalizing s seen with
  | nil =>
      obtain rfl : s = s' := congrArg Prod.snd h
      exact ⟨[], [], [], .nil, .nil, id, rfl, Graph.Adds.refl _,
        fun _ h => absurd h List.not_mem_nil⟩
  | cons entry rest ih =>
      rw [runOn_loadAll_cons] at h
      rcases hload : runOn (l.load entry none) s with ⟨outcome, s₁⟩
      rw [hload] at h
      cases outcome with
      | error e => exact nomatch congrArg Prod.fst h
      | ok _ =>
          obtain ⟨calls, hrun⟩ := runOn_load_eq_iff.1 hload
          obtain ⟨roots₁, pre₁, post₁, h₁⟩ := hrun.exists_walk hall rfl trivial hseen
          obtain ⟨root, hroot, rfl⟩ := h₁.starts
          have hadds₁ := h₁.adds
          have hproduce₁ := h₁.produce
          rw [LoadTask.own_resource, List.append_nil] at hadds₁ hproduce₁
          -- what the first entry walked is seen by the walk from the others
          have hseen₁ : s₁.Knows (seen ++ pre₁) := by
            intro p
            rw [List.mem_append, hseen p, h₁.loaded, hrun.inProgress_eq, List.mem_append,
              List.mem_reverse, h₁.walk.perm.mem_iff]
            tauto
          obtain ⟨roots₂, pre₂, post₂, hroots, hwalk, hlayered, hloaded, hadds, hproduce⟩ :=
            ih h hseen₁
          refine ⟨root :: roots₂, pre₁ ++ pre₂, post₁ ++ post₂, .cons hroot hroots,
            h₁.walk.append hwalk, hlayered ∘ h₁.layered, ?_, ?_, ?_⟩
          · rw [hloaded, h₁.loaded, List.reverse_append, List.append_assoc]
          · rw [documentsOf_append, Additions.ofDocuments_append]
            exact hadds₁.trans hadds
          · intro d hd
            rw [documentsOf_append] at hd
            rcases List.mem_append.1 hd with hd | hd
            · exact hproduce₁ d hd
            · exact hproduce d hd

/-- Loading entry documents into a fresh session is a depth-first merge, whatever files the locator
serves, when no import may fail and the loads succeed. -/
theorem loadAll_merges_depthFirst (hall : l.AllMandatory) {entries : List String} {s : Session}
    (h : runOn (l.loadAll entries) {} = (.ok (), s)) :
    ∃ roots pre post, l.DepthFirstMerge entries s.graph roots pre post := by
  have hseen : ({} : Session).Knows [] := by
    intro p
    simp
  obtain ⟨roots, pre, post, hroots, hwalk, hlayered, hloaded, hadds, hproduce⟩ :=
    exists_walk_loadAll hall h hseen
  have hpost : s.loaded = post.reverse := hloaded.trans (List.append_nil _)
  have hfirst : Layered l.Imports post.reverse := hpost ▸ hlayered trivial
  refine ⟨roots, pre, post, hroots, hwalk, ?_, hadds.resources, hwalk.nodup, ?_, hfirst,
    hadds.merges hproduce⟩
  · intro pre' post' hwalk'
    exact hwalk'.unique imports_unique hwalk
  · intro path hpath
    exact hfirst.acyclic (List.mem_reverse.2 (hwalk.perm.mem_iff.2 hpath))

/-- Two documents that import a third one, which they write in two ways. -/
def diamondFiles : MemoryFiles := .ofJson
  [("/app.json", .object
      [("imports", .array
        [MemoryFiles.importing "a.json", MemoryFiles.importing "./sub/b.json"]),
        ("services", .object [("db", .string "@base")])]),
    ("/a.json", .object
      [("imports", .array [MemoryFiles.importing "base.json"]),
        ("parameters", .object [("host", .string "a")])]),
    ("/sub/b.json", .object
      [("imports", .array [MemoryFiles.importing "../base.json"]), ("log", .bool true)]),
    ("/base.json", .object
      [("parameters", .object [("host", .string "base")]),
        ("services", .object [("base", .object [("class", .string "Base")])])])]

/-- The loader of these files. -/
def diamond : Loader Id where
  locator := diamondFiles.locator
  extensions := ⟨(∅ : OrderedMap String Extension).insert "log" (.parameters "log")⟩
  maxDepth := 3

theorem loadAll_merges_depthFirst_diamond :
    diamond.AllMandatory ∧ ∃ s, runOn (diamond.loadAll ["app.json", "base.json"]) {} = (.ok (), s) ∧
      s.graph.resources = [⟨"/app.json"⟩, ⟨"/a.json"⟩, ⟨"/base.json"⟩, ⟨"/sub/b.json"⟩] ∧
      ∃ roots pre post,
        diamond.DepthFirstMerge ["app.json", "base.json"] s.graph roots pre post := by
  have hall : diamond.AllMandatory :=
    MemoryFiles.allMandatory (f := diamondFiles) rfl (by decide +kernel)
  rcases hrun : runOn (diamond.loadAll ["app.json", "base.json"]) {} with ⟨outcome, s⟩
  have hfacts : (runOn (diamond.loadAll ["app.json", "base.json"]) {}).1 = .ok () ∧
      (runOn (diamond.loadAll ["app.json", "base.json"]) {}).2.graph.resources =
        [⟨"/app.json"⟩, ⟨"/a.json"⟩, ⟨"/base.json"⟩, ⟨"/sub/b.json"⟩] := by
    decide +kernel
  rw [hrun] at hfacts
  obtain ⟨rfl, hresources⟩ := hfacts
  exact ⟨hall, s, rfl, hresources, loadAll_merges_depthFirst hall hrun⟩

end Loader

end ServiceGraph
