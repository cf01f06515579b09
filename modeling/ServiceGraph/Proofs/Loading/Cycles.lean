import ServiceGraph.Proofs.FailureKinds
import ServiceGraph.Proofs.JsonEquality
import ServiceGraph.Proofs.Loading.Loadable

/-!
# Import cycles

The documents in progress form a trail: each imports the one that was opened after it, and the first
is the document that the load was asked for. A load that fails for a cycle reports such a trail
together with the import that runs back into it, so the chain in its failure is a real cycle of
imports with the way to it (`Runs.closesTrail`).

The other way round no cycle is overlooked. A document that is skipped was loaded completely, with
everything it imports, and so are the documents of a load that succeeds: none of them leads back to
itself (`Runs.not_leadsToCycle`). Where nothing else is wrong with the documents, a load therefore
fails for a cycle exactly when there is one among the documents that it reaches
(`MemoryFiles.importCycle_exact`).
-/

set_option autoImplicit false

namespace ServiceGraph

open Loading (runOn)
open Relation (TransGen ReflTransGen)

/-! ## The chain of a failure -/

namespace Loader

variable {l : Loader Id} {root path : Path} {stack : List Path}

/-- Documents, innermost first, each imported by the one that follows, down to the document at
`root`. -/
structure Trail (l : Loader Id) (root : Path) (stack : List Path) : Prop where
  needs : stack.IsChain fun target path => l.Needs path target
  last : stack.getLast? = some root

/-- A chain of documents that starts at `root`, each importing the next one, the last of which
stands in it before. -/
structure ClosedChain (l : Loader Id) (root : Path) (chain : List Path) : Prop where
  head : chain.head? = some root
  needs : chain.IsChain l.Needs
  closed : ∃ walk last, chain = walk ++ [last] ∧ last ∈ walk

theorem trail_singleton (l : Loader Id) (path : Path) : l.Trail path [path] where
  needs := List.isChain_singleton path
  last := rfl

theorem Trail.step {target : Path} (h : l.Trail root (path :: stack))
    (hneeds : l.Needs path target) : l.Trail root (target :: path :: stack) where
  needs := List.isChain_cons_cons.2 ⟨hneeds, h.needs⟩
  last := List.getLast?_cons_cons.trans h.last

/-- A trail whose innermost document was in progress before, written outermost first. -/
theorem Trail.closedChain (h : l.Trail root (path :: stack)) (hpath : path ∈ stack) :
    l.ClosedChain root (path :: stack).reverse where
  head := List.head?_reverse.trans h.last
  needs := List.isChain_reverse.2 h.needs
  closed := ⟨stack.reverse, path, List.reverse_cons, List.mem_reverse.2 hpath⟩

end Loader

namespace LoadTask

/-- A task that comes up when the documents in progress are a trail from `root`: what it opens makes
the trail longer. -/
def OnTrail (l : Loader Id) (root : Path) (stack : List Path) : LoadTask → Prop
  | .resource name dir => ∀ path, l.pathOf name dir = .ok path → l.Trail root (path :: stack)
  | .document d path =>
      l.documentAt path = .ok (some d) ∧ ∃ below, stack = path :: below ∧ l.Trail root stack
  | .imports file items dir => ∀ item ∈ items, ∀ entry, Import.read file item = .ok entry →
      ∀ path, l.pathOf entry.resource dir = .ok path → l.Trail root (path :: stack)

variable {l : Loader Id} {root path : Path} {stack : List Path}

theorem onTrail_imports {d : Document} (h : OnTrail l root stack (.document d path)) :
    OnTrail l root stack (.imports d.file d.imports path.parent?) := by
  obtain ⟨hdocument, below, rfl, htrail⟩ := h
  intro item hitem entry hentry target htarget
  exact htrail.step (.intro hdocument hitem hentry htarget)

theorem onTrail_rest {file : String} {item : Json} {rest : List Json} {dir : Option Path}
    (h : OnTrail l root stack (.imports file (item :: rest) dir)) :
    OnTrail l root stack (.imports file rest dir) :=
  fun item' hitem => h item' (List.mem_cons_of_mem _ hitem)

end LoadTask

/-- A run that fails for a cycle reports the trail that it was on. -/
theorem Runs.closesTrail {l : Loader Id} (hmisses : l.OnlyMisses) {root : Path} {task : LoadTask}
    {s s' : Session} {outcome : Except Failure Unit} {calls : List LoadCall}
    (h : Runs l task s outcome s' calls) (htask : task.OnTrail l root s.inProgress)
    {chain : List Path} (hcycle : outcome = .error (.importCycle chain)) :
    l.ClosedChain root chain := by
  induction h with
  | cycle hpath hmem =>
      -- the path that was met again is the head of the trail
      obtain rfl : _ = chain := Failure.importCycle.inj (Except.error.inj hcycle)
      exact (htask _ hpath).closedChain hmem
  | @opened _ _ s path d _ _ _ hadmits _ hdocument _ ih =>
      exact ih ⟨hdocument, s.inProgress, rfl, htask path hadmits.found⟩ hcycle
  | stopped _ _ ih => exact ih (LoadTask.onTrail_imports htask) hcycle
  -- imports before the failing one leave the documents in progress as they were
  | imported _ hload _ _ ih₂ =>
      refine ih₂ ?_ hcycle
      rw [hload.inProgress_eq]
      exact LoadTask.onTrail_rest htask
  | ignored _ hload _ _ _ _ ih₂ =>
      refine ih₂ ?_ hcycle
      rw [hload.inProgress_eq]
      exact LoadTask.onTrail_rest htask
  | failed hentry _ _ ih => exact ih (htask _ List.mem_cons_self _ hentry) hcycle
  -- nothing else that can go wrong is a cycle
  | notFound hpath =>
      obtain rfl := Except.error.inj hcycle
      exact absurd hpath ((hmisses.pathOf _ _).ne_importCycle (by decide))
  | unreadable _ _ htext =>
      obtain rfl := Except.error.inj hcycle
      exact absurd htext ((hmisses.textOf _).ne_importCycle (by decide))
  | malformed _ _ _ hparse =>
      obtain rfl := Except.error.inj hcycle
      exact absurd hparse ((Document.failsAs_parse _ _).ne_importCycle (by decide))
  | refused haccept =>
      obtain rfl := Except.error.inj hcycle
      exact absurd haccept ((l.failsAs_accept _).ne_importCycle (by decide))
  | @merged d _ _ s₁ _ _ _ _ _ hown =>
      have hfirst : (Loader.mergeOwn d s₁.graph).1 = .error (.importCycle chain) := by
        rw [hown]
        exact hcycle
      exact absurd hfirst ((Loader.failsAs_mergeOwn d _).ne_importCycle (by decide))
  | badImport hentry =>
      obtain rfl := Except.error.inj hcycle
      exact absurd hentry ((Import.failsAs_read _ _).ne_importCycle (by decide))
  | tooDeep => exact nomatch Except.error.inj hcycle
  | _ => exact nomatch hcycle

/-- The chain that a load into a session without documents in progress reports. -/
theorem Runs.exists_closedChain {l : Loader Id} (hmisses : l.OnlyMisses) {entry : String}
    {dir : Option Path} {s s' : Session} {chain : List Path} {calls : List LoadCall}
    (h : Runs l (.resource entry dir) s (.error (.importCycle chain)) s' calls)
    (hinProgress : s.inProgress = []) :
    ∃ root, l.pathOf entry dir = .ok root ∧ l.ClosedChain root chain := by
  cases hroot : l.pathOf entry dir with
  | error e =>
      -- a resource that is not found is no cycle
      have hfailed := h.runOn_eq
      rw [LoadTask.step, Loader.runOn_load, hroot] at hfailed
      obtain rfl := Except.error.inj (congrArg Prod.fst hfailed)
      exact absurd hroot ((hmisses.pathOf _ _).ne_importCycle (by decide))
  | ok root =>
      refine ⟨root, rfl, h.closesTrail hmisses (fun path hpath => ?_) rfl⟩
      obtain rfl := Except.ok.inj (hroot.symm.trans hpath)
      rw [hinProgress]
      exact l.trail_singleton root

/-! ## No cycle is overlooked -/

namespace Loader

/-- Some document that a path leads to leads back to itself. -/
def LeadsToCycle (l : Loader Id) (root : Path) : Prop :=
  ∃ path, ReflTransGen l.Needs root path ∧ TransGen l.Needs path path

end Loader

/-- A load into a session without documents has met no cycle when it succeeds and no import may
fail. -/
theorem Runs.not_leadsToCycle {l : Loader Id} (hall : l.AllMandatory) {entry : String}
    {dir : Option Path} {root : Path} (hroot : l.pathOf entry dir = .ok root) {s s' : Session}
    {calls : List LoadCall} (h : Runs l (.resource entry dir) s (.ok ()) s' calls)
    (hloaded : s.loaded = []) (hinProgress : s.inProgress = []) : ¬ l.LeadsToCycle root := by
  have hseen : s.Knows [] := by
    intro p
    rw [hloaded, hinProgress, or_self]
  -- the load was a walk from the root that left every document after what it imports
  obtain ⟨roots, pre, post, hwalk⟩ := h.exists_walk hall rfl trivial hseen
  obtain ⟨root', hroot', rfl⟩ := hwalk.starts
  obtain rfl := Except.ok.inj (hroot.symm.trans hroot')
  have hlayered : Layered l.Imports s'.loaded := hwalk.layered (hloaded ▸ trivial)
  have hnext : ∀ path ∈ s'.loaded, ∃ paths, l.Imports path paths := by
    intro path hpath
    rw [hwalk.loaded, hloaded, List.append_nil, List.mem_reverse] at hpath
    exact hwalk.walk.exists_next (hwalk.walk.perm.mem_iff.1 hpath)
  rintro ⟨path, hpath, hcycle⟩
  -- what was loaded is closed under imports, so the cycle would lie in it
  have hmem : path ∈ s'.loaded := by
    have hfirst : root ∈ s'.loaded := hwalk.reached root List.mem_cons_self
    rcases Relation.reflTransGen_iff_eq_or_transGen.1 hpath with rfl | hpath
    · exact hfirst
    · exact (Loader.transGen_successor hlayered hnext hfirst hpath).1
  exact hlayered.acyclic hmem (Loader.transGen_successor hlayered hnext hmem hcycle).2

namespace Loader

variable {l : Loader Id} {entry : String} {dir : Option Path} {root : Path} {g : Graph}

/-- Where nothing else is wrong with the documents that are reached, a load succeeds or fails for a
cycle, and in the second case there is one. -/
theorem load_ok_or_cycle (hroot : l.pathOf entry dir = .ok root)
    (hflawless : l.Flawless (ReflTransGen l.Needs root))
    (hroom : l.RoomFor (ReflTransGen l.Needs root))
    (hnew : ∀ path id, ReflTransGen l.Needs root path → l.Lists path id → ¬ g.has id = true) :
    (∃ s, runOn (l.load entry dir) { graph := g } = (.ok (), s)) ∨
      l.LeadsToCycle root ∧
        ∃ chain s, runOn (l.load entry dir) { graph := g } = (.error (.importCycle chain), s) := by
  obtain ⟨outcome, s, calls, hrun⟩ := LoadTask.hasRun_resource (l := l) entry dir { graph := g }
  have hload : runOn (l.load entry dir) { graph := g } = (outcome, s) := hrun.runOn_eq
  have hclosed : ∀ path target, ReflTransGen l.Needs root path → l.Needs path target →
      ReflTransGen l.Needs root target := fun _ _ => .tail
  have hdue : LoadTask.Due l (ReflTransGen l.Needs root) [] (.resource entry dir) :=
    ⟨root, hroot, .refl, fun _ hmem => absurd hmem List.not_mem_nil⟩
  have hproper : Session.Proper l (ReflTransGen l.Needs root) [] { graph := g } :=
    ⟨fun _ hmem => absurd hmem List.not_mem_nil, List.nodup_nil,
      fun path id hpath hlists hid => absurd hid (hnew path id hpath hlists)⟩
  rcases hrun.ok_or_cycle hflawless hclosed hroom hdue hproper with ⟨rfl, -⟩ | hcycle
  · exact Or.inl ⟨s, hload⟩
  · obtain ⟨chain, path, rfl, hpath, hcycle⟩ := hcycle
    exact Or.inr ⟨⟨path, hpath, hcycle⟩, chain, s, hload⟩

/-- Where no import may fail and nothing else is wrong with the documents that are reached, a load
fails for a cycle exactly when there is one among them, and succeeds otherwise. -/
theorem load_cycle_iff (hall : l.AllMandatory) (hroot : l.pathOf entry dir = .ok root)
    (hflawless : l.Flawless (ReflTransGen l.Needs root))
    (hroom : l.RoomFor (ReflTransGen l.Needs root))
    (hnew : ∀ path id, ReflTransGen l.Needs root path → l.Lists path id → ¬ g.has id = true) :
    ((∃ chain s, runOn (l.load entry dir) { graph := g } = (.error (.importCycle chain), s)) ↔
        l.LeadsToCycle root) ∧
      ((∃ s, runOn (l.load entry dir) { graph := g } = (.ok (), s)) ↔ ¬ l.LeadsToCycle root) := by
  have hok : ∀ s, runOn (l.load entry dir) { graph := g } = (.ok (), s) →
      ¬ l.LeadsToCycle root := by
    intro s hload
    obtain ⟨calls, hrun⟩ := runOn_load_eq_iff.1 hload
    exact hrun.not_leadsToCycle hall hroot rfl rfl
  rcases load_ok_or_cycle hroot hflawless hroom hnew with ⟨s, hload⟩ | ⟨hcycle, chain, s, hload⟩
  · refine ⟨iff_of_false ?_ (hok s hload), iff_of_true ⟨s, hload⟩ (hok s hload)⟩
    rintro ⟨chain, s', hload'⟩
    exact nomatch congrArg Prod.fst (hload.symm.trans hload')
  · refine ⟨iff_of_true ⟨chain, s, hload⟩ hcycle, iff_of_false ?_ (not_not_intro hcycle)⟩
    rintro ⟨s', hload'⟩
    exact nomatch congrArg Prod.fst (hload.symm.trans hload')

end Loader

/-! ## Files in memory -/

namespace MemoryFiles

/-- Import cycles among files in memory are found exactly. A load that fails for a cycle reports a
chain of documents from the one it was asked for, each importing the next, that runs back into
itself. And when no import may fail, imports may nest as deep as there are files, nothing else is
wrong with the documents that are reached and their ids are free, the load fails for a cycle if
there is one among them, and succeeds otherwise. -/
theorem importCycle_exact {f : MemoryFiles} {l : Loader Id} (hfiles : l.locator = f.locator)
    (entry : String) (dir : Option Path) (g : Graph) :
    (∀ chain s, runOn (l.load entry dir) { graph := g } = (.error (.importCycle chain), s) →
      ∃ root, l.pathOf entry dir = .ok root ∧ l.ClosedChain root chain) ∧
    (l.AllMandatory → f.files.size ≤ l.maxDepth → ∀ root, l.pathOf entry dir = .ok root →
      l.Flawless (ReflTransGen l.Needs root) →
      (∀ path id, ReflTransGen l.Needs root path → l.Lists path id → ¬ g.has id = true) →
        ((∃ chain s, runOn (l.load entry dir) { graph := g } = (.error (.importCycle chain), s)) ↔
          l.LeadsToCycle root) ∧
        ((∃ s, runOn (l.load entry dir) { graph := g } = (.ok (), s)) ↔
          ¬ l.LeadsToCycle root)) := by
  constructor
  · intro chain s hload
    obtain ⟨calls, hrun⟩ := Loader.runOn_load_eq_iff.1 hload
    exact hrun.exists_closedChain (onlyMisses hfiles) rfl
  · intro hall hdepth root hroot hflawless hnew
    refine Loader.load_cycle_iff hall hroot hflawless (fun paths hnodup hreach => ?_) hnew
    refine (length_le_size hfiles hnodup fun path hpath => ?_).trans hdepth
    -- the document that was asked for is located, and so is every import
    rcases Relation.ReflTransGen.cases_tail (hreach path hpath) with rfl | ⟨_, -, hneeds⟩
    · exact ⟨entry, dir, hroot⟩
    · obtain ⟨-, -, -, htarget⟩ := hneeds
      exact ⟨_, _, htarget⟩

/-- A document with one service and one import. -/
def linkDocument (id resource : String) : Document where
  file := "/" ++ id ++ ".json"
  parts := [("imports", .array [importing resource]), ("services", .object [(id, .string "@log")])]

/-- Two documents that import each other, and one that leads to them. -/
def ringFiles : MemoryFiles := .ofJson
  [("/app.json", .object (linkDocument "app" "a.json").parts),
    ("/a.json", .object (linkDocument "a" "b.json").parts),
    ("/b.json", .object (linkDocument "b" "./a.json").parts)]

/-- The loader of these files. -/
def ring : Loader Id where
  locator := ringFiles.locator
  maxDepth := 3

/-- What is reached in the ring is a document with one import, which is found. -/
theorem exists_link {path : Path} (hpath : ReflTransGen ring.Needs ⟨"/app.json"⟩ path) :
    ∃ id resource target, path = ⟨"/" ++ id ++ ".json"⟩ ∧
      ring.documentAt path = .ok (some (linkDocument id resource)) ∧
      ring.accept (linkDocument id resource) = .ok () ∧
      ring.pathOf resource path.parent? = .ok target := by
  have hmem : path ∈ [(⟨"/app.json"⟩ : Path), ⟨"/a.json"⟩, ⟨"/b.json"⟩] := by
    rcases Relation.ReflTransGen.cases_tail hpath with rfl | ⟨_, -, -, -, -, htarget⟩
    · exact List.mem_cons_self
    · exact mem_paths_of_locate htarget
  rcases List.mem_cons.1 hmem with rfl | hmem
  · exact ⟨"app", "a.json", ⟨"/a.json"⟩, by decide +kernel⟩
  rcases List.mem_cons.1 hmem with rfl | hmem
  · exact ⟨"a", "b.json", ⟨"/b.json"⟩, by decide +kernel⟩
  obtain rfl := List.mem_singleton.1 hmem
  exact ⟨"b", "./a.json", ⟨"/a.json"⟩, by decide +kernel⟩

/-- Nothing is wrong with the documents of the ring by themselves. -/
theorem flawless_ring : ring.Flawless (ReflTransGen ring.Needs ⟨"/app.json"⟩) := by
  have hown : ∀ {path d}, ReflTransGen ring.Needs ⟨"/app.json"⟩ path →
      ring.documentAt path = .ok (some d) → ∃ id resource target, path = ⟨"/" ++ id ++ ".json"⟩ ∧
        d = linkDocument id resource ∧ ring.accept d = .ok () ∧
        ring.pathOf resource path.parent? = .ok target := by
    intro path d hpath hdocument
    obtain ⟨id, resource, target, hid, hdocument', haccept, htarget⟩ := exists_link hpath
    obtain rfl := Loader.document_unique hdocument' hdocument
    exact ⟨id, resource, target, hid, rfl, haccept, htarget⟩
  constructor
  · intro path hpath
    obtain ⟨id, resource, target, -, hdocument, -⟩ := exists_link hpath
    exact ⟨_, hdocument⟩
  · intro path d hpath hdocument
    obtain ⟨id, resource, target, -, -, haccept, -⟩ := hown hpath hdocument
    exact haccept
  · intro path d hpath hdocument item hitem
    obtain ⟨id, resource, target, -, rfl, -, htarget⟩ := hown hpath hdocument
    obtain rfl : item = importing resource := List.mem_singleton.1 hitem
    exact ⟨⟨resource, false⟩, target, rfl, htarget⟩
  · intro path d hpath hdocument service hservice
    obtain ⟨id, resource, target, -, rfl, -⟩ := hown hpath hdocument
    obtain rfl : service = (id, .string "@log") := List.mem_singleton.1 hservice
    exact ⟨.aliasing ⟨"log", true⟩, rfl⟩
  · intro path path' id hpath hpath' hlists hlists'
    obtain ⟨d, hdocument, hid⟩ := hlists
    obtain ⟨d', hdocument', hid'⟩ := hlists'
    obtain ⟨id₁, _, _, rfl, rfl, -⟩ := hown hpath hdocument
    obtain ⟨id₂, _, _, rfl, rfl, -⟩ := hown hpath' hdocument'
    obtain rfl : id = id₁ := List.mem_singleton.1 hid
    obtain rfl : id = id₂ := List.mem_singleton.1 hid'
    rfl

theorem importCycle_exact_ring :
    ring.AllMandatory ∧ ringFiles.files.size ≤ ring.maxDepth ∧
      ring.pathOf "app.json" none = .ok ⟨"/app.json"⟩ ∧
      ring.Flawless (ReflTransGen ring.Needs ⟨"/app.json"⟩) ∧ ring.LeadsToCycle ⟨"/app.json"⟩ ∧
      ∃ chain s, runOn (ring.load "app.json" none) { graph := {} } =
        (.error (.importCycle chain), s) ∧ ring.ClosedChain ⟨"/app.json"⟩ chain ∧
        chain = [⟨"/app.json"⟩, ⟨"/a.json"⟩, ⟨"/b.json"⟩, ⟨"/a.json"⟩] := by
  have hall : ring.AllMandatory := allMandatory (f := ringFiles) rfl (by decide +kernel)
  have hdepth : ringFiles.files.size ≤ ring.maxDepth := by decide +kernel
  have hroot : ring.pathOf "app.json" none = .ok ⟨"/app.json"⟩ := by decide +kernel
  have houtcome : (runOn (ring.load "app.json" none) { graph := {} }).1 = .error (.importCycle
      [⟨"/app.json"⟩, ⟨"/a.json"⟩, ⟨"/b.json"⟩, ⟨"/a.json"⟩]) := by decide +kernel
  rcases hload : runOn (ring.load "app.json" none) { graph := {} } with ⟨outcome, s⟩
  rw [hload] at houtcome
  obtain rfl := houtcome
  obtain ⟨hsound, hcomplete⟩ :=
    importCycle_exact (f := ringFiles) (l := ring) rfl "app.json" none {}
  obtain ⟨hcycle, -⟩ := hcomplete hall hdepth _ hroot flawless_ring
    fun _ _ _ _ hid => absurd hid Bool.false_ne_true
  obtain ⟨root, hroot', hchain⟩ := hsound _ s hload
  obtain rfl := Except.ok.inj (hroot.symm.trans hroot')
  exact ⟨hall, hdepth, hroot, flawless_ring, hcycle.1 ⟨_, s, hload⟩, _, s, rfl, hchain, rfl⟩

end MemoryFiles

end ServiceGraph
