import ServiceGraph.Proofs.Loading.Equation

/-!
# Runs of the loader

`Runs l task s outcome s' calls` says that the loader works off `task` in the session `s`, with the
given outcome, and leaves the session `s'`. A task is a resource, a document that was opened, or a
rest of the imports of a document, and there is one rule for each way in which a task can end. The
list `calls` holds the loads that were finished on the way, in the order in which they ended, with
the session before and after each.

The relation is the function: every load has a run (`LoadTask.hasRun_resource`), and what a run says
is what the step of its task does (`Runs.runOn_eq`). Facts about loading are proved by induction on
runs.
-/

set_option autoImplicit false

namespace ServiceGraph

open Loading (runOn)

/-- What the loader works off. -/
inductive LoadTask where
  /-- A resource, looked for from a directory. -/
  | resource (name : String) (dir : Option Path)
  /-- The document that was read at a path. -/
  | document (d : Document) (path : Path)
  /-- Entries of the imports of a file, relative to a directory. -/
  | imports (file : String) (items : List Json) (dir : Option Path)

/-- A finished load: what was asked for, and the session before and after. -/
structure LoadCall where
  resource : String
  dir : Option Path
  before : Session
  outcome : Except Failure Unit
  after : Session

/-- The checks on the path of a resource pass: the path is found, it is not in progress, and there
is room for one more document. -/
structure Loader.Admits (l : Loader Id) (resource : String) (dir : Option Path) (s : Session)
    (path : Path) : Prop where
  found : l.pathOf resource dir = .ok path
  fresh : path ∉ s.inProgress
  room : s.inProgress.length < l.maxDepth

/-- The runs of the loader, one rule for each way in which a task ends. -/
inductive Runs (l : Loader Id) :
    LoadTask → Session → Except Failure Unit → Session → List LoadCall → Prop
  | notFound {resource dir s e} (hpath : l.pathOf resource dir = .error e) :
      Runs l (.resource resource dir) s (.error e) s [⟨resource, dir, s, .error e, s⟩]
  | cycle {resource dir s path} (hpath : l.pathOf resource dir = .ok path)
      (hcycle : path ∈ s.inProgress) :
      Runs l (.resource resource dir) s (.error (.importCycle (path :: s.inProgress).reverse)) s
        [⟨resource, dir, s, .error (.importCycle (path :: s.inProgress).reverse), s⟩]
  | tooDeep {resource dir s path} (hpath : l.pathOf resource dir = .ok path)
      (hfresh : path ∉ s.inProgress) (hroom : l.maxDepth ≤ s.inProgress.length) :
      Runs l (.resource resource dir) s (.error (.importDepthExceeded resource l.maxDepth)) s
        [⟨resource, dir, s, .error (.importDepthExceeded resource l.maxDepth), s⟩]
  /-- The path was loaded before. -/
  | known {resource dir s path} (hadmits : l.Admits resource dir s path)
      (hloaded : path ∈ s.loaded) :
      Runs l (.resource resource dir) s (.ok ()) s [⟨resource, dir, s, .ok (), s⟩]
  | unreadable {resource dir s path e} (hadmits : l.Admits resource dir s path)
      (hnew : path ∉ s.loaded) (htext : l.textOf path = .error e) :
      Runs l (.resource resource dir) s (.error e) s [⟨resource, dir, s, .error e, s⟩]
  | malformed {resource dir s path text e} (hadmits : l.Admits resource dir s path)
      (hnew : path ∉ s.loaded) (htext : l.textOf path = .ok text)
      (hparse : Document.parse text path.text = .error e) :
      Runs l (.resource resource dir) s (.error e) (s.record path)
        [⟨resource, dir, s, .error e, s.record path⟩]
  | empty {resource dir s path} (hadmits : l.Admits resource dir s path)
      (hnew : path ∉ s.loaded) (hempty : l.documentAt path = .ok none) :
      Runs l (.resource resource dir) s (.ok ()) ((s.record path).markLoaded path)
        [⟨resource, dir, s, .ok (), (s.record path).markLoaded path⟩]
  | opened {resource dir s path d outcome s' calls} (hadmits : l.Admits resource dir s path)
      (hnew : path ∉ s.loaded) (hdocument : l.documentAt path = .ok (some d))
      (hrun : Runs l (.document d path) ((s.record path).enter path) outcome s' calls) :
      Runs l (.resource resource dir) s outcome (s'.leave path)
        (calls ++ [⟨resource, dir, s, outcome, s'.leave path⟩])
  /-- A document does not pass its checks. -/
  | refused {d path s e} (haccept : l.accept d = .error e) :
      Runs l (.document d path) s (.error e) s []
  /-- An import of a document fails for good. -/
  | stopped {d path s e s' calls} (haccept : l.accept d = .ok ())
      (himports : Runs l (.imports d.file d.imports path.parent?) s (.error e) s' calls) :
      Runs l (.document d path) s (.error e) s' calls
  /-- After the imports the document adds its own parts, or as many as it can. -/
  | merged {d path s s' calls outcome g} (haccept : l.accept d = .ok ())
      (himports : Runs l (.imports d.file d.imports path.parent?) s (.ok ()) s' calls)
      (hown : Loader.mergeOwn d s'.graph = (outcome, g)) :
      Runs l (.document d path) s outcome { s' with graph := g } calls
  | done {file dir s} : Runs l (.imports file [] dir) s (.ok ()) s []
  | badImport {file item rest dir s e} (hentry : Import.read file item = .error e) :
      Runs l (.imports file (item :: rest) dir) s (.error e) s []
  | imported {file item rest dir s entry s₁ calls outcome s' calls'}
      (hentry : Import.read file item = .ok entry)
      (hload : Runs l (.resource entry.resource dir) s (.ok ()) s₁ calls)
      (hrest : Runs l (.imports file rest dir) s₁ outcome s' calls') :
      Runs l (.imports file (item :: rest) dir) s outcome s' (calls ++ calls')
  /-- An import fails, but only for want of the resource, and may do so. -/
  | ignored {file item rest dir s entry e s₁ calls outcome s' calls'}
      (hentry : Import.read file item = .ok entry)
      (hload : Runs l (.resource entry.resource dir) s (.error e) s₁ calls)
      (hignore : entry.ignoreErrors = true) (hkind : e.kind = .imports)
      (hrest : Runs l (.imports file rest dir) s₁ outcome s' calls') :
      Runs l (.imports file (item :: rest) dir) s outcome s' (calls ++ calls')
  | failed {file item rest dir s entry e s' calls}
      (hentry : Import.read file item = .ok entry)
      (hload : Runs l (.resource entry.resource dir) s (.error e) s' calls)
      (hkeep : ¬ (entry.ignoreErrors = true ∧ e.kind = .imports)) :
      Runs l (.imports file (item :: rest) dir) s (.error e) s' calls

namespace LoadTask

/-- The step of loading that works off a task. -/
def step (l : Loader Id) : LoadTask → Loading Id Unit
  | .resource name dir => l.load name dir
  | .document d path => l.mergeDocument (fun resource => l.load resource path.parent?) d
  | .imports file items dir => Loader.loadImports (fun resource => l.load resource dir) file items

end LoadTask

section

variable {l : Loader Id}

theorem Loader.documentAt_eq_ok_iff {path : Path} {result : Option Document} :
    l.documentAt path = .ok result ↔
      ∃ text, l.textOf path = .ok text ∧ Document.parse text path.text = .ok result := by
  rw [documentAt]
  cases l.textOf path with
  | error e => simp [bind, Except.bind]
  | ok text => simp [bind, Except.bind]

theorem Loader.document_unique {path : Path} {d d' : Document}
    (h : l.documentAt path = .ok (some d)) (h' : l.documentAt path = .ok (some d')) : d = d' :=
  Option.some.inj (Except.ok.inj (h.symm.trans h'))

theorem Loader.document_ne_empty {path : Path} {d : Document}
    (h : l.documentAt path = .ok (some d)) : l.documentAt path ≠ .ok none := by
  intro hempty
  rw [h] at hempty
  cases hempty

/-- A run keeps the documents in progress. -/
theorem Runs.inProgress_eq {task : LoadTask} {s s' : Session} {outcome : Except Failure Unit}
    {calls : List LoadCall} (h : Runs l task s outcome s' calls) :
    s'.inProgress = s.inProgress := by
  induction h with
  | opened _ _ _ _ ih => simp only [Session.leave, Session.markLoaded, ih]; rfl
  | stopped _ _ ih => exact ih
  | merged _ _ _ ih => exact ih
  | imported _ _ _ ih₁ ih₂ => exact ih₂.trans ih₁
  | ignored _ _ _ _ _ ih₁ ih₂ => exact ih₂.trans ih₁
  | failed _ _ _ ih => exact ih
  | _ => rfl

/-- What a run of a task says is what the step of the task does. -/
theorem Runs.runOn_eq {task : LoadTask} {s s' : Session} {outcome : Except Failure Unit}
    {calls : List LoadCall} (h : Runs l task s outcome s' calls) :
    runOn (task.step l) s = (outcome, s') := by
  induction h with
  | notFound hpath => simp only [LoadTask.step, Loader.runOn_load, hpath]
  | cycle hpath hcycle => simp only [LoadTask.step, Loader.runOn_load, hpath, if_pos hcycle]
  | tooDeep hpath hfresh hroom =>
      simp only [LoadTask.step, Loader.runOn_load, hpath, if_neg hfresh, if_pos hroom]
  | known hadmits hloaded =>
      simp only [LoadTask.step, Loader.runOn_load, hadmits.found, if_neg hadmits.fresh,
        if_neg (Nat.not_le.2 hadmits.room), if_pos hloaded]
  | unreadable hadmits hnew htext =>
      simp only [LoadTask.step, Loader.runOn_load, hadmits.found, if_neg hadmits.fresh,
        if_neg (Nat.not_le.2 hadmits.room), if_neg hnew, Loader.openWith, htext]
  | malformed hadmits hnew htext hparse =>
      simp only [LoadTask.step, Loader.runOn_load, hadmits.found, if_neg hadmits.fresh,
        if_neg (Nat.not_le.2 hadmits.room), if_neg hnew, Loader.openWith, htext, hparse]
  | empty hadmits hnew hempty =>
      obtain ⟨text, htext, hparse⟩ := Loader.documentAt_eq_ok_iff.1 hempty
      simp only [LoadTask.step, Loader.runOn_load, hadmits.found, if_neg hadmits.fresh,
        if_neg (Nat.not_le.2 hadmits.room), if_neg hnew, Loader.openWith, htext, hparse]
  | opened hadmits hnew hdocument _ ih =>
      obtain ⟨text, htext, hparse⟩ := Loader.documentAt_eq_ok_iff.1 hdocument
      simp only [LoadTask.step] at ih
      simp only [LoadTask.step, Loader.runOn_load, hadmits.found, if_neg hadmits.fresh,
        if_neg (Nat.not_le.2 hadmits.room), if_neg hnew, Loader.openWith, htext, hparse, ih]
  | refused haccept => simp only [LoadTask.step, Loader.runOn_mergeDocument, haccept]
  | stopped haccept _ ih =>
      simp only [LoadTask.step] at ih
      simp only [LoadTask.step, Loader.runOn_mergeDocument, haccept, ih]
  | merged haccept _ hown ih =>
      simp only [LoadTask.step] at ih
      simp only [LoadTask.step, Loader.runOn_mergeDocument, haccept, ih, hown]
  | done => rfl
  | badImport hentry => simp only [LoadTask.step, Loader.runOn_loadImports_cons, hentry]
  | imported hentry _ _ ih₁ ih₂ =>
      simp only [LoadTask.step] at ih₁ ih₂
      simp only [LoadTask.step, Loader.runOn_loadImports_cons, hentry, ih₁, ih₂]
  | ignored hentry _ hignore hkind _ ih₁ ih₂ =>
      simp only [LoadTask.step] at ih₁ ih₂
      simp only [LoadTask.step, Loader.runOn_loadImports_cons, hentry, ih₁, ih₂, hignore, hkind,
        decide_true, Bool.and_self, if_true]
  | failed hentry _ hkeep ih =>
      simp only [LoadTask.step] at ih
      -- the test of the loader is a Boolean one
      have hif : ¬ (_ && decide _) = true := fun h => hkeep (by simpa using h)
      simp only [LoadTask.step, Loader.runOn_loadImports_cons, hentry, ih, if_neg hif]

/-- Each load on the way of a run is the load of a resource by itself. -/
theorem Runs.runOn_of_mem {task : LoadTask} {s s' : Session} {outcome : Except Failure Unit}
    {calls : List LoadCall} (h : Runs l task s outcome s' calls) {c : LoadCall} (hc : c ∈ calls) :
    runOn (l.load c.resource c.dir) c.before = (c.outcome, c.after) := by
  induction h with
  | notFound hpath =>
      obtain rfl := List.mem_singleton.1 hc
      exact (Runs.notFound hpath).runOn_eq
  | cycle hpath hcycle =>
      obtain rfl := List.mem_singleton.1 hc
      exact (Runs.cycle hpath hcycle).runOn_eq
  | tooDeep hpath hfresh hroom =>
      obtain rfl := List.mem_singleton.1 hc
      exact (Runs.tooDeep hpath hfresh hroom).runOn_eq
  | known hadmits hloaded =>
      obtain rfl := List.mem_singleton.1 hc
      exact (Runs.known hadmits hloaded).runOn_eq
  | unreadable hadmits hnew htext =>
      obtain rfl := List.mem_singleton.1 hc
      exact (Runs.unreadable hadmits hnew htext).runOn_eq
  | malformed hadmits hnew htext hparse =>
      obtain rfl := List.mem_singleton.1 hc
      exact (Runs.malformed hadmits hnew htext hparse).runOn_eq
  | empty hadmits hnew hempty =>
      obtain rfl := List.mem_singleton.1 hc
      exact (Runs.empty hadmits hnew hempty).runOn_eq
  | opened hadmits hnew hdocument hrun ih =>
      rcases List.mem_append.1 hc with hc | hc
      · exact ih hc
      · obtain rfl := List.mem_singleton.1 hc
        exact (Runs.opened hadmits hnew hdocument hrun).runOn_eq
  | refused | done | badImport => exact absurd hc List.not_mem_nil
  | stopped _ _ ih | merged _ _ _ ih | failed _ _ _ ih => exact ih hc
  | imported _ _ _ ih₁ ih₂ | ignored _ _ _ _ _ ih₁ ih₂ =>
      rcases List.mem_append.1 hc with hc | hc
      · exact ih₁ hc
      · exact ih₂ hc

/-- A task has a run from a session. -/
def LoadTask.HasRun (l : Loader Id) (task : LoadTask) (s : Session) : Prop :=
  ∃ outcome s' calls, Runs l task s outcome s' calls

theorem LoadTask.hasRun_imports {dir : Option Path} (stack : List Path)
    (hload : ∀ resource s, s.inProgress = stack → HasRun l (.resource resource dir) s)
    (file : String) (items : List Json) (s : Session) (hs : s.inProgress = stack) :
    HasRun l (.imports file items dir) s := by
  induction items generalizing s with
  | nil => exact ⟨_, _, _, .done⟩
  | cons item rest ih =>
      cases hentry : Import.read file item with
      | error e => exact ⟨_, _, _, .badImport hentry⟩
      | ok entry =>
          obtain ⟨outcome, s₁, calls, hrun⟩ := hload entry.resource s hs
          obtain ⟨outcome', s', calls', hrest⟩ := ih s₁ (hrun.inProgress_eq.trans hs)
          cases outcome with
          | ok _ => exact ⟨_, _, _, .imported hentry hrun hrest⟩
          | error e =>
              by_cases h : entry.ignoreErrors = true ∧ e.kind = .imports
              · exact ⟨_, _, _, .ignored hentry hrun h.1 h.2 hrest⟩
              · exact ⟨_, _, _, .failed hentry hrun h⟩

theorem LoadTask.hasRun_document {d : Document} {path : Path} {s : Session}
    (himports : HasRun l (.imports d.file d.imports path.parent?) s) :
    HasRun l (.document d path) s := by
  cases haccept : l.accept d with
  | error e => exact ⟨_, _, _, .refused haccept⟩
  | ok _ =>
      obtain ⟨outcome, s', calls, hrun⟩ := himports
      cases outcome with
      | error e => exact ⟨_, _, _, .stopped haccept hrun⟩
      | ok _ => exact ⟨_, _, _, .merged haccept hrun rfl⟩

/-- Every load has a run. The induction is on the room that the session leaves for nesting. -/
theorem LoadTask.hasRun_resource (resource : String) (dir : Option Path) (s : Session) :
    HasRun l (.resource resource dir) s := by
  induction hroom : l.maxDepth - s.inProgress.length generalizing resource dir s with
  | zero =>
      -- no room: the load ends at the checks on the path
      have hfull : l.maxDepth ≤ s.inProgress.length := by omega
      cases hpath : l.pathOf resource dir with
      | error e => exact ⟨_, _, _, .notFound hpath⟩
      | ok path =>
          by_cases hp : path ∈ s.inProgress
          · exact ⟨_, _, _, .cycle hpath hp⟩
          · exact ⟨_, _, _, .tooDeep hpath hp hfull⟩
  | succ room ih =>
      cases hpath : l.pathOf resource dir with
      | error e => exact ⟨_, _, _, .notFound hpath⟩
      | ok path =>
          by_cases hp : path ∈ s.inProgress
          · exact ⟨_, _, _, .cycle hpath hp⟩
          have hadmits : l.Admits resource dir s path := ⟨hpath, hp, by omega⟩
          by_cases hl : path ∈ s.loaded
          · exact ⟨_, _, _, .known hadmits hl⟩
          cases htext : l.textOf path with
          | error e => exact ⟨_, _, _, .unreadable hadmits hl htext⟩
          | ok text =>
              cases hparse : Document.parse text path.text with
              | error e => exact ⟨_, _, _, .malformed hadmits hl htext hparse⟩
              | ok parsed =>
                  have hdocument := Loader.documentAt_eq_ok_iff.2 ⟨text, htext, hparse⟩
                  cases parsed with
                  | none => exact ⟨_, _, _, .empty hadmits hl hdocument⟩
                  | some d =>
                      -- the imports find one more document in progress
                      obtain ⟨outcome, s', calls, hrun⟩ := hasRun_document <|
                        hasRun_imports (path :: s.inProgress)
                          (fun resource s' hs' => ih resource path.parent? s' <| by
                            rw [hs', List.length_cons]
                            omega)
                          d.file d.imports ((s.record path).enter path) rfl
                      exact ⟨_, _, _, .opened hadmits hl hdocument hrun⟩

/-- The runs of a resource are what the load of the resource does. -/
theorem Loader.runOn_load_eq_iff {resource : String} {dir : Option Path} {s s' : Session}
    {outcome : Except Failure Unit} :
    runOn (l.load resource dir) s = (outcome, s') ↔
      ∃ calls, Runs l (.resource resource dir) s outcome s' calls := by
  constructor
  · intro h
    obtain ⟨outcome', s'', calls, hrun⟩ := LoadTask.hasRun_resource (l := l) resource dir s
    have heq : (outcome, s') = (outcome', s'') := h.symm.trans hrun.runOn_eq
    obtain ⟨rfl, rfl⟩ := Prod.mk.inj heq
    exact ⟨calls, hrun⟩
  · rintro ⟨calls, hrun⟩
    exact hrun.runOn_eq

end

end ServiceGraph
