import Mathlib.Logic.Relation
import ServiceGraph.Proofs.Loading.Run

/-!
# The loader as a machine

A `LoadPoint` is a point of a run of the loader: what it is about to do, what waits for an outcome,
and the session at this point. `Loader.next?` takes a point to the next one. A step makes at most
one change to the bookkeeping of the session, so the points are the moments at which it can be
looked at.

The machine is the loader, at every point. What remains to be done at a point is a piece of the
loader's own code (`LoadPoint.remains`), and no step changes the outcome and the session that the
piece comes to (`Loader.result_next`). A task that is worked off under
any frames comes back to the same frames with the outcome and the session of its run (`Runs.steps`),
which are those of the step of the task (`LoadTask.steps_step`), and from no point does the machine
go on for ever (`Loader.wellFounded_next`).
-/

set_option autoImplicit false

namespace ServiceGraph

open Loading (runOn)

/-! ## Points and steps -/

/-- What the loader is about to do. -/
inductive LoadFocus where
  /-- Work off a task. -/
  | task (task : LoadTask)
  /-- Parse the text that was read at a path. -/
  | text (path : Path) (text : String)
  /-- Mark the document at a path as loaded; it is no longer in progress. -/
  | closed (path : Path) (outcome : Except Failure Unit)
  /-- Hand an outcome to what waits for it. -/
  | done (outcome : Except Failure Unit)

/-- What waits for an outcome. -/
inductive LoadFrame where
  /-- The imports of a file that follow an entry. -/
  | imports (file : String) (entry : Import) (rest : List Json) (dir : Option Path)
  /-- What a document says itself, its imports aside. -/
  | own (d : Document)
  /-- The end of the document at a path. -/
  | close (path : Path)

/-- A point of a run of the loader. -/
structure LoadPoint where
  focus : LoadFocus
  /-- What waits, innermost first. -/
  frames : List LoadFrame
  session : Session

namespace Loader

variable (l : Loader Id)

/-- A load begins: the checks on the path of the resource, and the text there. -/
def begin (resource : String) (dir : Option Path) (frames : List LoadFrame) (s : Session) :
    LoadPoint :=
  match l.pathOf resource dir with
  | .error e => ⟨.done (.error e), frames, s⟩
  | .ok path =>
    if path ∈ s.inProgress then
      ⟨.done (.error (.importCycle (path :: s.inProgress).reverse)), frames, s⟩
    else if l.maxDepth ≤ s.inProgress.length then
      ⟨.done (.error (.importDepthExceeded resource l.maxDepth)), frames, s⟩
    else if path ∈ s.loaded then ⟨.done (.ok ()), frames, s⟩
    else
      match l.textOf path with
      | .error e => ⟨.done (.error e), frames, s⟩
      | .ok text => ⟨.text path text, frames, s.record path⟩

/-- A text is parsed, and the document in it is entered. -/
def openText (path : Path) (text : String) (frames : List LoadFrame) (s : Session) : LoadPoint :=
  match Document.parse text path.text with
  | .error e => ⟨.done (.error e), frames, s⟩
  | .ok none => ⟨.done (.ok ()), frames, s.markLoaded path⟩
  | .ok (some d) => ⟨.task (.document d path), .close path :: frames, s.enter path⟩

/-- A document is checked before its imports. -/
def checkDocument (d : Document) (path : Path) (frames : List LoadFrame) (s : Session) :
    LoadPoint :=
  match l.accept d with
  | .error e => ⟨.done (.error e), frames, s⟩
  | .ok () => ⟨.task (.imports d.file d.imports path.parent?), .own d :: frames, s⟩

/-- The first of some entries of imports is read. -/
def nextImport (file : String) (items : List Json) (dir : Option Path) (frames : List LoadFrame)
    (s : Session) : LoadPoint :=
  match items with
  | [] => ⟨.done (.ok ()), frames, s⟩
  | item :: rest =>
    match Import.read file item with
    | .error e => ⟨.done (.error e), frames, s⟩
    | .ok entry =>
      ⟨.task (.resource entry.resource dir), .imports file entry rest dir :: frames, s⟩

/-- What waits goes on with an outcome. -/
def resume (outcome : Except Failure Unit) (frames : List LoadFrame) (s : Session) :
    LoadFrame → LoadPoint
  | .imports file entry rest dir =>
    match outcome with
    | .ok () => ⟨.task (.imports file rest dir), frames, s⟩
    | .error e =>
      if entry.ignoreErrors && e.kind = .imports then ⟨.task (.imports file rest dir), frames, s⟩
      else ⟨.done (.error e), frames, s⟩
  | .own d =>
    match outcome with
    | .ok () => ⟨.done (mergeOwn d s.graph).1, frames, { s with graph := (mergeOwn d s.graph).2 }⟩
    | .error e => ⟨.done (.error e), frames, s⟩
  | .close path => ⟨.closed path outcome, frames, { s with inProgress := s.inProgress.tail }⟩

/-- The next point of a run; none when the outcome is the one of the whole run. -/
def next? : LoadPoint → Option LoadPoint
  | ⟨.task (.resource resource dir), frames, s⟩ => some (l.begin resource dir frames s)
  | ⟨.text path text, frames, s⟩ => some (openText path text frames s)
  | ⟨.task (.document d path), frames, s⟩ => some (l.checkDocument d path frames s)
  | ⟨.task (.imports file items dir), frames, s⟩ => some (nextImport file items dir frames s)
  | ⟨.closed path outcome, frames, s⟩ => some ⟨.done outcome, frames, s.markLoaded path⟩
  | ⟨.done outcome, frame :: frames, s⟩ => some (resume outcome frames s frame)
  | ⟨.done _, [], _⟩ => none

/-- Any number of steps. -/
abbrev Steps : LoadPoint → LoadPoint → Prop :=
  Relation.ReflTransGen fun p p' => l.next? p = some p'

end Loader

section

variable {l : Loader Id}

/-! ## What remains to be done -/

open Loader (attempt build loadImports mergeOwn)

/-- What the loader does after a step that a frame waits for: the rest of the imports, of the
document, or of the load that opened it. -/
def LoadFrame.after (l : Loader Id) (x : Loading Id Unit) : LoadFrame → Loading Id Unit
  | .imports file entry rest dir => do
    match ← attempt x with
    | .ok () => pure ()
    | .error e => if entry.ignoreErrors && e.kind = .imports then pure () else throw e
    loadImports (fun resource => l.load resource dir) file rest
  | .own d => do
    x
    build (modify fun g => (g.addParameters d.parameters).addBlocks d.extensions)
    build (Graph.addServices d.file d.services)
  | .close path => do
    let outcome ← attempt x
    modify fun s => s.leave path
    liftExcept outcome

/-- What the loader is about to do, as a step of loading. -/
def LoadFocus.remains (l : Loader Id) : LoadFocus → Loading Id Unit
  | .task work => work.step l
  | .text path contents => do
    match ← liftExcept (Document.parse contents path.text) with
    | none => modify fun s => s.markLoaded path
    | some d =>
      modify fun s => s.enter path
      LoadFrame.after l (LoadTask.step l (.document d path)) (.close path)
  | .closed path outcome => do
    modify fun s => s.markLoaded path
    liftExcept outcome
  | .done outcome => liftExcept outcome

/-- What remains to be done at a point: what the loader is about to do, and then what waits for
it. -/
def LoadPoint.remains (l : Loader Id) (p : LoadPoint) : Loading Id Unit :=
  p.frames.foldl (LoadFrame.after l) (p.focus.remains l)

namespace LoadFrame

theorem runOn_after_imports (x : Loading Id Unit) (file : String) (entry : Import)
    (rest : List Json) (dir : Option Path) (s : Session) :
    runOn (after l x (.imports file entry rest dir)) s =
      match runOn x s with
      | (.ok (), s') => runOn (LoadTask.step l (.imports file rest dir)) s'
      | (.error e, s') =>
        if entry.ignoreErrors && e.kind = .imports then
          runOn (LoadTask.step l (.imports file rest dir)) s'
        else (.error e, s') := by
  rw [after, Loading.runOn_bind, Loading.runOn_attempt]
  rcases runOn x s with ⟨outcome, s'⟩
  cases outcome with
  | ok _ => rfl
  | error e =>
      by_cases h : (entry.ignoreErrors && decide (e.kind = .imports)) = true
      · simp only [if_pos h]
        rfl
      · simp only [if_neg h]
        rfl

theorem runOn_after_own (x : Loading Id Unit) (d : Document) (s : Session) :
    runOn (after l x (.own d)) s =
      match runOn x s with
      | (.error e, s') => (.error e, s')
      | (.ok (), s') =>
        ((mergeOwn d s'.graph).1, { s' with graph := (mergeOwn d s'.graph).2 }) := by
  rw [after, Loading.runOn_bind]
  rcases runOn x s with ⟨outcome, s'⟩
  cases outcome with
  | ok _ => rfl
  | error e => rfl

theorem runOn_after_close (x : Loading Id Unit) (path : Path) (s : Session) :
    runOn (after l x (.close path)) s = ((runOn x s).1, (runOn x s).2.leave path) := by
  simp only [after, Loading.runOn_bind, Loading.runOn_attempt, Loading.runOn_modify,
    Loading.runOn_liftExcept]

/-- What follows a step depends on its outcome and the session after it only. -/
theorem runOn_after_congr {x y : Loading Id Unit} {s s' : Session} (h : runOn x s = runOn y s')
    (frame : LoadFrame) : runOn (after l x frame) s = runOn (after l y frame) s' := by
  cases frame with
  | imports file entry rest dir => rw [runOn_after_imports, runOn_after_imports, h]
  | own d => rw [runOn_after_own, runOn_after_own, h]
  | close path => rw [runOn_after_close, runOn_after_close, h]

theorem runOn_foldl_after_congr (frames : List LoadFrame) {x y : Loading Id Unit} {s s' : Session}
    (h : runOn x s = runOn y s') :
    runOn (frames.foldl (after l) x) s = runOn (frames.foldl (after l) y) s' := by
  induction frames generalizing x y with
  | nil => exact h
  | cons frame frames ih => exact ih (runOn_after_congr h frame)

end LoadFrame

/-- What a run comes to that goes on from a point. -/
def LoadPoint.result (l : Loader Id) (p : LoadPoint) : Except Failure Unit × Session :=
  runOn (p.remains l) p.session

namespace Loader

theorem runOn_remains_text (path : Path) (text : String) (s : Session) :
    runOn (LoadFocus.remains l (.text path text)) s =
      match Document.parse text path.text with
      | .error e => (.error e, s)
      | .ok none => (.ok (), s.markLoaded path)
      | .ok (some d) =>
        let run := runOn (LoadTask.step l (.document d path)) (s.enter path)
        (run.1, run.2.leave path) := by
  rw [LoadFocus.remains, Loading.runOn_bind, Loading.runOn_liftExcept]
  cases Document.parse text path.text with
  | error e => rfl
  | ok parsed =>
      cases parsed with
      | none => rfl
      | some d =>
          simp only [Loading.runOn_bind, Loading.runOn_modify]
          rw [LoadFrame.runOn_after_close]

theorem runOn_remains_closed (path : Path) (outcome : Except Failure Unit) (s : Session) :
    runOn (LoadFocus.remains l (.closed path outcome)) s = (outcome, s.markLoaded path) := by
  rw [LoadFocus.remains, Loading.runOn_bind, Loading.runOn_modify]
  exact Loading.runOn_liftExcept outcome _

/-- What is to be done next may be left out for its outcome. -/
theorem result_done (focus : LoadFocus) (frames : List LoadFrame) {s s' : Session}
    {outcome : Except Failure Unit} (h : runOn (focus.remains l) s = (outcome, s')) :
    LoadPoint.result l ⟨.done outcome, frames, s'⟩ = LoadPoint.result l ⟨focus, frames, s⟩ :=
  LoadFrame.runOn_foldl_after_congr frames ((Loading.runOn_liftExcept outcome s').trans h.symm)

theorem result_begin (resource : String) (dir : Option Path) (frames : List LoadFrame)
    (s : Session) :
    (l.begin resource dir frames s).result l =
      LoadPoint.result l ⟨.task (.resource resource dir), frames, s⟩ := by
  -- the equation of a load asks the same questions in the same order
  have hload := l.runOn_load resource dir s
  rw [begin]
  cases hpath : l.pathOf resource dir with
  | error e =>
      simp only [hpath] at hload
      exact result_done (.task (.resource resource dir)) frames hload
  | ok path =>
      simp only [hpath] at hload ⊢
      by_cases hcycle : path ∈ s.inProgress
      · simp only [if_pos hcycle] at hload ⊢
        exact result_done (.task (.resource resource dir)) frames hload
      by_cases hdepth : l.maxDepth ≤ s.inProgress.length
      · simp only [if_neg hcycle, if_pos hdepth] at hload ⊢
        exact result_done (.task (.resource resource dir)) frames hload
      by_cases hloaded : path ∈ s.loaded
      · simp only [if_neg hcycle, if_neg hdepth, if_pos hloaded] at hload ⊢
        exact result_done (.task (.resource resource dir)) frames hload
      simp only [if_neg hcycle, if_neg hdepth, if_neg hloaded, openWith] at hload ⊢
      cases htext : l.textOf path with
      | error e =>
          simp only [htext] at hload
          exact result_done (.task (.resource resource dir)) frames hload
      | ok text =>
          simp only [htext] at hload
          refine LoadFrame.runOn_foldl_after_congr frames (Eq.trans ?_ hload.symm)
          exact runOn_remains_text path text (s.record path)

theorem result_openText (path : Path) (text : String) (frames : List LoadFrame) (s : Session) :
    (openText path text frames s).result l = LoadPoint.result l ⟨.text path text, frames, s⟩ := by
  have htext := runOn_remains_text (l := l) path text s
  rw [openText]
  cases hparse : Document.parse text path.text with
  | error e =>
      simp only [hparse] at htext
      exact result_done (.text path text) frames htext
  | ok parsed =>
      simp only [hparse] at htext
      cases parsed with
      | none => exact result_done (.text path text) frames htext
      | some d =>
          refine LoadFrame.runOn_foldl_after_congr frames (Eq.trans ?_ htext.symm)
          exact LoadFrame.runOn_after_close _ path _

theorem result_checkDocument (d : Document) (path : Path) (frames : List LoadFrame) (s : Session) :
    (l.checkDocument d path frames s).result l =
      LoadPoint.result l ⟨.task (.document d path), frames, s⟩ := by
  have hmerge := l.runOn_mergeDocument (fun resource => l.load resource path.parent?) d s
  rw [checkDocument]
  cases haccept : l.accept d with
  | error e =>
      simp only [haccept] at hmerge
      exact result_done (.task (.document d path)) frames hmerge
  | ok _ =>
      simp only [haccept] at hmerge
      refine LoadFrame.runOn_foldl_after_congr frames (Eq.trans ?_ hmerge.symm)
      exact LoadFrame.runOn_after_own _ d s

theorem result_nextImport (file : String) (items : List Json) (dir : Option Path)
    (frames : List LoadFrame) (s : Session) :
    (nextImport file items dir frames s).result l =
      LoadPoint.result l ⟨.task (.imports file items dir), frames, s⟩ := by
  cases items with
  | nil => exact result_done (.task (.imports file [] dir)) frames rfl
  | cons item rest =>
      have hcons := runOn_loadImports_cons (fun resource => l.load resource dir) file item rest s
      rw [nextImport]
      cases hentry : Import.read file item with
      | error e =>
          simp only [hentry] at hcons
          exact result_done (.task (.imports file (item :: rest) dir)) frames hcons
      | ok entry =>
          simp only [hentry] at hcons
          refine LoadFrame.runOn_foldl_after_congr frames (Eq.trans ?_ hcons.symm)
          exact LoadFrame.runOn_after_imports _ file entry rest dir s

theorem result_resume (outcome : Except Failure Unit) (frames : List LoadFrame) (s : Session)
    (frame : LoadFrame) :
    (resume outcome frames s frame).result l =
      LoadPoint.result l ⟨.done outcome, frame :: frames, s⟩ := by
  -- the frame is the first that the outcome goes through, the others see what comes of it only
  have hdone : runOn (LoadFocus.remains l (.done outcome)) s = (outcome, s) :=
    Loading.runOn_liftExcept outcome s
  cases frame with
  | imports file entry rest dir =>
      have hafter := LoadFrame.runOn_after_imports (l := l) (LoadFocus.remains l (.done outcome))
        file entry rest dir s
      rw [hdone] at hafter
      cases outcome with
      | ok _ => exact LoadFrame.runOn_foldl_after_congr frames hafter.symm
      | error e =>
          rw [resume]
          by_cases hskip : (entry.ignoreErrors && decide (e.kind = .imports)) = true
          · simp only [if_pos hskip] at hafter ⊢
            exact LoadFrame.runOn_foldl_after_congr frames hafter.symm
          · simp only [if_neg hskip] at hafter ⊢
            exact LoadFrame.runOn_foldl_after_congr frames (hdone.trans hafter.symm)
  | own d =>
      have hafter := LoadFrame.runOn_after_own (l := l) (LoadFocus.remains l (.done outcome)) d s
      rw [hdone] at hafter
      cases outcome with
      | ok _ =>
          exact LoadFrame.runOn_foldl_after_congr frames
            ((Loading.runOn_liftExcept _ _).trans hafter.symm)
      | error e => exact LoadFrame.runOn_foldl_after_congr frames (hdone.trans hafter.symm)
  | close path =>
      have hafter := LoadFrame.runOn_after_close (l := l) (LoadFocus.remains l (.done outcome))
        path s
      rw [hdone] at hafter
      exact LoadFrame.runOn_foldl_after_congr frames
        ((runOn_remains_closed path outcome _).trans hafter.symm)

/-- Every step leaves a piece to be done that comes to the same. -/
theorem result_next {p p' : LoadPoint} (hnext : l.next? p = some p') :
    p'.result l = p.result l := by
  obtain ⟨focus, frames, s⟩ := p
  cases focus with
  | task task =>
      cases task with
      | resource resource dir => exact Option.some.inj hnext ▸ result_begin resource dir frames s
      | document d path => exact Option.some.inj hnext ▸ result_checkDocument d path frames s
      | imports file items dir =>
          exact Option.some.inj hnext ▸ result_nextImport file items dir frames s
  | text path text => exact Option.some.inj hnext ▸ result_openText path text frames s
  | closed path outcome =>
      obtain rfl := Option.some.inj hnext
      exact result_done (.closed path outcome) frames (runOn_remains_closed path outcome s)
  | done outcome =>
      cases frames with
      | nil => exact nomatch hnext
      | cons frame frames => exact Option.some.inj hnext ▸ result_resume outcome frames s frame

theorem Steps.result_eq {p p' : LoadPoint} (h : l.Steps p p') : p'.result l = p.result l := by
  induction h with
  | refl => rfl
  | tail _ hnext ih => exact (result_next hnext).trans ih

end Loader

/-! ## The machine and the runs -/

namespace Loader

/-- The text of a document that passes the checks on its path and is new. -/
theorem next?_of_text {resource : String} {dir : Option Path} {s : Session} {path : Path}
    {text : String} (hadmits : l.Admits resource dir s path) (hnew : path ∉ s.loaded)
    (htext : l.textOf path = .ok text) (frames : List LoadFrame) :
    l.next? ⟨.task (.resource resource dir), frames, s⟩ =
      some ⟨.text path text, frames, s.record path⟩ := by
  simp only [next?, begin, hadmits.found, if_neg hadmits.fresh,
    if_neg (Nat.not_le.2 hadmits.room), if_neg hnew, htext]

theorem next?_of_accept {d : Document} (haccept : l.accept d = .ok ()) (path : Path)
    (frames : List LoadFrame) (s : Session) :
    l.next? ⟨.task (.document d path), frames, s⟩ =
      some ⟨.task (.imports d.file d.imports path.parent?), .own d :: frames, s⟩ := by
  simp only [next?, checkDocument, haccept]

theorem next?_of_import {file : String} {item : Json} {entry : Import}
    (hentry : Import.read file item = .ok entry) (rest : List Json) (dir : Option Path)
    (frames : List LoadFrame) (s : Session) :
    l.next? ⟨.task (.imports file (item :: rest) dir), frames, s⟩ =
      some ⟨.task (.resource entry.resource dir), .imports file entry rest dir :: frames, s⟩ := by
  simp only [next?, nextImport, hentry]

end Loader

open Loader in
/-- A run of a task under any frames comes back to the frames with its outcome. -/
theorem Runs.steps {task : LoadTask} {s s' : Session} {outcome : Except Failure Unit}
    {calls : List LoadCall} (h : Runs l task s outcome s' calls) (frames : List LoadFrame) :
    l.Steps ⟨.task task, frames, s⟩ ⟨.done outcome, frames, s'⟩ := by
  induction h generalizing frames with
  | notFound hpath => exact .single (by simp only [next?, begin, hpath])
  | cycle hpath hcycle => exact .single (by simp only [next?, begin, hpath, if_pos hcycle])
  | tooDeep hpath hfresh hroom =>
      exact .single (by simp only [next?, begin, hpath, if_neg hfresh, if_pos hroom])
  | known hadmits hloaded =>
      refine .single ?_
      simp only [next?, begin, hadmits.found, if_neg hadmits.fresh,
        if_neg (Nat.not_le.2 hadmits.room), if_pos hloaded]
  | unreadable hadmits hnew htext =>
      refine .single ?_
      simp only [next?, begin, hadmits.found, if_neg hadmits.fresh,
        if_neg (Nat.not_le.2 hadmits.room), if_neg hnew, htext]
  | malformed hadmits hnew htext hparse =>
      refine .head (next?_of_text hadmits hnew htext frames) (.single ?_)
      simp only [next?, openText, hparse]
  | empty hadmits hnew hempty =>
      obtain ⟨text, htext, hparse⟩ := documentAt_eq_ok_iff.1 hempty
      refine .head (next?_of_text hadmits hnew htext frames) (.single ?_)
      simp only [next?, openText, hparse]
  | @opened _ _ s path d outcome s' _ hadmits hnew hdocument _ ih =>
      obtain ⟨text, htext, hparse⟩ := documentAt_eq_ok_iff.1 hdocument
      have hopen : l.next? ⟨.text path text, frames, s.record path⟩ =
          some ⟨.task (.document d path), .close path :: frames, (s.record path).enter path⟩ := by
        simp only [next?, openText, hparse]
      -- the end of the document takes two steps
      have hclose : l.next? ⟨.done outcome, .close path :: frames, s'⟩ =
          some ⟨.closed path outcome, frames, { s' with inProgress := s'.inProgress.tail }⟩ := rfl
      exact .head (next?_of_text hadmits hnew htext frames)
        (.head hopen ((ih _).trans (.head hclose (.single rfl))))
  | refused haccept => exact .single (by simp only [next?, checkDocument, haccept])
  | @stopped _ path s _ _ _ haccept _ ih =>
      exact .head (next?_of_accept haccept path frames s) ((ih _).trans (.single rfl))
  | @merged _ path s _ _ _ _ haccept _ hown ih =>
      refine .head (next?_of_accept haccept path frames s) ((ih _).trans (.single ?_))
      simp only [next?, resume, hown]
  | done => exact .single rfl
  | badImport hentry => exact .single (by simp only [next?, nextImport, hentry])
  | @imported _ _ rest dir s _ _ _ _ _ _ hentry _ _ ih₁ ih₂ =>
      exact .head (next?_of_import hentry rest dir frames s)
        ((ih₁ _).trans (.head rfl (ih₂ frames)))
  | @ignored file _ rest dir s entry e s₁ _ _ _ _ hentry _ hignore hkind _ ih₁ ih₂ =>
      have hskip : l.next? ⟨.done (.error e), .imports file entry rest dir :: frames, s₁⟩ =
          some ⟨.task (.imports file rest dir), frames, s₁⟩ := by
        simp only [next?, resume, hignore, hkind, decide_true, Bool.and_self, if_true]
      exact .head (next?_of_import hentry rest dir frames s)
        ((ih₁ _).trans (.head hskip (ih₂ frames)))
  | @failed _ _ rest dir s entry e _ _ hentry _ hkeep ih =>
      -- the test of the machine is a Boolean one
      have hif : ¬ (entry.ignoreErrors && decide (e.kind = .imports)) = true :=
        fun h => hkeep (by simpa using h)
      refine .head (next?_of_import hentry rest dir frames s) ((ih _).trans (.single ?_))
      simp only [next?, resume, if_neg hif]

/-- Every task has a run from every session. -/
theorem LoadTask.hasRun (task : LoadTask) (s : Session) : task.HasRun l s := by
  have himports (file : String) (items : List Json) (dir : Option Path) :
      HasRun l (.imports file items dir) s :=
    hasRun_imports s.inProgress (fun resource s' _ => hasRun_resource resource dir s') file items s
      rfl
  cases task with
  | resource name dir => exact hasRun_resource name dir s
  | document d path => exact hasRun_document (himports d.file d.imports path.parent?)
  | imports file items dir => exact himports file items dir

/-- The machine works off a task as the step of the task does. -/
theorem LoadTask.steps_step (task : LoadTask) (frames : List LoadFrame) (s : Session) :
    l.Steps ⟨.task task, frames, s⟩
      ⟨.done (runOn (task.step l) s).1, frames, (runOn (task.step l) s).2⟩ := by
  obtain ⟨outcome, s', calls, hrun⟩ := task.hasRun (l := l) s
  rw [hrun.runOn_eq]
  exact hrun.steps frames

/-! ## Termination -/

namespace Loader

/-- The machine does not go on for ever from a point. -/
abbrev Halts (l : Loader Id) (p : LoadPoint) : Prop := Acc (fun q' q => l.next? q = some q') p

theorem Halts.of_steps {p p' : LoadPoint} (h : l.Halts p') (hsteps : l.Steps p p') : l.Halts p := by
  induction hsteps using Relation.ReflTransGen.head_induction_on with
  | refl => exact h
  | head hstep _ ih =>
      -- there is no other next point
      refine Acc.intro _ fun q hq => ?_
      obtain rfl := Option.some.inj (hstep.symm.trans hq)
      exact ih

theorem Halts.of_next {p p' : LoadPoint} (h : l.Halts p') (hnext : l.next? p = some p') :
    l.Halts p :=
  h.of_steps (.single hnext)

/-- An outcome ends all that waits for it, by induction on the frames. -/
theorem halts_done (outcome : Except Failure Unit) (frames : List LoadFrame) (s : Session) :
    l.Halts ⟨.done outcome, frames, s⟩ := by
  induction frames generalizing outcome s with
  | nil => exact Acc.intro _ fun q hq => nomatch hq
  | cons frame frames ih =>
      have htask (task : LoadTask) : l.Halts ⟨.task task, frames, s⟩ :=
        (ih _ _).of_steps (task.steps_step frames s)
      refine Halts.of_next ?_ rfl
      cases frame with
      | imports file entry rest dir =>
          cases outcome with
          | ok _ => exact htask _
          | error e =>
              rw [resume]
              split
              · exact htask _
              · exact ih _ _
      | own d =>
          cases outcome with
          | ok _ => exact ih _ _
          | error e => exact ih _ _
      | close path => exact (ih outcome _).of_next rfl

theorem halts_task (task : LoadTask) (frames : List LoadFrame) (s : Session) :
    l.Halts ⟨.task task, frames, s⟩ :=
  (halts_done _ frames _).of_steps (task.steps_step frames s)

/-- From no point does the machine go on for ever. -/
theorem wellFounded_next (l : Loader Id) : WellFounded fun q' q => l.next? q = some q' := by
  refine ⟨fun p => ?_⟩
  obtain ⟨focus, frames, s⟩ := p
  cases focus with
  | task task => exact halts_task task frames s
  | text path text =>
      refine Halts.of_next ?_ rfl
      rw [openText]
      cases Document.parse text path.text with
      | error e => exact halts_done _ _ _
      | ok parsed =>
          cases parsed with
          | none => exact halts_done _ _ _
          | some d => exact halts_task _ _ _
  | closed path outcome => exact (halts_done outcome _ _).of_next rfl
  | done outcome => exact halts_done outcome frames s

end Loader

end

end ServiceGraph
