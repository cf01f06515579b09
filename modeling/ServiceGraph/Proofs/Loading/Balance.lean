import ServiceGraph.Proofs.Loading.Bookkeeping
import ServiceGraph.Proofs.Loading.Files
import ServiceGraph.Proofs.Loading.Machine

/-!
# The bookkeeping is balanced

At every point of a run of loads, whatever the locator finds, each document in progress is so once,
none of them counts as loaded, and there are no more of them than imports may nest
(`Session.Balanced`). What carries this is that the documents in progress are those which the
waiting frames are to close, and that a document is read, and marked, only while it is not in
progress (`LoadPoint.Balanced`). A step keeps it because there are few ways in which a step changes
the bookkeeping (`Loader.Books`).

`Loader.bookkeeping_balanced` states this together with the termination of loads.
-/

set_option autoImplicit false

namespace ServiceGraph

open Loading (runOn)

/-! ## Balanced points -/

/-- The bookkeeping of a session is in order, with a bound on the documents in progress. -/
structure Session.Balanced (maxDepth : Nat) (s : Session) : Prop where
  nodup : s.inProgress.Nodup
  bounded : s.inProgress.length ≤ maxDepth
  disjoint : ∀ path ∈ s.inProgress, path ∉ s.loaded

namespace Session.Balanced

variable {maxDepth : Nat} {s : Session} {path : Path}

/-- The bookkeeping does not depend on the graph. -/
theorem setGraph (h : s.Balanced maxDepth) (g : Graph) :
    ({ s with graph := g } : Session).Balanced maxDepth :=
  ⟨h.nodup, h.bounded, h.disjoint⟩

/-- A document that is not in progress may be marked as loaded. -/
theorem markLoaded (h : s.Balanced maxDepth) (hpath : path ∉ s.inProgress) :
    (s.markLoaded path).Balanced maxDepth where
  nodup := h.nodup
  bounded := h.bounded
  disjoint := by
    intro p hp hmarked
    rcases Session.mem_markLoaded_iff.1 hmarked with rfl | hloaded
    · exact hpath hp
    · exact h.disjoint p hp hloaded

/-- A new document may be entered when there is room. -/
theorem enter (h : s.Balanced maxDepth) (hfresh : path ∉ s.inProgress) (hnew : path ∉ s.loaded)
    (hroom : s.inProgress.length < maxDepth) : (s.enter path).Balanced maxDepth where
  nodup := List.nodup_cons.2 ⟨hfresh, h.nodup⟩
  bounded := hroom
  disjoint := by
    intro p hp
    rcases List.mem_cons.1 hp with rfl | hp
    · exact hnew
    · exact h.disjoint p hp

/-- The innermost document may be taken out. -/
theorem tail (h : s.Balanced maxDepth) :
    ({ s with inProgress := s.inProgress.tail } : Session).Balanced maxDepth where
  nodup := h.nodup.tail
  bounded := Nat.le_trans (List.tail_sublist s.inProgress).length_le h.bounded
  disjoint := by
    intro p hp
    exact h.disjoint p (List.mem_of_mem_tail hp)

end Session.Balanced

/-- The documents that wait to be closed, innermost first. -/
def LoadFrame.toClose : List LoadFrame → List Path
  | [] => []
  | .close path :: frames => path :: toClose frames
  | .imports .. :: frames => toClose frames
  | .own _ :: frames => toClose frames

/-- What holds of the document that the loader is about to open or to mark. -/
def LoadFocus.Ready (maxDepth : Nat) (s : Session) : LoadFocus → Prop
  | .text path _ => path ∉ s.inProgress ∧ path ∉ s.loaded ∧ s.inProgress.length < maxDepth
  | .closed path _ => path ∉ s.inProgress
  | .task _ => True
  | .done _ => True

/-- A point with its bookkeeping in order: the documents in progress are those which wait to be
closed. -/
structure LoadPoint.Balanced (maxDepth : Nat) (p : LoadPoint) : Prop where
  session : p.session.Balanced maxDepth
  stack : p.session.inProgress = LoadFrame.toClose p.frames
  focus : p.focus.Ready maxDepth p.session

/-! ## Steps -/

namespace Loader

variable {l : Loader Id}

/-- The ways in which a step changes the bookkeeping. -/
inductive Books (l : Loader Id) : LoadPoint → LoadPoint → Prop
  /-- Not at all: no document is opened or closed. -/
  | keep {focus focus' frames frames' s} (g : Graph)
      (hfocus : ∀ maxDepth s, focus'.Ready maxDepth s)
      (hframes : LoadFrame.toClose frames' = LoadFrame.toClose frames) :
      Books l ⟨focus, frames, s⟩ ⟨focus', frames', { s with graph := g }⟩
  /-- A document is read, after the checks on its path. -/
  | read {resource dir frames s path text} (hadmits : l.Admits resource dir s path)
      (hnew : path ∉ s.loaded) :
      Books l ⟨.task (.resource resource dir), frames, s⟩ ⟨.text path text, frames, s.record path⟩
  /-- An empty document is marked. -/
  | skip {path text outcome frames s} :
      Books l ⟨.text path text, frames, s⟩ ⟨.done outcome, frames, s.markLoaded path⟩
  | enter {path text d frames s} :
      Books l ⟨.text path text, frames, s⟩
        ⟨.task (.document d path), .close path :: frames, s.enter path⟩
  | close {path outcome frames s} :
      Books l ⟨.done outcome, .close path :: frames, s⟩
        ⟨.closed path outcome, frames, { s with inProgress := s.inProgress.tail }⟩
  | mark {path outcome frames s} :
      Books l ⟨.closed path outcome, frames, s⟩ ⟨.done outcome, frames, s.markLoaded path⟩

theorem Books.to_task {focus : LoadFocus} {frames frames' : List LoadFrame} {s : Session}
    (task : LoadTask)
    (hframes : LoadFrame.toClose frames' = LoadFrame.toClose frames) :
    Books l ⟨focus, frames, s⟩ ⟨.task task, frames', s⟩ :=
  .keep s.graph (fun _ _ => trivial) hframes

theorem Books.to_done {focus : LoadFocus} {frames frames' : List LoadFrame} {s : Session}
    (outcome : Except Failure Unit)
    (hframes : LoadFrame.toClose frames' = LoadFrame.toClose frames) :
    Books l ⟨focus, frames, s⟩ ⟨.done outcome, frames', s⟩ :=
  .keep s.graph (fun _ _ => trivial) hframes

theorem books_begin (resource : String) (dir : Option Path) (frames : List LoadFrame)
    (s : Session) :
    Books l ⟨.task (.resource resource dir), frames, s⟩ (l.begin resource dir frames s) := by
  rw [Loader.begin]
  cases hpath : l.pathOf resource dir with
  | error e => exact .to_done _ rfl
  | ok path =>
      by_cases hcycle : path ∈ s.inProgress
      · simp only [if_pos hcycle]
        exact .to_done _ rfl
      by_cases hdepth : l.maxDepth ≤ s.inProgress.length
      · simp only [if_neg hcycle, if_pos hdepth]
        exact .to_done _ rfl
      by_cases hloaded : path ∈ s.loaded
      · simp only [if_neg hcycle, if_neg hdepth, if_pos hloaded]
        exact .to_done _ rfl
      simp only [if_neg hcycle, if_neg hdepth, if_neg hloaded]
      cases l.textOf path with
      | error e => exact .to_done _ rfl
      | ok text => exact .read ⟨hpath, hcycle, Nat.lt_of_not_le hdepth⟩ hloaded

theorem books_openText (path : Path) (text : String) (frames : List LoadFrame) (s : Session) :
    Books l ⟨.text path text, frames, s⟩ (Loader.openText path text frames s) := by
  rw [Loader.openText]
  cases Document.parse text path.text with
  | error e => exact .to_done _ rfl
  | ok parsed =>
      cases parsed with
      | none => exact .skip
      | some d => exact .enter

theorem books_checkDocument (d : Document) (path : Path) (frames : List LoadFrame) (s : Session) :
    Books l ⟨.task (.document d path), frames, s⟩ (l.checkDocument d path frames s) := by
  rw [Loader.checkDocument]
  cases l.accept d with
  | error e => exact .to_done _ rfl
  | ok _ => exact .to_task _ rfl

theorem books_nextImport (file : String) (items : List Json) (dir : Option Path)
    (frames : List LoadFrame) (s : Session) :
    Books l ⟨.task (.imports file items dir), frames, s⟩
      (Loader.nextImport file items dir frames s) := by
  cases items with
  | nil => exact .to_done _ rfl
  | cons item rest =>
      rw [Loader.nextImport]
      cases Import.read file item with
      | error e => exact .to_done _ rfl
      | ok entry => exact .to_task _ rfl

theorem books_resume (outcome : Except Failure Unit) (frames : List LoadFrame) (s : Session)
    (frame : LoadFrame) :
    Books l ⟨.done outcome, frame :: frames, s⟩ (Loader.resume outcome frames s frame) := by
  cases frame with
  | imports file entry rest dir =>
      cases outcome with
      | ok _ => exact .to_task _ rfl
      | error e =>
          rw [Loader.resume]
          split
          · exact .to_task _ rfl
          · exact .to_done _ rfl
  | own d =>
      cases outcome with
      | ok _ => exact .keep _ (fun _ _ => trivial) rfl
      | error e => exact .to_done _ rfl
  | close path => exact .close

/-- Every step changes the bookkeeping in one of these ways. -/
theorem books_of_next {p p' : LoadPoint} (hnext : l.next? p = some p') : l.Books p p' := by
  obtain ⟨focus, frames, s⟩ := p
  cases focus with
  | task task =>
      cases task with
      | resource resource dir => exact Option.some.inj hnext ▸ books_begin resource dir frames s
      | document d path => exact Option.some.inj hnext ▸ books_checkDocument d path frames s
      | imports file items dir =>
          exact Option.some.inj hnext ▸ books_nextImport file items dir frames s
  | text path text => exact Option.some.inj hnext ▸ books_openText path text frames s
  | closed path outcome => exact Option.some.inj hnext ▸ .mark
  | done outcome =>
      cases frames with
      | nil => exact nomatch hnext
      | cons frame frames => exact Option.some.inj hnext ▸ books_resume outcome frames s frame

/-- Every step keeps the bookkeeping in order. -/
theorem Books.balanced {p p' : LoadPoint} (h : l.Books p p') (hp : p.Balanced l.maxDepth) :
    p'.Balanced l.maxDepth := by
  obtain ⟨hsession, hstack, hready⟩ := hp
  cases h with
  | keep g hfocus hframes =>
      exact ⟨hsession.setGraph g, hstack.trans hframes.symm, hfocus _ _⟩
  | read hadmits hnew =>
      exact ⟨hsession.setGraph _, hstack, hadmits.fresh, hnew, hadmits.room⟩
  | skip =>
      obtain ⟨hfresh, -, -⟩ := hready
      exact ⟨hsession.markLoaded hfresh, hstack, trivial⟩
  | @enter path _ _ _ _ =>
      obtain ⟨hfresh, hnew, hroom⟩ := hready
      exact ⟨hsession.enter hfresh hnew hroom, congrArg (path :: ·) hstack, trivial⟩
  | @close path _ frames s =>
      -- the document to be closed is the innermost one, and stands nowhere else
      have hinner : s.inProgress = path :: LoadFrame.toClose frames := hstack
      have hrest : s.inProgress.tail = LoadFrame.toClose frames := by
        rw [hinner, List.tail_cons]
      refine ⟨hsession.tail, hrest, ?_⟩
      have hnodup := hsession.nodup
      rw [hinner, List.nodup_cons, ← hrest] at hnodup
      exact hnodup.1
  | mark => exact ⟨hsession.markLoaded hready, hstack, trivial⟩

/-- No step takes a mark away. -/
theorem Books.loaded_suffix {p p' : LoadPoint} (h : l.Books p p') :
    p.session.loaded <:+ p'.session.loaded := by
  cases h with
  | skip | mark => exact Session.loaded_suffix_markLoaded _ _
  | keep | read | enter | close => exact List.suffix_refl _

/-! ## Runs of loads -/

/-- How the points of a run of loads follow each other: a load takes a step, with the registry that
it was handed, or it has ended and the next load is called, on any graph. -/
inductive Proceeds (l : Loader Id) : LoadPoint → LoadPoint → Prop
  | step {p p' : LoadPoint} (registry : ExtensionRegistry)
      (hnext : { l with extensions := registry }.next? p = some p') : Proceeds l p p'
  | call {outcome : Except Failure Unit} {s : Session} (resource : String) (dir : Option Path)
      (g : Graph) :
      Proceeds l ⟨.done outcome, [], s⟩ ⟨.task (.resource resource dir), [], { s with graph := g }⟩

/-- The points of the runs of loads that begin without any document in progress or loaded. -/
def Visits (l : Loader Id) (p : LoadPoint) : Prop :=
  Relation.ReflTransGen l.Proceeds ⟨.done (.ok ()), [], {}⟩ p

theorem Proceeds.balanced {p p' : LoadPoint} (h : l.Proceeds p p') (hp : p.Balanced l.maxDepth) :
    p'.Balanced l.maxDepth := by
  cases h with
  | step registry hnext => exact (books_of_next hnext).balanced hp
  | call resource dir g =>
      obtain ⟨hsession, hstack, -⟩ := hp
      exact ⟨hsession.setGraph g, hstack, trivial⟩

theorem Proceeds.loaded_suffix {p p' : LoadPoint} (h : l.Proceeds p p') :
    p.session.loaded <:+ p'.session.loaded := by
  cases h with
  | step registry hnext => exact (books_of_next hnext).loaded_suffix
  | call resource dir g => exact List.suffix_refl _

theorem Visits.balanced {p : LoadPoint} (h : l.Visits p) : p.Balanced l.maxDepth := by
  induction h with
  | refl =>
      have hempty : ({} : Session).Balanced l.maxDepth :=
        ⟨List.nodup_nil, Nat.zero_le _, fun _ h => absurd h List.not_mem_nil⟩
      exact ⟨hempty, rfl, trivial⟩
  | tail _ hproceeds ih => exact hproceeds.balanced ih

/-- The bookkeeping of the loader is balanced and bounds the recursion, whatever the locator finds.
From no point does a load go on for ever. At every point of a run of loads no document is in
progress twice, at most `maxDepth` of them are, none of these counts as loaded, and they are those
which wait to be closed. What counts as loaded does so at every later point. A load, nested or not,
comes back to what waits for it with the outcome and the session of `Loader.load`, and with the
documents in progress that it found. And between its ends it is at points of `Loader.load`: from
each of them the code that remains to be run comes to the same outcome and session. -/
theorem bookkeeping_balanced (l : Loader Id) :
    (WellFounded fun p' p : LoadPoint => l.next? p = some p') ∧
    (∀ p, l.Visits p → p.session.inProgress.Nodup ∧ p.session.inProgress.length ≤ l.maxDepth ∧
      (∀ path ∈ p.session.inProgress, path ∉ p.session.loaded) ∧
      p.session.inProgress = LoadFrame.toClose p.frames) ∧
    (∀ p p', Relation.ReflTransGen l.Proceeds p p' →
      p.session.loaded <:+ p'.session.loaded) ∧
    (∀ resource dir frames s, ∃ outcome s',
      runOn (l.load resource dir) s = (outcome, s') ∧
      l.Steps ⟨.task (.resource resource dir), frames, s⟩ ⟨.done outcome, frames, s'⟩ ∧
      s'.inProgress = s.inProgress) ∧
    ∀ p p', l.Steps p p' → p'.result l = p.result l := by
  refine ⟨l.wellFounded_next, ?_, ?_, ?_, fun p p' hsteps => hsteps.result_eq⟩
  · intro p hvisits
    obtain ⟨⟨hnodup, hbounded, hdisjoint⟩, hstack, -⟩ := hvisits.balanced
    exact ⟨hnodup, hbounded, hdisjoint, hstack⟩
  · intro p p' hproceeds
    induction hproceeds with
    | refl => exact List.suffix_refl _
    | tail _ hproceeds ih => exact ih.trans hproceeds.loaded_suffix
  · intro resource dir frames s
    exact ⟨_, _, rfl, LoadTask.steps_step (.resource resource dir) frames s,
      l.inProgress_load resource dir s⟩

/-- A loader that finds a new document for every import. -/
def endless : Loader Id where
  locator := {
    locate := fun resource dir => .ok ((dir.getD ⟨"/"⟩).join ⟨resource⟩)
    read := fun _ =>
      .ok (Json.object [("imports", .array [MemoryFiles.importing "a/b.json"])]).compact }
  maxDepth := 3

example : (runOn (endless.load "a/b.json" none) {}).1 = .error (.importDepthExceeded "a/b.json" 3) ∧
    (runOn (endless.load "a/b.json" none) {}).2.loaded =
      [⟨"/a/b.json"⟩, ⟨"/a/a/b.json"⟩, ⟨"/a/a/a/b.json"⟩] := by
  decide +kernel

end Loader

end ServiceGraph
