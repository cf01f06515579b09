import ServiceGraph.Loader

/-!
# The recursion of loading

A step of loading with a pure locator is a function from a session to an outcome and a session
(`Loading.runOn`). The laws of `Loading.runOn` take a step apart along its `do` block.

`Loader.loadWithin` counts the room that is left for nesting, and what it does depends on that
count alone. Since every load leaves the documents in progress as they were
(`Loader.inProgress_load`), the count can be read off the session at every call, and `Loader.load`
satisfies the equation without a count (`Loader.runOn_load`): after the checks on the path, a
document is merged by a `Loader.mergeDocument` whose imports are loaded by `Loader.load` itself.
-/

set_option autoImplicit false

namespace ServiceGraph

namespace Loading

variable {α β : Type}

/-- Runs a step of loading on a session. -/
def runOn (x : Loading Id α) (s : Session) : Except Failure α × Session :=
  Id.run (StateT.run x.run s)

theorem runOn_bind (x : Loading Id α) (f : α → Loading Id β) (s : Session) :
    runOn (x >>= f) s = match runOn x s with
      | (.ok a, s') => runOn (f a) s'
      | (.error e, s') => (.error e, s') := by
  simp only [runOn, ExceptT.run_bind, StateT.run_bind, Id.run_bind]
  rcases Id.run (StateT.run x.run s) with ⟨outcome, s'⟩
  cases outcome with
  | ok a => rfl
  | error e => rfl

theorem runOn_pure (a : α) (s : Session) : runOn (pure a) s = (.ok a, s) := rfl

theorem runOn_throw (e : Failure) (s : Session) :
    runOn (throw e : Loading Id α) s = (.error e, s) := rfl

theorem runOn_get (s : Session) : runOn get s = (.ok s, s) := rfl

theorem runOn_modify (f : Session → Session) (s : Session) :
    runOn (modify f) s = (.ok (), f s) := rfl

theorem runOn_liftExcept (x : Except Failure α) (s : Session) :
    runOn (liftExcept x) s = (x, s) := by
  cases x with
  | ok a => rfl
  | error e => rfl

theorem runOn_attempt (x : Loading Id α) (s : Session) :
    runOn (Loader.attempt x) s = (.ok (runOn x s).1, (runOn x s).2) := rfl

end Loading

namespace Session

/-- A document was read. -/
def record (s : Session) (path : Path) : Session := { s with graph := s.graph.addResource path }

end Session

namespace Loader

open Loading (runOn runOn_bind runOn_pure runOn_throw runOn_get runOn_modify runOn_liftExcept
  runOn_attempt)

variable (l : Loader Id)

/-- The path of a resource. -/
def pathOf (resource : String) (dir : Option Path) : Except Failure Path :=
  Id.run (l.locator.locate resource dir)

/-- The text at a path. -/
def textOf (path : Path) : Except Failure String := Id.run (l.locator.read path)

/-- The document at a path; `none` when the text there is empty. -/
def documentAt (path : Path) : Except Failure (Option Document) := do
  Document.parse (← l.textOf path) path.text

/-- The checks of a document that come before its imports. -/
def accept (d : Document) : Except Failure Unit := do
  d.checkParts
  checkExtensions l.extensions d

/-- Merges what a document says itself, its imports aside. -/
def mergeOwn (d : Document) (g : Graph) : Except Failure Unit × Graph :=
  (Graph.addServices d.file d.services).runOn
    ((g.addParameters d.parameters).addBlocks d.extensions)

/-! ## One step at a time -/

theorem runOn_ask_locate (resource : String) (dir : Option Path) (s : Session) :
    runOn (ask (l.locator.locate resource dir)) s = (l.pathOf resource dir, s) := rfl

theorem runOn_ask_read (path : Path) (s : Session) :
    runOn (ask (l.locator.read path)) s = (l.textOf path, s) := rfl

theorem runOn_locateNew (resource : String) (dir : Option Path) (s : Session) :
    runOn (l.locateNew resource dir) s =
      match l.pathOf resource dir with
      | .error e => (.error e, s)
      | .ok p =>
        if p ∈ s.inProgress then (.error (.importCycle (p :: s.inProgress).reverse), s)
        else (.ok p, s) := by
  rw [locateNew, runOn_bind, runOn_ask_locate]
  cases l.pathOf resource dir with
  | error e => rfl
  | ok p =>
      simp only [runOn_bind, runOn_get]
      by_cases h : p ∈ s.inProgress
      · simp only [if_pos h]
        rfl
      · simp only [if_neg h]
        rfl

/-- What loading the imports `value :: rest` does after the entry `value` was read. -/
theorem runOn_loadImports_cons (load : String → Loading Id Unit) (file : String) (value : Json)
    (rest : List Json) (s : Session) :
    runOn (loadImports load file (value :: rest)) s =
      match Import.read file value with
      | .error e => (.error e, s)
      | .ok entry =>
        match runOn (load entry.resource) s with
        | (.ok (), s') => runOn (loadImports load file rest) s'
        | (.error e, s') =>
          if entry.ignoreErrors && e.kind = .imports then runOn (loadImports load file rest) s'
          else (.error e, s') := by
  rw [loadImports, runOn_bind, runOn_liftExcept]
  cases Import.read file value with
  | error e => rfl
  | ok entry =>
      simp only [runOn_bind, runOn_attempt]
      rcases runOn (load entry.resource) s with ⟨outcome, s'⟩
      cases outcome with
      | ok _ => rfl
      | error e =>
          by_cases h : (entry.ignoreErrors && decide (e.kind = .imports)) = true
          · simp only [if_pos h]
          · simp only [if_neg h]
            rfl

theorem runOn_mergeDocument (load : String → Loading Id Unit) (d : Document) (s : Session) :
    runOn (l.mergeDocument load d) s =
      match l.accept d with
      | .error e => (.error e, s)
      | .ok () =>
        match runOn (loadImports load d.file d.imports) s with
        | (.error e, s') => (.error e, s')
        | (.ok (), s') =>
          ((mergeOwn d s'.graph).1, { s' with graph := (mergeOwn d s'.graph).2 }) := by
  rw [mergeDocument, runOn_bind, runOn_liftExcept, accept]
  cases d.checkParts with
  | error e => rfl
  | ok _ =>
      simp only [runOn_bind, runOn_liftExcept]
      cases checkExtensions l.extensions d with
      | error e => rfl
      | ok _ =>
          cases hrun : runOn (loadImports load d.file d.imports) s with
          | mk outcome s' =>
              cases outcome with
              | error e => simp only [hrun]; rfl
              | ok _ => simp only [hrun]; rfl

/-- What a load does with the document of a path that is neither in progress nor loaded, the
imports of the document loaded by `load`. -/
def openWith (load : String → Option Path → Loading Id Unit) (path : Path) (s : Session) :
    Except Failure Unit × Session :=
  match l.textOf path with
  | .error e => (.error e, s)
  | .ok text =>
    match Document.parse text path.text with
    | .error e => (.error e, s.record path)
    | .ok none => (.ok (), (s.record path).markLoaded path)
    | .ok (some d) =>
      let run := runOn (l.mergeDocument (fun resource => load resource path.parent?) d)
        ((s.record path).enter path)
      (run.1, run.2.leave path)

theorem runOn_loadWithin_zero (resource : String) (dir : Option Path) (s : Session) :
    runOn (l.loadWithin 0 resource dir) s =
      match l.pathOf resource dir with
      | .error e => (.error e, s)
      | .ok p =>
        if p ∈ s.inProgress then (.error (.importCycle (p :: s.inProgress).reverse), s)
        else (.error (.importDepthExceeded resource l.maxDepth), s) := by
  rw [loadWithin, runOn_bind, runOn_locateNew]
  cases l.pathOf resource dir with
  | error e => rfl
  | ok p =>
      by_cases h : p ∈ s.inProgress
      · simp only [if_pos h]
      · simp only [if_neg h, runOn_throw]

theorem runOn_loadWithin_succ (room : Nat) (resource : String) (dir : Option Path) (s : Session) :
    runOn (l.loadWithin (room + 1) resource dir) s =
      match l.pathOf resource dir with
      | .error e => (.error e, s)
      | .ok p =>
        if p ∈ s.inProgress then (.error (.importCycle (p :: s.inProgress).reverse), s)
        else if p ∈ s.loaded then (.ok (), s)
        else l.openWith (l.loadWithin room) p s := by
  rw [loadWithin, runOn_bind, runOn_locateNew]
  cases l.pathOf resource dir with
  | error e => rfl
  | ok p =>
      by_cases hp : p ∈ s.inProgress
      · simp only [if_pos hp]
      · simp only [if_neg hp, runOn_bind, runOn_get]
        by_cases hl : p ∈ s.loaded
        · simp only [if_pos hl, runOn_pure]
        · simp only [if_neg hl, runOn_bind, runOn_ask_read, openWith]
          cases l.textOf p with
          | error e => rfl
          | ok text =>
              simp only [runOn_modify, runOn_liftExcept]
              cases Document.parse text p.text with
              | error e => rfl
              | ok parsed =>
                  cases parsed with
                  | none => rfl
                  | some d =>
                      simp only [runOn_bind, runOn_modify, runOn_attempt, runOn_liftExcept]
                      rfl

/-! ## The documents in progress -/

section Balance

variable {load : String → Loading Id Unit}

theorem inProgress_loadImports
    (hload : ∀ resource s, (runOn (load resource) s).2.inProgress = s.inProgress) (file : String)
    (items : List Json) (s : Session) :
    (runOn (loadImports load file items) s).2.inProgress = s.inProgress := by
  induction items generalizing s with
  | nil => rfl
  | cons value rest ih =>
      rw [runOn_loadImports_cons]
      cases Import.read file value with
      | error e => rfl
      | ok entry =>
          have hfirst := hload entry.resource s
          rcases hrun : runOn (load entry.resource) s with ⟨outcome, s'⟩
          rw [hrun] at hfirst
          cases outcome with
          | ok _ =>
              simp only [hrun]
              exact (ih s').trans hfirst
          | error e =>
              simp only [hrun]
              split
              · exact (ih s').trans hfirst
              · exact hfirst

theorem inProgress_mergeDocument
    (hload : ∀ resource s, (runOn (load resource) s).2.inProgress = s.inProgress) (d : Document)
    (s : Session) : (runOn (l.mergeDocument load d) s).2.inProgress = s.inProgress := by
  rw [runOn_mergeDocument]
  cases l.accept d with
  | error e => rfl
  | ok _ =>
      have himports := inProgress_loadImports hload d.file d.imports s
      rcases hrun : runOn (loadImports load d.file d.imports) s with ⟨outcome, s'⟩
      rw [hrun] at himports
      cases outcome with
      | error e => exact himports
      | ok _ => exact himports

end Balance

theorem inProgress_openWith {load : String → Option Path → Loading Id Unit}
    (hload : ∀ resource dir s, (runOn (load resource dir) s).2.inProgress = s.inProgress)
    (path : Path) (s : Session) : (l.openWith load path s).2.inProgress = s.inProgress := by
  rw [openWith]
  cases l.textOf path with
  | error e => rfl
  | ok text =>
      cases hparse : Document.parse text path.text with
      | error e => simp only [hparse]; rfl
      | ok parsed =>
          cases parsed with
          | none => simp only [hparse]; rfl
          | some d =>
              have h := l.inProgress_mergeDocument
                (fun resource s => hload resource path.parent? s) d ((s.record path).enter path)
              simp only [hparse, Session.leave, Session.markLoaded, h]
              rfl

theorem inProgress_loadWithin (room : Nat) (resource : String) (dir : Option Path) (s : Session) :
    (runOn (l.loadWithin room resource dir) s).2.inProgress = s.inProgress := by
  induction room generalizing resource dir s with
  | zero =>
      rw [runOn_loadWithin_zero]
      cases l.pathOf resource dir with
      | error e => rfl
      | ok p => by_cases hp : p ∈ s.inProgress <;> simp only [hp, if_true, if_false]
  | succ room ih =>
      rw [runOn_loadWithin_succ]
      cases l.pathOf resource dir with
      | error e => rfl
      | ok p =>
          by_cases hp : p ∈ s.inProgress
          · simp only [if_pos hp]
          · by_cases hl : p ∈ s.loaded
            · simp only [if_neg hp, if_pos hl]
            · simp only [if_neg hp, if_neg hl]
              exact l.inProgress_openWith ih p s

/-- Every load leaves the documents in progress as they were. -/
theorem inProgress_load (resource : String) (dir : Option Path) (s : Session) :
    (runOn (l.load resource dir) s).2.inProgress = s.inProgress :=
  l.inProgress_loadWithin (l.maxDepth - s.inProgress.length) resource dir s

/-! ## The equation of a load -/

section Congruence

variable {load load' : String → Loading Id Unit} (stack : List Path)

/-- Loading imports asks for nested loads with the same documents in progress only. -/
theorem loadImports_congr
    (hload : ∀ resource s, (runOn (load resource) s).2.inProgress = s.inProgress)
    (heq : ∀ resource s, s.inProgress = stack → runOn (load resource) s = runOn (load' resource) s)
    (file : String) (items : List Json) (s : Session) (hs : s.inProgress = stack) :
    runOn (loadImports load file items) s = runOn (loadImports load' file items) s := by
  induction items generalizing s with
  | nil => rfl
  | cons value rest ih =>
      rw [runOn_loadImports_cons, runOn_loadImports_cons]
      cases Import.read file value with
      | error e => rfl
      | ok entry =>
          have hkeep := hload entry.resource s
          have hstep := heq entry.resource s hs
          rcases hrun : runOn (load' entry.resource) s with ⟨outcome, s'⟩
          rw [hrun] at hstep
          rw [hstep] at hkeep
          have hrest := ih s' (hkeep.trans hs)
          cases outcome with
          | ok _ => simp only [hstep, hrun, hrest]
          | error e => simp only [hstep, hrun, hrest]

theorem mergeDocument_congr
    (hload : ∀ resource s, (runOn (load resource) s).2.inProgress = s.inProgress)
    (heq : ∀ resource s, s.inProgress = stack → runOn (load resource) s = runOn (load' resource) s)
    (d : Document) (s : Session) (hs : s.inProgress = stack) :
    runOn (l.mergeDocument load d) s = runOn (l.mergeDocument load' d) s := by
  rw [runOn_mergeDocument, runOn_mergeDocument,
    loadImports_congr stack hload heq d.file d.imports s hs]

end Congruence

/-- A load with the room that the session leaves opens a document with nested loads of the same
kind. -/
theorem openWith_loadWithin (room : Nat) (path : Path) (s : Session)
    (hroom : l.maxDepth - s.inProgress.length = room + 1) :
    l.openWith (l.loadWithin room) path s = l.openWith l.load path s := by
  have hmerge : ∀ d : Document,
      runOn (l.mergeDocument (fun resource => l.loadWithin room resource path.parent?) d)
          ((s.record path).enter path) =
        runOn (l.mergeDocument (fun resource => l.load resource path.parent?) d)
          ((s.record path).enter path) := by
    intro d
    refine l.mergeDocument_congr (path :: s.inProgress)
      (fun resource s => l.inProgress_loadWithin room resource path.parent? s) ?_ d _ rfl
    -- a nested load finds one more document in progress, and so one room less
    intro resource s' hs'
    have hdepth : l.maxDepth - s'.inProgress.length = room := by
      rw [hs', List.length_cons]
      omega
    show _ = runOn (l.loadWithin (l.maxDepth - s'.inProgress.length) resource path.parent?) s'
    rw [hdepth]
  simp only [openWith, hmerge]

/-- The equation of a load: the checks on the path of the resource in their order, and then the
document with its imports loaded in the same way. -/
theorem runOn_load (resource : String) (dir : Option Path) (s : Session) :
    runOn (l.load resource dir) s =
      match l.pathOf resource dir with
      | .error e => (.error e, s)
      | .ok p =>
        if p ∈ s.inProgress then (.error (.importCycle (p :: s.inProgress).reverse), s)
        else if l.maxDepth ≤ s.inProgress.length then
          (.error (.importDepthExceeded resource l.maxDepth), s)
        else if p ∈ s.loaded then (.ok (), s)
        else l.openWith l.load p s := by
  have hload : runOn (l.load resource dir) s =
      runOn (l.loadWithin (l.maxDepth - s.inProgress.length) resource dir) s := rfl
  rw [hload]
  -- the room that the load starts with is the room that the session leaves
  cases hroom : l.maxDepth - s.inProgress.length with
  | zero =>
      have hdepth : l.maxDepth ≤ s.inProgress.length := by omega
      simp only [runOn_loadWithin_zero, if_pos hdepth]
  | succ room =>
      have hdepth : ¬ l.maxDepth ≤ s.inProgress.length := by omega
      simp only [runOn_loadWithin_succ, if_neg hdepth, l.openWith_loadWithin room _ s hroom]

theorem runOn_loadAll_cons (resource : String) (rest : List String) (s : Session) :
    runOn (l.loadAll (resource :: rest)) s = match runOn (l.load resource none) s with
      | (.ok (), s') => runOn (l.loadAll rest) s'
      | (.error e, s') => (.error e, s') := by
  rw [loadAll, Loading.runOn_bind]
  rcases runOn (l.load resource none) s with ⟨outcome, s'⟩
  cases outcome with
  | ok _ => rfl
  | error e => rfl

end Loader

end ServiceGraph
