import Mathlib.Tactic.Choose
import ServiceGraph.Loader

/-!
# Invariants of loading

A locator may look at the world outside and may change it, so loading runs in any lawful monad.
`Ensures p x` says that every result of `x` has the property `p`, and `Loading.Keeps p x` that the
step `x` keeps a property `p` of the graph of the session in every result, failures included.

A property is kept by loading when the three ways in which a load changes the graph keep it
(`Loader.Preserves`): a document is recorded, a document that passed its checks adds its parameters
and blocks, and services are added. The induction is on the room left for nesting
(`Loader.Preserves.keeps_load`).
-/

set_option autoImplicit false

namespace ServiceGraph

/-! ## Results of computations -/

/-- Every result of a computation has a property: the computation comes of one whose results carry
proofs of it. -/
def Ensures {m : Type → Type} [Monad m] {α : Type} (p : α → Prop) (x : m α) : Prop :=
  ∃ y : m {a // p a}, Subtype.val <$> y = x

namespace Ensures

variable {α β : Type}

/-- A pure computation has one result. -/
theorem id_iff {p : α → Prop} {x : Id α} : Ensures p x ↔ p x.run := by
  constructor
  · rintro ⟨y, rfl⟩
    exact y.run.2
  · intro h
    exact ⟨pure ⟨x.run, h⟩, rfl⟩

variable {m : Type → Type} [Monad m] [LawfulMonad m] {p : α → Prop} {q : β → Prop}

theorem of_forall (h : ∀ a, p a) (x : m α) : Ensures p x := by
  refine ⟨(fun a => ⟨a, h a⟩) <$> x, ?_⟩
  rw [← comp_map]
  exact id_map x

theorem pure {a : α} (h : p a) : Ensures (m := m) p (pure a) :=
  ⟨Pure.pure ⟨a, h⟩, map_pure _ _⟩

theorem imp {p' : α → Prop} {x : m α} (h : Ensures p x) (himp : ∀ a, p a → p' a) :
    Ensures p' x := by
  obtain ⟨y, rfl⟩ := h
  refine ⟨(fun a => ⟨a.1, himp a.1 a.2⟩) <$> y, ?_⟩
  rw [← comp_map]
  rfl

theorem bind {x : m α} {f : α → m β} (hx : Ensures p x) (hf : ∀ a, p a → Ensures q (f a)) :
    Ensures q (x >>= f) := by
  obtain ⟨y, rfl⟩ := hx
  choose z hz using hf
  refine ⟨y >>= fun a => z a.1 a.2, ?_⟩
  rw [map_bind, bind_map_left]
  exact congrArg _ (funext fun a => hz a.1 a.2)

end Ensures

/-! ## Steps of loading -/

namespace Loading

variable {m : Type → Type} [Monad m] {α β : Type} {p : Graph → Prop}

/-- A step keeps a property of the graph of the session, whatever its result. -/
def Keeps (p : Graph → Prop) (x : Loading m α) : Prop :=
  ∀ s : Session, p s.graph → Ensures (fun result => p result.2.graph) (x.run.run s)

variable [LawfulMonad m]

/-- A step with one result, which does not depend on the world outside. -/
theorem keeps_of_run_eq {x : Loading m α} {outcome : Session → Except Failure α}
    {f : Session → Session} (hrun : ∀ s, x.run.run s = pure (outcome s, f s))
    (hkeep : ∀ s : Session, p s.graph → p (f s).graph) : Keeps p x := by
  intro s hs
  rw [hrun s]
  exact .pure (hkeep s hs)

theorem keeps_pure (a : α) : Keeps p (pure a : Loading m α) :=
  keeps_of_run_eq (fun _ => rfl) fun _ hs => hs

theorem keeps_throw (e : Failure) : Keeps p (throw e : Loading m α) :=
  keeps_of_run_eq (fun _ => rfl) fun _ hs => hs

/-- A step that reads or changes the session alone. -/
theorem keeps_lift {x : StateT Session m α} {a : Session → α} {f : Session → Session}
    (hrun : ∀ s, x.run s = pure (a s, f s))
    (hkeep : ∀ s : Session, p s.graph → p (f s).graph) :
    Keeps p (ExceptT.lift x : Loading m α) := by
  have hlift (s : Session) :
      (ExceptT.lift x : Loading m α).run.run s = pure (Except.ok (a s), f s) := by
    show StateT.run (Except.ok <$> x) s = _
    rw [StateT.run_map, hrun s, map_pure]
  exact keeps_of_run_eq hlift hkeep

theorem keeps_get : Keeps p (get : Loading m Session) :=
  keeps_lift (x := get) (fun s => StateT.run_get s) fun _ hs => hs

theorem keeps_modify {f : Session → Session}
    (hkeep : ∀ s : Session, p s.graph → p (f s).graph) :
    Keeps p (modify f : Loading m PUnit) :=
  keeps_lift (x := modify f) (fun s => StateT.run_modify f s) hkeep

theorem keeps_liftExcept (x : Except Failure α) : Keeps p (liftExcept x : Loading m α) := by
  cases x with
  | error e => exact keeps_throw e
  | ok a => exact keeps_pure a

/-- A step of building that keeps the property. -/
theorem keeps_build {x : Building α} (hkeep : ∀ g : Graph, p g → p (x.runOn g).2) :
    Keeps p (Loader.build x : Loading m α) :=
  keeps_of_run_eq (fun _ => rfl) fun s => hkeep s.graph

/-- What the locator answers does not matter, and it does not see the session. -/
theorem keeps_ask (x : m (Except Failure α)) : Keeps p (Loader.ask x) := by
  intro s hs
  have hrun : (Loader.ask x).run.run s = x >>= fun answer => pure (answer, s) := rfl
  rw [hrun]
  exact (Ensures.of_forall (fun _ => trivial) x).bind fun _ _ => .pure hs

namespace Keeps

theorem bind {x : Loading m α} {f : α → Loading m β} (hx : Keeps p x)
    (hf : ∀ a, Keeps p (f a)) : Keeps p (x >>= f) := by
  intro s hs
  rw [ExceptT.run_bind, StateT.run_bind]
  refine (hx s hs).bind ?_
  rintro ⟨outcome, s'⟩ hs'
  cases outcome with
  | error e => exact .pure hs'
  | ok a => exact hf a s' hs'

/-- What follows a check may rely on it. -/
theorem bind_liftExcept {x : Except Failure α} {f : α → Loading m β}
    (hf : ∀ a, x = .ok a → Keeps p (f a)) : Keeps p (liftExcept x >>= f) := by
  cases x with
  | error e =>
      have hrun (s : Session) :
          ((liftExcept (.error e) : Loading m α) >>= f).run.run s = pure (.error e, s) := by
        rw [ExceptT.run_bind, StateT.run_bind]
        exact pure_bind _ _
      exact keeps_of_run_eq hrun fun _ hs => hs
  | ok a =>
      have hpure : (liftExcept (.ok a : Except Failure α) : Loading m α) >>= f = f a :=
        pure_bind a f
      rw [hpure]
      exact hf a rfl

theorem attempt {x : Loading m α} (hx : Keeps p x) : Keeps p (Loader.attempt x) := by
  intro s hs
  have hrun : (Loader.attempt x).run.run s =
      x.run.run s >>= fun result => pure (Except.ok result.1, result.2) := by
    show StateT.run (Except.ok <$> x.run) s = _
    rw [StateT.run_map]
    exact (bind_pure_comp _ _).symm
  rw [hrun]
  exact (hx s hs).bind fun _ hs' => .pure hs'

end Keeps

end Loading

/-! ## The loader -/

/-- The three ways in which a load changes the graph keep a property. -/
structure Loader.Preserves {m : Type → Type} (l : Loader m) (p : Graph → Prop) : Prop where
  recorded (path : Path) (g : Graph) : p g → p (g.addResource path)
  /-- The parameters and blocks are those of a document that passed its checks. -/
  parts (d : Document) (g : Graph) : Loader.checkExtensions l.extensions d = .ok () → p g →
    p ((g.addParameters d.parameters).addBlocks d.extensions)
  services (file : String) (services : List (String × Json)) (g : Graph) : p g →
    p ((Graph.addServices file services).runOn g).2

namespace Loader

open Loading

variable {m : Type → Type} [Monad m] [LawfulMonad m] {p : Graph → Prop}

theorem keeps_loadImports {load : String → Loading m Unit} (hload : ∀ name, Keeps p (load name))
    (file : String) (items : List Json) : Keeps p (loadImports load file items) := by
  induction items with
  | nil => exact keeps_pure ()
  | cons item rest ih =>
      rw [loadImports]
      refine (keeps_liftExcept _).bind fun entry => ?_
      refine (hload entry.resource).attempt.bind fun outcome => ?_
      -- a failure that is not left out ends the imports
      cases outcome with
      | ok _ => exact ih
      | error e =>
          dsimp only
          split
          · exact ih
          · exact (keeps_throw e).bind fun _ => ih

theorem keeps_locateNew (l : Loader m) (resource : String) (dir : Option Path) :
    Keeps p (l.locateNew resource dir) := by
  rw [locateNew]
  refine (keeps_ask _).bind fun path => keeps_get.bind fun s => ?_
  dsimp only
  split
  · exact (keeps_throw _).bind fun _ => keeps_pure path
  · exact keeps_pure path

namespace Preserves

variable {l : Loader m}

theorem keeps_mergeDocument (h : l.Preserves p) {load : String → Loading m Unit}
    (hload : ∀ name, Keeps p (load name)) (d : Document) : Keeps p (l.mergeDocument load d) := by
  rw [mergeDocument]
  refine (keeps_liftExcept _).bind fun _ => Keeps.bind_liftExcept fun _ hcheck => ?_
  refine (keeps_loadImports hload d.file d.imports).bind fun _ => ?_
  refine Keeps.bind (keeps_build fun g => h.parts d g hcheck) fun _ => ?_
  exact keeps_build (h.services d.file d.services)

/-- By induction on the room left for nesting: the imports of a document have less of it. -/
theorem keeps_loadWithin (h : l.Preserves p) (room : Nat) (resource : String) (dir : Option Path) :
    Keeps p (l.loadWithin room resource dir) := by
  induction room generalizing resource dir with
  | zero =>
      rw [loadWithin]
      exact (l.keeps_locateNew resource dir).bind fun _ => keeps_throw _
  | succ room ih =>
      rw [loadWithin]
      refine (l.keeps_locateNew resource dir).bind fun path => keeps_get.bind fun s => ?_
      split
      · exact keeps_pure ()
      · refine (keeps_ask _).bind fun text => ?_
        refine (keeps_modify fun s => h.recorded path s.graph).bind fun _ => ?_
        refine (keeps_liftExcept _).bind fun found => ?_
        cases found with
        | none => exact keeps_modify fun _ hs => hs
        | some d =>
            have henter : Keeps p (modify fun s => s.enter path : Loading m PUnit) :=
              keeps_modify fun _ hs => hs
            have hleave : Keeps p (modify fun s => s.leave path : Loading m PUnit) :=
              keeps_modify fun _ hs => hs
            have himports (name : String) := ih name path.parent?
            refine henter.bind fun _ => ?_
            refine (h.keeps_mergeDocument himports d).attempt.bind fun outcome => ?_
            exact hleave.bind fun _ => keeps_liftExcept outcome

theorem keeps_load (h : l.Preserves p) (resource : String) (dir : Option Path) :
    Keeps p (l.load resource dir) := by
  rw [load]
  exact keeps_get.bind fun s => h.keeps_loadWithin (l.maxDepth - s.inProgress.length) resource dir

theorem keeps_loadAll (h : l.Preserves p) (resources : List String) :
    Keeps p (l.loadAll resources) := by
  induction resources with
  | nil => exact keeps_pure ()
  | cons resource rest ih => exact (h.keeps_load resource none).bind fun _ => ih

end Preserves

end Loader

end ServiceGraph
