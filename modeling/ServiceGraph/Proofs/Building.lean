import Mathlib.Data.List.Forall2
import ServiceGraph.Graph.Basic

/-!
# Steps of building

The laws of `Building.runOn`, which take a step that changes a graph apart along its `do` block.
What a step changed before it failed stays. A step that may fail succeeds for a list when it
succeeds for each item (`mapM_eq_ok_iff`, `forM_eq_ok_iff`), and otherwise fails as it does for the
first one that it fails for (`exists_split_of_mapM_eq_error`).
-/

set_option autoImplicit false

namespace ServiceGraph

theorem exists_left_of_forall₂ {α β : Type} {R : α → β → Prop} {xs : List α} {ys : List β}
    (h : List.Forall₂ R xs ys) {y : β} (hy : y ∈ ys) : ∃ x ∈ xs, R x y := by
  induction h with
  | nil => exact absurd hy List.not_mem_nil
  | @cons x y' xs ys hxy _ ih =>
      rcases List.mem_cons.1 hy with rfl | hy
      · exact ⟨x, List.mem_cons_self, hxy⟩
      · obtain ⟨x', hx', hxy'⟩ := ih hy
        exact ⟨x', List.mem_cons_of_mem x hx', hxy'⟩

theorem mapM_eq_ok_iff {ε α β : Type} {f : α → Except ε β} {xs : List α} {ys : List β} :
    xs.mapM f = .ok ys ↔ List.Forall₂ (fun x y => f x = .ok y) xs ys := by
  induction xs generalizing ys with
  | nil =>
      rw [List.mapM_nil, List.forall₂_nil_left_iff]
      exact ⟨fun h => (Except.ok.inj h).symm, fun h => congrArg Except.ok h.symm⟩
  | cons x rest ih =>
      rw [List.mapM_cons, List.forall₂_cons_left_iff]
      cases hx : f x with
      | error e => simp [bind, Except.bind]
      | ok y =>
          cases hrest : rest.mapM f with
          | error e =>
              have hnone : ∀ zs, ¬ List.Forall₂ (fun x y => f x = .ok y) rest zs :=
                fun zs hzs => nomatch hrest.symm.trans (ih.2 hzs)
              simp [bind, Except.bind, hnone]
          | ok zs =>
              simp only [bind, Except.bind, pure, Except.pure, Except.ok.injEq]
              constructor
              · rintro rfl
                exact ⟨y, zs, rfl, ih.1 hrest, rfl⟩
              · rintro ⟨y', zs', rfl, hzs', rfl⟩
                rw [Except.ok.inj (hrest.symm.trans (ih.2 hzs'))]

theorem mapM_congr_of_mem {ε α β : Type} {f f' : α → Except ε β} {xs : List α}
    (h : ∀ x ∈ xs, f x = f' x) : xs.mapM f = xs.mapM f' := by
  induction xs with
  | nil => rfl
  | cons x rest ih =>
      rw [List.mapM_cons, List.mapM_cons, h x List.mem_cons_self,
        ih fun x' hx' => h x' (List.mem_cons_of_mem x hx')]

theorem exists_split_of_mapM_eq_error {ε α β : Type} {f : α → Except ε β} {xs : List α} {e : ε}
    (h : xs.mapM f = .error e) :
    ∃ before x after, xs = before ++ x :: after ∧ (∀ y ∈ before, ∃ z, f y = .ok z) ∧
      f x = .error e := by
  induction xs with
  | nil => exact nomatch h
  | cons x rest ih =>
      rw [List.mapM_cons] at h
      cases hx : f x with
      | error e' =>
          rw [hx] at h
          obtain rfl := Except.error.inj h
          exact ⟨[], x, rest, rfl, fun _ hy => absurd hy List.not_mem_nil, hx⟩
      | ok z =>
          rw [hx] at h
          cases hrest : rest.mapM f with
          | error e' =>
              rw [hrest] at h
              obtain rfl := Except.error.inj h
              obtain ⟨before, x', after, rfl, hbefore, hfail⟩ := ih hrest
              refine ⟨x :: before, x', after, rfl, fun y hy => ?_, hfail⟩
              rcases List.mem_cons.1 hy with rfl | hy
              · exact ⟨z, hx⟩
              · exact hbefore y hy
          | ok zs =>
              rw [hrest] at h
              exact nomatch h

theorem exists_mem_of_mapM_eq_error {ε α β : Type} {f : α → Except ε β} {xs : List α} {e : ε}
    (h : xs.mapM f = .error e) : ∃ x ∈ xs, f x = .error e := by
  obtain ⟨before, x, after, rfl, -, hfail⟩ := exists_split_of_mapM_eq_error h
  exact ⟨x, List.mem_append_right _ List.mem_cons_self, hfail⟩

theorem forM_eq_ok_iff {ε α : Type} {f : α → Except ε Unit} {xs : List α} :
    xs.forM f = .ok () ↔ ∀ x ∈ xs, f x = .ok () := by
  induction xs with
  | nil => exact iff_of_true rfl fun _ hx => absurd hx List.not_mem_nil
  | cons x rest ih =>
      have hcons : (x :: rest).forM f = (f x).bind fun _ => rest.forM f := rfl
      rw [hcons, List.forall_mem_cons, ← ih]
      cases f x with
      | error e => exact iff_of_false nofun fun h => nomatch h.1
      | ok _ => exact (and_iff_right rfl).symm

namespace Building

variable {α β : Type}

theorem runOn_bind (x : Building α) (f : α → Building β) (g : Graph) :
    runOn (x >>= f) g = match runOn x g with
      | (.ok a, g') => runOn (f a) g'
      | (.error e, g') => (.error e, g') := by
  have hrun : ∀ {γ : Type} (y : Building γ) (h : Graph),
      runOn y h = Id.run (StateT.run y.run h) := fun _ _ => rfl
  simp only [hrun, ExceptT.run_bind, StateT.run_bind, Id.run_bind]
  rcases Id.run (StateT.run x.run g) with ⟨outcome, g'⟩
  cases outcome with
  | ok a => rfl
  | error e => rfl

theorem runOn_get (g : Graph) : runOn get g = (.ok g, g) := rfl

theorem runOn_liftExcept (x : Except Failure α) (g : Graph) : runOn (liftExcept x) g = (x, g) := by
  cases x with
  | ok a => rfl
  | error e => rfl

end Building

end ServiceGraph
