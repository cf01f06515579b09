import Mathlib.Data.List.Perm.Lattice
import Mathlib.Logic.Relation

/-!
# Depth-first walks

`DepthFirst next seen pending pre post` says that the depth-first walk from the nodes of `pending`,
taken in order and without the nodes of `seen`, enters the nodes of `pre` in this order and leaves
the nodes of `post` in this order. The relation `next` lists the successors of a node. A walk
enters no node twice (`DepthFirst.nodup`), leaves what it enters (`DepthFirst.perm`), and there is
at most one of them (`DepthFirst.unique`). It sees all nodes of `pending`
(`DepthFirst.mem_of_pending`) and enters only nodes that these lead to
(`DepthFirst.exists_reflTransGen`).

`Layered next nodes` says that the successors of each node of a list stand behind it. Such a list is
closed under successors (`Layered.mem_of_successor`), and there is no cycle through it
(`Layered.acyclic`).
-/

set_option autoImplicit false

namespace ServiceGraph

universe u

variable {α : Type u}

/-- A depth-first walk: the nodes seen before, the nodes to walk from, the nodes entered and the
nodes left. -/
inductive DepthFirst (next : α → List α → Prop) :
    List α → List α → List α → List α → Prop
  | nil {seen : List α} : DepthFirst next seen [] [] []
  | skip {seen : List α} {x : α} {rest pre post : List α} (hseen : x ∈ seen)
      (hrest : DepthFirst next seen rest pre post) : DepthFirst next seen (x :: rest) pre post
  | visit {seen : List α} {x : α} {ys rest pre₁ post₁ pre₂ post₂ : List α} (hnew : x ∉ seen)
      (hnext : next x ys) (hinner : DepthFirst next (seen ++ [x]) ys pre₁ post₁)
      (hrest : DepthFirst next (seen ++ x :: pre₁) rest pre₂ post₂) :
      DepthFirst next seen (x :: rest) (x :: (pre₁ ++ pre₂)) (post₁ ++ x :: post₂)

/-- The edges of a relation that lists successors. -/
def Successor (next : α → List α → Prop) (x y : α) : Prop := ∃ ys, next x ys ∧ y ∈ ys

namespace DepthFirst

variable {next : α → List α → Prop} {seen pending pre post : List α}

/-- A walk from more nodes goes on where the walk from the first of them ended. -/
theorem append (h : DepthFirst next seen pending pre post) {pending' pre' post' : List α}
    (h' : DepthFirst next (seen ++ pre) pending' pre' post') :
    DepthFirst next seen (pending ++ pending') (pre ++ pre') (post ++ post') := by
  induction h generalizing pre' post' with
  | nil =>
      rw [List.append_nil] at h'
      exact h'
  | skip hseen _ ih => exact skip hseen (ih h')
  | @visit seen x ys rest pre₁ post₁ pre₂ post₂ hnew hnext hinner _ _ ih =>
      -- the walk of the further nodes has seen what the first one entered
      have hrest : DepthFirst next (seen ++ x :: pre₁) (rest ++ pending') (pre₂ ++ pre')
          (post₂ ++ post') := by
        apply ih
        simpa only [List.append_assoc, List.cons_append] using h'
      have hvisit := visit hnew hnext hinner hrest
      simpa only [List.append_assoc, List.cons_append] using hvisit

/-- A walk enters only nodes that were not seen. -/
theorem not_mem_seen (h : DepthFirst next seen pending pre post) {x : α} (hx : x ∈ pre) :
    x ∉ seen := by
  induction h with
  | nil => exact absurd hx List.not_mem_nil
  | skip _ _ ih => exact ih hx
  | @visit seen y ys rest pre₁ post₁ pre₂ post₂ hnew _ _ _ ih₁ ih₂ =>
      rcases List.mem_cons.1 hx with rfl | hx
      · exact hnew
      rcases List.mem_append.1 hx with hx | hx
      · exact fun hs => ih₁ hx (List.mem_append_left _ hs)
      · exact fun hs => ih₂ hx (List.mem_append_left _ hs)

/-- A walk enters no node twice. -/
theorem nodup (h : DepthFirst next seen pending pre post) : pre.Nodup := by
  induction h with
  | nil => exact List.nodup_nil
  | skip _ _ ih => exact ih
  | @visit seen x ys rest pre₁ post₁ pre₂ post₂ _ _ hinner hrest ih₁ ih₂ =>
      -- each part of the walk has seen the parts before it
      refine List.nodup_cons.2 ⟨fun hx => ?_, List.nodup_append.2 ⟨ih₁, ih₂, ?_⟩⟩
      · rcases List.mem_append.1 hx with hx | hx
        · exact hinner.not_mem_seen hx (by simp)
        · exact hrest.not_mem_seen hx (by simp)
      · rintro y hy z hz rfl
        exact hrest.not_mem_seen hz (by simp [hy])

/-- A walk leaves what it enters. -/
theorem perm (h : DepthFirst next seen pending pre post) : post.Perm pre := by
  induction h with
  | nil => exact List.Perm.refl _
  | skip _ _ ih => exact ih
  | visit _ _ _ _ ih₁ ih₂ => exact List.perm_middle.trans ((ih₁.append ih₂).cons _)

/-- A walk sees every node that it starts from. -/
theorem mem_of_pending (h : DepthFirst next seen pending pre post) {x : α} (hx : x ∈ pending) :
    x ∈ seen ∨ x ∈ pre := by
  induction h with
  | nil => exact absurd hx List.not_mem_nil
  | skip hseen _ ih =>
      rcases List.mem_cons.1 hx with rfl | hx
      · exact Or.inl hseen
      · exact ih hx
  | @visit seen y ys rest pre₁ post₁ pre₂ post₂ _ _ _ _ _ ih₂ =>
      rcases List.mem_cons.1 hx with rfl | hx
      · exact Or.inr List.mem_cons_self
      rcases ih₂ hx with hs | hp
      · rcases List.mem_append.1 hs with hs | hs
        · exact Or.inl hs
        · exact Or.inr (List.cons_subset_cons _ (List.subset_append_left _ _) hs)
      · exact Or.inr (List.mem_cons_of_mem _ (List.mem_append_right _ hp))

/-- A walk lists the successors of every node that it enters. -/
theorem exists_next (h : DepthFirst next seen pending pre post) {x : α} (hx : x ∈ pre) :
    ∃ ys, next x ys := by
  induction h with
  | nil => exact absurd hx List.not_mem_nil
  | skip _ _ ih => exact ih hx
  | visit _ hnext _ _ ih₁ ih₂ =>
      rcases List.mem_cons.1 hx with rfl | hx
      · exact ⟨_, hnext⟩
      · exact (List.mem_append.1 hx).elim ih₁ ih₂

/-- A walk enters only nodes that the nodes it starts from lead to. -/
theorem exists_reflTransGen (h : DepthFirst next seen pending pre post) {x : α} (hx : x ∈ pre) :
    ∃ y ∈ pending, Relation.ReflTransGen (Successor next) y x := by
  induction h with
  | nil => exact absurd hx List.not_mem_nil
  | skip _ _ ih =>
      obtain ⟨y, hy, hyx⟩ := ih hx
      exact ⟨y, List.mem_cons_of_mem _ hy, hyx⟩
  | @visit seen z ys rest pre₁ post₁ pre₂ post₂ _ hnext _ _ ih₁ ih₂ =>
      rcases List.mem_cons.1 hx with rfl | hx
      · exact ⟨x, List.mem_cons_self, .refl⟩
      rcases List.mem_append.1 hx with hx | hx
      · obtain ⟨y, hy, hyx⟩ := ih₁ hx
        exact ⟨z, List.mem_cons_self, hyx.head ⟨ys, hnext, hy⟩⟩
      · obtain ⟨y, hy, hyx⟩ := ih₂ hx
        exact ⟨y, List.mem_cons_of_mem _ hy, hyx⟩

/-- There is at most one walk when the successors of a node are determined. -/
theorem unique (hnext : ∀ x ys zs, next x ys → next x zs → ys = zs)
    (h : DepthFirst next seen pending pre post) {pre' post' : List α}
    (h' : DepthFirst next seen pending pre' post') : pre = pre' ∧ post = post' := by
  induction h generalizing pre' post' with
  | nil =>
      cases h'
      exact ⟨rfl, rfl⟩
  | skip hseen _ ih =>
      cases h' with
      | skip _ hrest => exact ih hrest
      | visit hnew => exact absurd hseen hnew
  | visit hnew hys _ _ ih₁ ih₂ =>
      cases h' with
      | skip hseen => exact absurd hseen hnew
      | visit _ hzs hinner hrest =>
          obtain rfl := hnext _ _ _ hys hzs
          obtain ⟨rfl, rfl⟩ := ih₁ hinner
          obtain ⟨rfl, rfl⟩ := ih₂ hrest
          exact ⟨rfl, rfl⟩

end DepthFirst

/-- No node occurs twice, and the successors of each node stand behind it. -/
def Layered (next : α → List α → Prop) : List α → Prop
  | [] => True
  | x :: older => x ∉ older ∧ (∀ y, Successor next x y → y ∈ older) ∧ Layered next older

namespace Layered

variable {next : α → List α → Prop}

theorem of_suffix {newer older : List α} (h : Layered next (newer ++ older)) :
    Layered next older := by
  induction newer with
  | nil => exact h
  | cons x rest ih => exact ih h.2.2

/-- The successors of the nodes of the list are in the list. -/
theorem mem_of_successor {nodes : List α} (h : Layered next nodes) {x y : α} (hx : x ∈ nodes)
    (hxy : Successor next x y) : y ∈ nodes := by
  obtain ⟨newer, older, rfl⟩ := List.append_of_mem hx
  have hx : Layered next (x :: older) := of_suffix h
  exact List.mem_append_right _ (List.mem_cons_of_mem _ (hx.2.1 y hxy))

/-- What a node of the list leads to stands behind it. -/
theorem mem_of_transGen {x y : α} {older : List α} (h : Layered next (x :: older))
    (hxy : Relation.TransGen (Successor next) x y) : y ∈ older := by
  -- along the path: the successors of a node of the rest stand in the rest
  induction hxy with
  | single hstep => exact h.2.1 _ hstep
  | @tail y z _ hstep ih =>
      obtain ⟨newer, oldest, rfl⟩ := List.append_of_mem ih
      have hy : Layered next (y :: oldest) := of_suffix h.2.2
      exact List.mem_append_right _ (List.mem_cons_of_mem _ (hy.2.1 z hstep))

/-- No node of the list leads back to itself. -/
theorem acyclic {nodes : List α} (h : Layered next nodes) {x : α} (hx : x ∈ nodes) :
    ¬ Relation.TransGen (Successor next) x x := by
  intro hcycle
  obtain ⟨newer, older, rfl⟩ := List.append_of_mem hx
  have hx : Layered next (x :: older) := of_suffix h
  exact hx.1 (mem_of_transGen hx hcycle)

end Layered

end ServiceGraph
