import ServiceGraph.Proofs.Loading.Additions
import ServiceGraph.Proofs.Loading.Run

/-!
# What every run keeps

Whatever its outcome, a run only adds to the graph (`Runs.adds`) and to the documents that were
loaded (`Runs.loaded_suffix`), and it never marks a document as loaded that is in progress
(`Runs.not_mem_loaded`).
-/

set_option autoImplicit false

namespace ServiceGraph

theorem Session.mem_markLoaded_iff {s : Session} {path x : Path} :
    x ∈ (s.markLoaded path).loaded ↔ x = path ∨ x ∈ s.loaded := by
  rw [Session.markLoaded]
  by_cases h : path ∈ s.loaded
  · simp only [if_pos h]
    exact ⟨Or.inr, fun hx => hx.elim (fun he => he ▸ h) id⟩
  · simp only [if_neg h, List.mem_cons]

theorem Session.mem_leave_iff {s : Session} {path x : Path} :
    x ∈ (s.leave path).loaded ↔ x = path ∨ x ∈ s.loaded :=
  Session.mem_markLoaded_iff

theorem Session.loaded_suffix_markLoaded (s : Session) (path : Path) :
    s.loaded <:+ (s.markLoaded path).loaded := by
  rw [Session.markLoaded]
  by_cases h : path ∈ s.loaded
  · simp only [if_pos h]
    exact List.suffix_refl _
  · simp only [if_neg h]
    exact List.suffix_cons path s.loaded

namespace Runs

variable {l : Loader Id} {task : LoadTask} {s s' : Session} {outcome : Except Failure Unit}
  {calls : List LoadCall}

/-- A run only adds to the graph. -/
theorem adds (h : Runs l task s outcome s' calls) : ∃ a, s.graph.Adds a s'.graph := by
  induction h with
  | @malformed _ _ s path _ _ _ _ _ _ => exact ⟨_, s.graph.adds_addResource path⟩
  | @empty _ _ s path _ _ _ => exact ⟨_, s.graph.adds_addResource path⟩
  | @opened _ _ s path _ _ _ _ _ _ _ _ ih =>
      obtain ⟨a, ha⟩ := ih
      exact ⟨_, (s.graph.adds_addResource path).trans ha⟩
  | stopped _ _ ih => exact ih
  | @merged d _ _ s' _ _ g _ _ hown ih =>
      obtain ⟨a, ha⟩ := ih
      obtain ⟨b, hb⟩ := Loader.adds_mergeOwn d s'.graph
      rw [hown] at hb
      exact ⟨_, ha.trans hb⟩
  | imported _ _ _ ih₁ ih₂ =>
      obtain ⟨a, ha⟩ := ih₁
      obtain ⟨b, hb⟩ := ih₂
      exact ⟨_, ha.trans hb⟩
  | ignored _ _ _ _ _ ih₁ ih₂ =>
      obtain ⟨a, ha⟩ := ih₁
      obtain ⟨b, hb⟩ := ih₂
      exact ⟨_, ha.trans hb⟩
  | failed _ _ _ ih => exact ih
  | _ => exact ⟨_, Graph.Adds.refl _⟩

/-- A run only adds to the documents that were loaded. -/
theorem loaded_suffix (h : Runs l task s outcome s' calls) : s.loaded <:+ s'.loaded := by
  induction h with
  | @empty _ _ s path _ _ _ => exact Session.loaded_suffix_markLoaded (s.record path) path
  | @opened _ _ s path _ _ s' _ _ _ _ _ ih =>
      exact List.IsSuffix.trans ih (Session.loaded_suffix_markLoaded _ path)
  | stopped _ _ ih => exact ih
  | merged _ _ _ ih => exact ih
  | imported _ _ _ ih₁ ih₂ => exact ih₁.trans ih₂
  | ignored _ _ _ _ _ ih₁ ih₂ => exact ih₁.trans ih₂
  | failed _ _ _ ih => exact ih
  | _ => exact List.suffix_refl _

theorem mem_loaded (h : Runs l task s outcome s' calls) {x : Path} (hx : x ∈ s.loaded) :
    x ∈ s'.loaded :=
  h.loaded_suffix.subset hx

/-- A document in progress is not marked as loaded: a nested load of it is a cycle. -/
theorem not_mem_loaded (h : Runs l task s outcome s' calls) {x : Path} (hx : x ∈ s.inProgress)
    (hnew : x ∉ s.loaded) : x ∉ s'.loaded := by
  induction h with
  -- what a load marks was not in progress when it began
  | empty hadmits _ _ =>
      rw [Session.mem_markLoaded_iff]
      rintro (rfl | h)
      · exact hadmits.fresh hx
      · exact hnew h
  | opened hadmits _ _ _ ih =>
      rw [Session.mem_leave_iff]
      rintro (rfl | h)
      · exact hadmits.fresh hx
      · exact ih (List.mem_cons_of_mem _ hx) hnew h
  | stopped _ _ ih => exact ih hx hnew
  | merged _ _ _ ih => exact ih hx hnew
  | imported _ hload _ ih₁ ih₂ => exact ih₂ (hload.inProgress_eq ▸ hx) (ih₁ hx hnew)
  | ignored _ hload _ _ _ ih₁ ih₂ => exact ih₂ (hload.inProgress_eq ▸ hx) (ih₁ hx hnew)
  | failed _ _ _ ih => exact ih hx hnew
  | _ => exact hnew

end Runs

end ServiceGraph
