import Mathlib.Logic.Relation
import ServiceGraph.Proofs.Loading.Bookkeeping

/-!
# What stands in the way of a load

`Loader.Flawless reach` says that nothing is wrong with the documents at the paths of `reach`: each
can be read, passes its checks, leads on to further paths, and has services that can be read, under
ids that no other document of them uses. When the documents lead to each other only and imports may
nest as deep as there are documents, a cycle is all that can keep such documents from being loaded
(`Runs.ok_or_cycle`).

The induction is on the run. Its invariant is that the documents in progress lead to the task, so
that a document which is met while it is in progress needs itself.
-/

set_option autoImplicit false

namespace ServiceGraph

open Relation (TransGen ReflTransGen)

/-! ## Documents without a flaw -/

/-- The document at a path has an import that leads to another path. -/
inductive Loader.Needs (l : Loader Id) (path : Path) : Path → Prop
  | intro {d : Document} {item : Json} {entry : Import} {target : Path}
      (hdocument : l.documentAt path = .ok (some d)) (hitem : item ∈ d.imports)
      (hentry : Import.read d.file item = .ok entry)
      (htarget : l.pathOf entry.resource path.parent? = .ok target) : Needs l path target

/-- The ids of the services of a document. -/
def Document.ids (d : Document) : List String := d.services.map Prod.fst

/-- An object in a member of an object without repeated keys repeats no key. -/
theorem Json.nodup_keys_of_member? {key : String} {members inner : List (String × Json)}
    (h : ValuesDistinctKeys members) (hinner : member? key members = some (.object inner)) :
    (inner.map Prod.fst).Nodup := by
  induction members with
  | nil => exact nomatch hinner
  | cons member rest ih =>
      obtain ⟨key', value⟩ := member
      obtain ⟨hvalue, hrest⟩ := h
      by_cases hkey : key' = key
      · have hfirst : member? key ((key', value) :: rest) = some value := if_pos hkey
        obtain rfl := Option.some.inj (hfirst.symm.trans hinner)
        exact hvalue.1
      · have hlater : member? key ((key', value) :: rest) = member? key rest := if_neg hkey
        exact ih hrest (hlater.symm.trans hinner)

/-- A document that was read uses an id once. -/
theorem Document.nodup_ids_of_parse {text file : String} {d : Document}
    (h : parse text file = .ok (some d)) : d.ids.Nodup := by
  rw [parse] at h
  by_cases hblank : Text.isBlankText text = true
  · rw [if_pos hblank] at h
    exact nomatch Except.ok.inj h
  rw [if_neg hblank] at h
  cases hread : Json.read text with
  | error e =>
      rw [hread] at h
      exact nomatch h
  | ok value =>
      rw [hread] at h
      cases value with
      | object parts =>
          obtain rfl := Option.some.inj (Except.ok.inj h)
          obtain ⟨-, hdistinct⟩ := Json.distinctKeys_of_read hread
          rw [ids, services]
          split
          · rename_i hservices
            exact Json.nodup_keys_of_member? hdistinct hservices
          · exact List.nodup_nil
      | null => exact nomatch Except.ok.inj h
      | _ => exact nomatch h

namespace Loader

theorem nodup_ids_of_documentAt {l : Loader Id} {path : Path} {d : Document}
    (h : l.documentAt path = .ok (some d)) : d.ids.Nodup := by
  obtain ⟨text, -, hparse⟩ := documentAt_eq_ok_iff.1 h
  exact Document.nodup_ids_of_parse hparse

/-- The document at a path has a service of an id. -/
def Lists (l : Loader Id) (path : Path) (id : String) : Prop :=
  ∃ d, l.documentAt path = .ok (some d) ∧ id ∈ d.ids

/-- Nothing is wrong with the documents at some paths, whether or not they import each other in a
circle. -/
structure Flawless (l : Loader Id) (reach : Path → Prop) : Prop where
  opened : ∀ path, reach path → ∃ result, l.documentAt path = .ok result
  accepted : ∀ path d, reach path → l.documentAt path = .ok (some d) → l.accept d = .ok ()
  imports : ∀ path d, reach path → l.documentAt path = .ok (some d) → ∀ item ∈ d.imports,
    ∃ entry target, Import.read d.file item = .ok entry ∧
      l.pathOf entry.resource path.parent? = .ok target
  produce : ∀ path d, reach path → l.documentAt path = .ok (some d) →
    ProduceEntries d.file d.services
  /-- Two documents do not use the same id. -/
  apart : ∀ path path' id, reach path → reach path' → l.Lists path id → l.Lists path' id →
    path = path'

/-- There is room for as many documents as there are paths. -/
def RoomFor (l : Loader Id) (reach : Path → Prop) : Prop :=
  ∀ paths : List Path, paths.Nodup → (∀ path ∈ paths, reach path) → paths.length ≤ l.maxDepth

/-! ## Merging a document without a flaw -/

theorem addServices_ok {file : String} {services : List (String × Json)} {g : Graph}
    (hproduce : ProduceEntries file services) (hnodup : (services.map Prod.fst).Nodup)
    (hnew : ∀ id ∈ services.map Prod.fst, ¬ g.has id = true) :
    ((Graph.addServices file services).runOn g).1 = .ok () := by
  induction services generalizing g with
  | nil => rfl
  | cons service rest ih =>
      obtain ⟨id, value⟩ := service
      obtain ⟨hid, hrest⟩ := List.nodup_cons.1 hnodup
      have hfresh : ¬ g.has id = true := hnew id List.mem_cons_self
      obtain ⟨entry, hentry⟩ := hproduce (id, value) List.mem_cons_self
      simp only [Graph.runOn_addServices_cons, if_neg hfresh, hentry]
      have hproduce' : ProduceEntries file rest :=
        fun service hservice => hproduce service (List.mem_cons_of_mem _ hservice)
      -- the ids that follow are neither there nor the one just set
      refine ih hproduce' hrest fun id' hid' hhas => ?_
      have hadds := Graph.adds_setEntry (Bool.eq_false_iff.2 hfresh) entry
      rcases hadds.has_iff.1 hhas with hold | ⟨entry', hmem⟩
      · exact hnew id' (List.mem_cons_of_mem _ hid') hold
      · obtain rfl : id' = id := congrArg Prod.fst (List.mem_singleton.1 hmem)
        exact hid hid'

theorem mergeOwn_ok {d : Document} {g : Graph} (hproduce : ProduceEntries d.file d.services)
    (hnodup : d.ids.Nodup) (hnew : ∀ id ∈ d.ids, ¬ g.has id = true) :
    (mergeOwn d g).1 = .ok () := by
  refine addServices_ok hproduce hnodup fun id hid hhas => hnew id hid ?_
  -- parameters and blocks add no id
  have hparts := (g.adds_addParameters d.parameters).trans
    ((g.addParameters d.parameters).adds_addBlocks d.extensions)
  rcases hparts.has_iff.1 hhas with hold | ⟨entry, hmem⟩
  · exact hold
  · exact absurd hmem List.not_mem_nil

end Loader

/-! ## The invariant of a run -/

/-- A session in which nothing went wrong: the services of documents at the paths are in its graph
only for documents that it has loaded, and for those of `merging`. -/
structure Session.Proper (l : Loader Id) (reach : Path → Prop) (merging : List Path)
    (s : Session) : Prop where
  inProgress : ∀ path ∈ s.inProgress, reach path ∧ path ∉ s.loaded
  nodup : s.inProgress.Nodup
  ids : ∀ path id, reach path → l.Lists path id → s.graph.has id = true →
    path ∈ merging ++ s.loaded

namespace LoadTask

variable {l : Loader Id} {reach : Path → Prop} {stack : List Path}

/-- A resource that is found at one of the paths, to which the documents in progress lead. -/
def ResourceDue (l : Loader Id) (reach : Path → Prop) (stack : List Path) (name : String)
    (dir : Option Path) : Prop :=
  ∃ path, l.pathOf name dir = .ok path ∧ reach path ∧ ∀ above ∈ stack, TransGen l.Needs above path

theorem ResourceDue.of_found {name : String} {dir : Option Path} {path : Path}
    (h : ResourceDue l reach stack name dir) (hfound : l.pathOf name dir = .ok path) :
    reach path ∧ ∀ above ∈ stack, TransGen l.Needs above path := by
  obtain ⟨path', hfound', hpath⟩ := h
  obtain rfl := Except.ok.inj (hfound'.symm.trans hfound)
  exact hpath

/-- A task that comes up when documents without a flaw are loaded. -/
def Due (l : Loader Id) (reach : Path → Prop) (stack : List Path) : LoadTask → Prop
  | .resource name dir => ResourceDue l reach stack name dir
  | .document d path =>
      l.documentAt path = .ok (some d) ∧ reach path ∧ path ∈ stack ∧
        ∀ above ∈ stack, ReflTransGen l.Needs above path
  | .imports file items dir =>
      ∀ item ∈ items, ∃ entry, Import.read file item = .ok entry ∧
        ResourceDue l reach stack entry.resource dir

/-- The path of the document whose own services a task merges. -/
def merging : LoadTask → List Path
  | .document _ path => [path]
  | _ => []

/-- The first of the imports that are due is due. -/
theorem resourceDue_of_imports {file : String} {item : Json} {rest : List Json}
    {dir : Option Path} {entry : Import} (h : Due l reach stack (.imports file (item :: rest) dir))
    (hentry : Import.read file item = .ok entry) :
    ResourceDue l reach stack entry.resource dir := by
  obtain ⟨entry', hentry', hdue⟩ := h item List.mem_cons_self
  obtain rfl := Except.ok.inj (hentry'.symm.trans hentry)
  exact hdue

/-- The imports of a document that is due are due. -/
theorem due_imports {d : Document} {path : Path} (hl : l.Flawless reach)
    (hclosed : ∀ path target, reach path → l.Needs path target → reach target)
    (h : Due l reach stack (.document d path)) :
    Due l reach stack (.imports d.file d.imports path.parent?) := by
  obtain ⟨hdocument, hpath, -, habove⟩ := h
  intro item hitem
  obtain ⟨entry, target, hentry, htarget⟩ := hl.imports path d hpath hdocument item hitem
  have hneeds : l.Needs path target := .intro hdocument hitem hentry htarget
  exact ⟨entry, hentry, target, htarget, hclosed path target hpath hneeds,
    fun above hmem => TransGen.tail' (habove above hmem) hneeds⟩

end LoadTask

namespace Session.Proper

variable {l : Loader Id} {reach : Path → Prop} {s s' : Session} {path : Path}

/-- An empty document is loaded. -/
theorem markLoaded (h : s.Proper l reach []) (hfresh : path ∉ s.inProgress) :
    ((s.record path).markLoaded path).Proper l reach [] where
  inProgress p hp := by
    refine ⟨(h.inProgress p hp).1, fun hloaded => ?_⟩
    rcases Session.mem_markLoaded_iff.1 hloaded with rfl | hloaded
    · exact hfresh hp
    · exact (h.inProgress p hp).2 hloaded
  nodup := h.nodup
  ids p id hp hlists hid := Session.mem_markLoaded_iff.2 (Or.inr (h.ids p id hp hlists hid))

/-- A document is opened. -/
theorem enter (h : s.Proper l reach []) (hpath : reach path) (hfresh : path ∉ s.inProgress)
    (hnew : path ∉ s.loaded) : ((s.record path).enter path).Proper l reach [] where
  inProgress p hp := by
    rcases List.mem_cons.1 hp with rfl | hp
    · exact ⟨hpath, hnew⟩
    · exact h.inProgress p hp
  nodup := List.nodup_cons.2 ⟨hfresh, h.nodup⟩
  ids := h.ids

/-- A document is done, and its services are those of a loaded document from now on. -/
theorem leave (h : s'.Proper l reach [path]) {stack : List Path}
    (hstack : s'.inProgress = path :: stack) : (s'.leave path).Proper l reach [] := by
  have hinProgress : (s'.leave path).inProgress = stack := by
    show s'.inProgress.tail = stack
    rw [hstack, List.tail_cons]
  have hnodup : (path :: stack).Nodup := hstack ▸ h.nodup
  refine ⟨fun p hp => ?_, ?_, fun p id hp hlists hid => ?_⟩
  · rw [hinProgress] at hp
    have hold := h.inProgress p (hstack ▸ List.mem_cons_of_mem _ hp)
    refine ⟨hold.1, fun hloaded => ?_⟩
    rcases Session.mem_leave_iff.1 hloaded with rfl | hloaded
    · exact (List.nodup_cons.1 hnodup).1 hp
    · exact hold.2 hloaded
  · rw [hinProgress]
    exact (List.nodup_cons.1 hnodup).2
  · exact Session.mem_leave_iff.2 (List.mem_cons.1 (h.ids p id hp hlists hid))

/-- The parts of a document in progress can be merged, and its services are added. -/
theorem merged {d : Document} (hl : l.Flawless reach) (h : s.Proper l reach [])
    (hdocument : l.documentAt path = .ok (some d)) (hmem : path ∈ s.inProgress) :
    (Loader.mergeOwn d s.graph).1 = .ok () ∧
      { s with graph := (Loader.mergeOwn d s.graph).2 }.Proper l reach [path] := by
  obtain ⟨hpath, hnew⟩ := h.inProgress path hmem
  have hproduce := hl.produce path d hpath hdocument
  -- an id of the document is taken only once the document is loaded
  have hok : (Loader.mergeOwn d s.graph).1 = .ok () :=
    Loader.mergeOwn_ok hproduce (Loader.nodup_ids_of_documentAt hdocument)
      fun id hid hhas => hnew (h.ids path id hpath ⟨d, hdocument, hid⟩ hhas)
  refine ⟨hok, h.inProgress, h.nodup, fun p id hp hlists hid => ?_⟩
  have hadds := (Loader.adds_mergeOwn_of_ok (Prod.ext hok rfl)).1
  rcases hadds.has_iff.1 hid with hold | ⟨entry, hentry⟩
  · exact List.mem_cons_of_mem _ (h.ids p id hp hlists hold)
  · -- a new id is one of this document, and no other document has it
    have hid' : id ∈ d.ids := by
      rw [Document.ids, ← map_fst_entriesOf hproduce]
      exact List.mem_map_of_mem (f := Prod.fst) hentry
    rw [hl.apart p path id hp hpath hlists ⟨d, hdocument, hid'⟩]
    exact List.mem_cons_self

end Session.Proper

/-! ## Runs -/

/-- A run found a document of the paths that needs itself. -/
def FoundCycle (l : Loader Id) (reach : Path → Prop) (outcome : Except Failure Unit) : Prop :=
  ∃ chain path, outcome = .error (.importCycle chain) ∧ reach path ∧ TransGen l.Needs path path

/-- A run that loads documents without a flaw fails for a cycle only. -/
theorem Runs.ok_or_cycle {l : Loader Id} {reach : Path → Prop} (hl : l.Flawless reach)
    (hclosed : ∀ path target, reach path → l.Needs path target → reach target)
    (hroom : l.RoomFor reach) {task : LoadTask} {s s' : Session} {outcome : Except Failure Unit}
    {calls : List LoadCall} (h : Runs l task s outcome s' calls)
    (htask : task.Due l reach s.inProgress) (hs : s.Proper l reach []) :
    outcome = .ok () ∧ s'.Proper l reach task.merging ∨ FoundCycle l reach outcome := by
  induction h with
  | notFound hpath =>
      obtain ⟨path, hfound, -⟩ := htask
      exact nomatch hfound.symm.trans hpath
  | cycle hpath hcycle =>
      -- the document is in progress, so it leads to this import of itself
      obtain ⟨hreach, habove⟩ := htask.of_found hpath
      exact Or.inr ⟨_, _, rfl, hreach, habove _ hcycle⟩
  | @tooDeep _ _ s path hpath hfresh hdepth =>
      obtain ⟨hreach, -⟩ := htask.of_found hpath
      -- one more document would be in progress than there is room for
      have hle := hroom (path :: s.inProgress) (List.nodup_cons.2 ⟨hfresh, hs.nodup⟩) <| by
        intro p hp
        rcases List.mem_cons.1 hp with rfl | hp
        · exact hreach
        · exact (hs.inProgress p hp).1
      rw [List.length_cons] at hle
      omega
  | known _ _ => exact Or.inl ⟨rfl, hs⟩
  -- a document that is reached can be read
  | unreadable hadmits _ htext =>
      obtain ⟨hreach, -⟩ := htask.of_found hadmits.found
      obtain ⟨result, hresult⟩ := hl.opened _ hreach
      obtain ⟨text, htext', -⟩ := Loader.documentAt_eq_ok_iff.1 hresult
      exact nomatch htext'.symm.trans htext
  | malformed hadmits _ htext hparse =>
      obtain ⟨hreach, -⟩ := htask.of_found hadmits.found
      obtain ⟨result, hresult⟩ := hl.opened _ hreach
      obtain ⟨text, htext', hparse'⟩ := Loader.documentAt_eq_ok_iff.1 hresult
      obtain rfl := Except.ok.inj (htext'.symm.trans htext)
      exact nomatch hparse'.symm.trans hparse
  | empty hadmits _ _ => exact Or.inl ⟨rfl, hs.markLoaded hadmits.fresh⟩
  | @opened _ _ s path d _ s' _ hadmits hnew hdocument hrun ih =>
      obtain ⟨hreach, habove⟩ := htask.of_found hadmits.found
      -- the document in progress leads to its own imports, as do those above it
      have hdue : LoadTask.Due l reach (path :: s.inProgress) (.document d path) := by
        refine ⟨hdocument, hreach, List.mem_cons_self, fun above hmem => ?_⟩
        rcases List.mem_cons.1 hmem with rfl | hmem
        · exact .refl
        · exact (habove above hmem).to_reflTransGen
      refine (ih hdue (hs.enter hreach hadmits.fresh hnew)).imp_left ?_
      rintro ⟨hok, hs'⟩
      exact ⟨hok, hs'.leave hrun.inProgress_eq⟩
  | refused haccept =>
      obtain ⟨hdocument, hreach, -⟩ := htask
      exact nomatch (hl.accepted _ _ hreach hdocument).symm.trans haccept
  | stopped _ _ ih =>
      -- the imports have failed, so the first alternative is out
      refine (ih (LoadTask.due_imports hl hclosed htask) hs).imp_left ?_
      rintro ⟨hok, -⟩
      exact nomatch hok
  | @merged d path s s₁ _ outcome g _ himports hown ih =>
      rcases ih (LoadTask.due_imports hl hclosed htask) hs with ⟨-, hs₁⟩ | hcycle
      · obtain ⟨hdocument, -, hmem, -⟩ := htask
        have hmerged := hs₁.merged hl hdocument (himports.inProgress_eq ▸ hmem)
        rw [hown] at hmerged
        exact Or.inl hmerged
      · obtain ⟨_, _, herror, -⟩ := hcycle
        exact nomatch herror
  | done => exact Or.inl ⟨rfl, hs⟩
  | badImport hentry =>
      obtain ⟨entry, hentry', -⟩ := htask _ List.mem_cons_self
      exact nomatch hentry'.symm.trans hentry
  | imported hentry hload _ ih₁ ih₂ =>
      rcases ih₁ (LoadTask.resourceDue_of_imports htask hentry) hs with ⟨-, hs₁⟩ | hcycle
      · refine ih₂ (fun item hitem => ?_) hs₁
        rw [hload.inProgress_eq]
        exact htask item (List.mem_cons_of_mem _ hitem)
      · obtain ⟨_, _, herror, -⟩ := hcycle
        exact nomatch herror
  | ignored hentry _ _ hkind _ ih₁ _ =>
      -- a cycle is not ignored
      rcases ih₁ (LoadTask.resourceDue_of_imports htask hentry) hs with ⟨hok, -⟩ | hcycle
      · exact nomatch hok
      · obtain ⟨chain, _, herror, -⟩ := hcycle
        rw [Except.error.inj herror] at hkind
        exact nomatch hkind
  | failed hentry _ _ ih =>
      refine (ih (LoadTask.resourceDue_of_imports htask hentry) hs).imp_left ?_
      rintro ⟨hok, -⟩
      exact nomatch hok

end ServiceGraph
