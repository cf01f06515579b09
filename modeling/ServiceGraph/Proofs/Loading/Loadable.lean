import ServiceGraph.Proofs.Construction
import ServiceGraph.Proofs.Loading.DepthFirstMerge
import ServiceGraph.Proofs.Loading.Obstacles

/-!
# What can be loaded

`Loader.Reaches entries path` says that the entry documents lead to a path along imports, and
`Loader.Loadable entries` collects what must hold of the documents there: each can be read, passes
its checks, leads on to further paths, and has services that can be read, under ids that no other
document uses; and no document leads back to itself.

Loading entry documents into a fresh session succeeds exactly when they are loadable, provided that
no import may fail and that there is room for as many documents as can be reached
(`Loader.loadAll_ok_iff_loadable`). Nothing here mentions an order: what is loadable depends on
which documents there are and what they import, not on when they are met.
-/

set_option autoImplicit false

namespace ServiceGraph

open Loading (runOn)
open Relation (TransGen ReflTransGen)

/-! ## Reaching documents -/

namespace Loader

/-- The paths that entry documents lead to. -/
inductive Reaches (l : Loader Id) (entries : List String) : Path → Prop
  | entry {name : String} {path : Path} (hname : name ∈ entries)
      (hpath : l.pathOf name none = .ok path) : Reaches l entries path
  | imported {path target : Path} (hpath : Reaches l entries path) (hneeds : l.Needs path target) :
      Reaches l entries target

/-- A document at a path that can be merged once all its imports are. -/
structure Mergeable (l : Loader Id) (path : Path) (d : Document) : Prop where
  accepted : l.accept d = .ok ()
  imports : ∀ item ∈ d.imports, ∃ entry target, Import.read d.file item = .ok entry ∧
    l.pathOf entry.resource path.parent? = .ok target
  produce : ProduceEntries d.file d.services
  nodup : d.ids.Nodup

/-- Nothing stands in the way of loading entry documents. -/
structure Loadable (l : Loader Id) (entries : List String) : Prop where
  found : ∀ name ∈ entries, ∃ path, l.pathOf name none = .ok path
  opened : ∀ path, l.Reaches entries path → ∃ result, l.documentAt path = .ok result
  mergeable : ∀ path d, l.Reaches entries path → l.documentAt path = .ok (some d) →
    l.Mergeable path d
  /-- Two documents do not use the same id. -/
  apart : ∀ path path' d d', l.Reaches entries path → l.Reaches entries path' → path ≠ path' →
    l.documentAt path = .ok (some d) → l.documentAt path' = .ok (some d') → d.ids.Disjoint d'.ids
  acyclic : ∀ path, l.Reaches entries path → ¬ TransGen l.Needs path path

/-- There is room for as many documents as can be reached. -/
def HasRoom (l : Loader Id) (entries : List String) : Prop :=
  ∀ paths : List Path, paths.Nodup → (∀ path ∈ paths, l.Reaches entries path) →
    paths.length ≤ l.maxDepth

/-! ## Loadable documents are loaded -/

variable {l : Loader Id} {entries : List String}

theorem Loadable.flawless (hl : l.Loadable entries) : l.Flawless (l.Reaches entries) where
  opened := hl.opened
  accepted path d hpath hdocument := (hl.mergeable path d hpath hdocument).accepted
  imports path d hpath hdocument := (hl.mergeable path d hpath hdocument).imports
  produce path d hpath hdocument := (hl.mergeable path d hpath hdocument).produce
  apart path path' id hpath hpath' := by
    rintro ⟨d, hdocument, hid⟩ ⟨d', hdocument', hid'⟩
    by_contra hne
    exact hl.apart path path' d d' hpath hpath' hne hdocument hdocument' hid hid'

theorem exists_loadAll_of_loadable (hl : l.Loadable entries) (hroom : l.HasRoom entries)
    {names : List String} (hnames : names ⊆ entries) {s : Session}
    (hs : s.Proper l (l.Reaches entries) [])
    (hempty : s.inProgress = []) : ∃ s', runOn (l.loadAll names) s = (.ok (), s') := by
  induction names generalizing s with
  | nil => exact ⟨s, rfl⟩
  | cons name rest ih =>
      obtain ⟨hname, hrest⟩ := List.cons_subset.1 hnames
      obtain ⟨path, hpath⟩ := hl.found name hname
      obtain ⟨outcome, s₁, calls, hrun⟩ := LoadTask.hasRun_resource (l := l) name none s
      have hdue : LoadTask.Due l (l.Reaches entries) s.inProgress (.resource name none) := by
        refine ⟨path, hpath, .entry hname hpath, fun above hmem => ?_⟩
        rw [hempty] at hmem
        exact absurd hmem List.not_mem_nil
      have hclosed : ∀ path target, l.Reaches entries path → l.Needs path target →
          l.Reaches entries target := fun _ _ => .imported
      rcases hrun.ok_or_cycle hl.flawless hclosed hroom hdue hs with ⟨rfl, hs₁⟩ | hcycle
      · have hload := hrun.runOn_eq
        rw [LoadTask.step] at hload
        simp only [runOn_loadAll_cons, hload]
        exact ih hrest hs₁ (hrun.inProgress_eq.trans hempty)
      · obtain ⟨-, path, -, hpath, hcycle⟩ := hcycle
        exact absurd hcycle (hl.acyclic path hpath)

end Loader

/-! ## What was loaded is loadable -/

/-- A document at a path passes its checks, if there is one. -/
def Loader.Accepted (l : Loader Id) (path : Path) : Prop :=
  ∀ d, l.documentAt path = .ok (some d) → l.accept d = .ok ()

/-- A run that succeeds has accepted what it has loaded when no import may fail. -/
theorem Runs.accepted_of_ok {l : Loader Id} (hall : l.AllMandatory) {task : LoadTask}
    {s s' : Session} {outcome : Except Failure Unit} {calls : List LoadCall}
    (h : Runs l task s outcome s' calls) (hok : outcome = .ok ()) (htask : task.Mandatory l)
    (hs : ∀ path ∈ s.loaded, l.Accepted path) :
    (∀ path ∈ s'.loaded, l.Accepted path) ∧ ∀ d ∈ task.own, l.accept d = .ok () := by
  induction h with
  | known _ _ => exact ⟨hs, fun _ hd => absurd hd List.not_mem_nil⟩
  | empty _ _ hempty =>
      refine ⟨fun p hp => ?_, fun _ hd => absurd hd List.not_mem_nil⟩
      rcases Session.mem_markLoaded_iff.1 hp with rfl | hp
      · exact fun d hd => absurd hempty (Loader.document_ne_empty hd)
      · exact hs p hp
  | opened _ _ hdocument _ ih =>
      obtain ⟨hloaded, hown⟩ := ih hok hdocument hs
      refine ⟨fun p hp => ?_, fun _ hd => absurd hd List.not_mem_nil⟩
      rcases Session.mem_leave_iff.1 hp with rfl | hp
      · -- the document that is left is the one that was opened
        intro d hd
        obtain rfl := Loader.document_unique hdocument hd
        exact hown _ List.mem_cons_self
      · exact hloaded p hp
  | merged haccept _ _ ih =>
      refine ⟨(ih rfl (hall _ _ htask) hs).1, fun d hd => ?_⟩
      rw [List.mem_singleton.1 hd]
      exact haccept
  | done => exact ⟨hs, fun _ hd => absurd hd List.not_mem_nil⟩
  | imported _ _ _ ih₁ ih₂ =>
      obtain ⟨hs₁, -⟩ := ih₁ rfl trivial hs
      exact ih₂ hok (fun item hitem => htask item (List.mem_cons_of_mem _ hitem)) hs₁
  | ignored hentry _ hignore =>
      -- no import may fail
      have hmandatory := htask _ List.mem_cons_self _ hentry
      rw [hignore] at hmandatory
      exact nomatch hmandatory
  | _ => exact nomatch hok

namespace Loader

variable {l : Loader Id} {entries : List String}

theorem accepted_of_loadAll (hall : l.AllMandatory) {names : List String} {s s' : Session}
    (h : runOn (l.loadAll names) s = (.ok (), s')) (hs : ∀ path ∈ s.loaded, l.Accepted path) :
    ∀ path ∈ s'.loaded, l.Accepted path := by
  induction names generalizing s with
  | nil =>
      obtain rfl : s = s' := congrArg Prod.snd h
      exact hs
  | cons name rest ih =>
      rw [runOn_loadAll_cons] at h
      rcases hload : runOn (l.load name none) s with ⟨outcome, s₁⟩
      rw [hload] at h
      cases outcome with
      | error e => exact nomatch congrArg Prod.fst h
      | ok _ =>
          obtain ⟨calls, hrun⟩ := runOn_load_eq_iff.1 hload
          exact ih h (hrun.accepted_of_ok hall rfl trivial hs).1

theorem needs_of_successor {path target : Path} (h : Successor l.Imports path target) :
    l.Needs path target := by
  obtain ⟨paths, himports, hmem⟩ := h
  cases himports with
  | empty _ => exact absurd hmem List.not_mem_nil
  | document hdocument htargets =>
      obtain ⟨item, hitem, entry, hentry, htarget⟩ := exists_left_of_forall₂ htargets hmem
      exact .intro hdocument hitem hentry htarget

/-- The imports of a document with listed successors are found, each among the successors. -/
theorem Imports.exists_target {path : Path} {paths : List Path} {d : Document} {item : Json}
    (himports : l.Imports path paths) (hdocument : l.documentAt path = .ok (some d))
    (hitem : item ∈ d.imports) :
    ∃ entry target, Import.read d.file item = .ok entry ∧
      l.pathOf entry.resource path.parent? = .ok target ∧ target ∈ paths := by
  cases himports with
  | empty hempty => exact absurd hempty (document_ne_empty hdocument)
  | document hdocument' htargets =>
      obtain rfl := document_unique hdocument hdocument'
      obtain ⟨target, hmem, entry, hentry, htarget⟩ := exists_left_of_forall₂ htargets.flip hitem
      exact ⟨entry, target, hentry, htarget, hmem⟩

/-- Where all imports of a document are found, they are all it needs. -/
theorem successor_of_needs {path target : Path} {paths : List Path}
    (himports : l.Imports path paths) (h : l.Needs path target) :
    Successor l.Imports path target := by
  obtain ⟨hdocument, hitem, hentry, htarget⟩ := h
  obtain ⟨entry', target', hentry', htarget', hmem⟩ := himports.exists_target hdocument hitem
  obtain rfl := Except.ok.inj (hentry'.symm.trans hentry)
  obtain rfl := Except.ok.inj (htarget'.symm.trans htarget)
  exact ⟨paths, himports, hmem⟩

theorem mem_documentsOf_iff {paths : List Path} {d : Document} :
    d ∈ l.documentsOf paths ↔ ∃ path ∈ paths, l.documentAt path = .ok (some d) := by
  rw [documentsOf, List.mem_filterMap]
  refine exists_congr fun path => and_congr_right fun _ => ?_
  cases l.documentAt path with
  | error e => simp
  | ok result => simp

theorem flatMap_documentsOf {β : Type} (f : Document → List β) (paths : List Path) :
    (l.documentsOf paths).flatMap f =
      paths.flatMap fun path => (l.documentsOf [path]).flatMap f := by
  induction paths with
  | nil => rfl
  | cons path rest ih =>
      have hcons : l.documentsOf (path :: rest) = l.documentsOf [path] ++ l.documentsOf rest :=
        documentsOf_append [path] rest
      rw [hcons, List.flatMap_append, ih, List.flatMap_cons]

/-- The documents that a graph was merged from, in the order in which they were merged. -/
structure Loaded (l : Loader Id) (entries : List String) (g : Graph) (order : List Path) :
    Prop where
  nodup : order.Nodup
  mem_iff (path : Path) : path ∈ order ↔ l.Reaches entries path
  resources : g.resources.Perm order
  merges : g.Merges (l.documentsOf order)

/-- A walk from the entry documents meets what they reach. -/
theorem mem_walk_iff_reaches {roots pre post : List Path}
    (hroots : List.Forall₂ (fun entry root => l.pathOf entry none = .ok root) entries roots)
    (hwalk : DepthFirst l.Imports [] roots pre post) (hlayered : Layered l.Imports post.reverse)
    (path : Path) : path ∈ post ↔ l.Reaches entries path := by
  constructor
  · intro hpath
    obtain ⟨root, hroot, hsteps⟩ := hwalk.exists_reflTransGen (hwalk.perm.mem_iff.1 hpath)
    obtain ⟨name, hname, hfound⟩ := exists_left_of_forall₂ hroots hroot
    -- only the walk so far matters for what it reaches
    clear hpath
    induction hsteps with
    | refl => exact .entry hname hfound
    | tail _ hstep ih => exact ih.imported (needs_of_successor hstep)
  · intro hreach
    induction hreach with
    | entry hname hfound =>
        obtain ⟨root, hroot, hfound'⟩ := exists_left_of_forall₂ hroots.flip hname
        obtain rfl := Except.ok.inj (hfound'.symm.trans hfound)
        rcases hwalk.mem_of_pending hroot with hseen | hpre
        · exact absurd hseen List.not_mem_nil
        · exact hwalk.perm.mem_iff.2 hpre
    | imported _ hneeds ih =>
        obtain ⟨paths, himports⟩ := hwalk.exists_next (hwalk.perm.mem_iff.1 ih)
        have hmem := hlayered.mem_of_successor (List.mem_reverse.2 ih)
          (successor_of_needs himports hneeds)
        exact List.mem_reverse.1 hmem

/-- Along what documents need, a layered list is never left. -/
theorem transGen_successor {nodes : List Path} (hlayered : Layered l.Imports nodes)
    (hnext : ∀ path ∈ nodes, ∃ paths, l.Imports path paths) {path target : Path}
    (hpath : path ∈ nodes) (h : TransGen l.Needs path target) :
    target ∈ nodes ∧ TransGen (Successor l.Imports) path target := by
  have hstep : ∀ {p q : Path}, p ∈ nodes → l.Needs p q → q ∈ nodes ∧ Successor l.Imports p q := by
    intro p q hp hneeds
    obtain ⟨paths, himports⟩ := hnext p hp
    have hsuccessor := successor_of_needs himports hneeds
    exact ⟨hlayered.mem_of_successor hp hsuccessor, hsuccessor⟩
  induction h with
  | single hneeds =>
      obtain ⟨hmem, hsuccessor⟩ := hstep hpath hneeds
      exact ⟨hmem, .single hsuccessor⟩
  | tail _ hneeds ih =>
      obtain ⟨hmem, hsuccessor⟩ := hstep ih.1 hneeds
      exact ⟨hmem, ih.2.tail hsuccessor⟩

/-- Documents that were merged into one graph use each id once. -/
theorem nodup_ids_documentsOf {post pre : List Path} {s : Session}
    (h : runOn (l.loadAll entries) {} = (.ok (), s))
    (hadds : Graph.Adds {} (Additions.ofDocuments (l.documentsOf post) pre) s.graph)
    (hproduce : ∀ d ∈ l.documentsOf post, ProduceEntries d.file d.services) :
    ((l.documentsOf post).flatMap Document.ids).Nodup := by
  obtain ⟨log, hconstructed⟩ := Graph.Evolves.start.exists_loadAll (s := {}) l entries
  rw [h] at hconstructed
  have hids : (Additions.ofDocuments (l.documentsOf post) pre).entries.map Prod.fst =
      (l.documentsOf post).flatMap Document.ids := by
    rw [Additions.ofDocuments, List.map_flatMap]
    exact List.flatMap_congr fun d hd => map_fst_entriesOf (hproduce d hd)
  rw [← hids]
  exact hadds.nodup_ids hconstructed.sets.recorded.disjoint

/-- Where ids are used once, two documents do not share any. -/
theorem disjoint_ids {order : List Path} (hids : ((l.documentsOf order).flatMap Document.ids).Nodup)
    {path path' : Path} {d d' : Document} (hpath : path ∈ order) (hpath' : path' ∈ order)
    (hne : path ≠ path') (hdocument : l.documentAt path = .ok (some d))
    (hdocument' : l.documentAt path' = .ok (some d')) : d.ids.Disjoint d'.ids := by
  rw [flatMap_documentsOf, List.nodup_flatMap] at hids
  have hsymm : Std.Symm (Function.onFun List.Disjoint fun p =>
      (l.documentsOf [p]).flatMap Document.ids) := ⟨fun _ _ hd => hd.symm⟩
  have hdisjoint := hids.2.forall hpath hpath' hne
  simpa only [Function.onFun, documentsOf_singleton_of_some hdocument,
    documentsOf_singleton_of_some hdocument', List.flatMap_cons, List.flatMap_nil,
    List.append_nil] using hdisjoint

/-- When loading entry documents succeeds and no import may fail, they were loadable, and the graph
is merged from the documents they reach, each once. -/
theorem loadable_of_loadAll (hall : l.AllMandatory) {s : Session}
    (h : runOn (l.loadAll entries) {} = (.ok (), s)) :
    l.Loadable entries ∧ ∃ order, l.Loaded entries s.graph order := by
  have hseen : ({} : Session).Knows [] := by
    intro p
    simp
  obtain ⟨roots, pre, post, hroots, hwalk, hlayered, hloaded, hadds, hproduce⟩ :=
    exists_walk_loadAll hall h hseen
  have hpost : s.loaded = post.reverse := hloaded.trans (List.append_nil _)
  have hlayered : Layered l.Imports post.reverse := hpost ▸ hlayered trivial
  have hmem := mem_walk_iff_reaches hroots hwalk hlayered
  have hnext : ∀ path ∈ post, ∃ paths, l.Imports path paths :=
    fun path hpath => hwalk.exists_next (hwalk.perm.mem_iff.1 hpath)
  have haccepted : ∀ path ∈ post, l.Accepted path := by
    intro path hpath
    refine accepted_of_loadAll hall h (fun p hp => absurd hp List.not_mem_nil) path ?_
    rw [hpost]
    exact List.mem_reverse.2 hpath
  have hids := nodup_ids_documentsOf h hadds hproduce
  constructor
  · refine ⟨?_, fun path hpath => ?_, fun path d hpath hdocument => ?_, ?_, ?_⟩
    · intro name hname
      obtain ⟨root, -, hfound⟩ := exists_left_of_forall₂ hroots.flip hname
      exact ⟨root, hfound⟩
    · obtain ⟨paths, himports⟩ := hnext path ((hmem path).2 hpath)
      cases himports with
      | empty hempty => exact ⟨none, hempty⟩
      | document hdocument _ => exact ⟨_, hdocument⟩
    · have hpath := (hmem path).2 hpath
      have hd : d ∈ l.documentsOf post := mem_documentsOf_iff.2 ⟨path, hpath, hdocument⟩
      refine ⟨haccepted path hpath d hdocument, fun item hitem => ?_, hproduce d hd,
        (List.nodup_flatMap.1 hids).1 d hd⟩
      obtain ⟨paths, himports⟩ := hnext path hpath
      obtain ⟨entry, target, hentry, htarget, -⟩ := himports.exists_target hdocument hitem
      exact ⟨entry, target, hentry, htarget⟩
    · intro path path' d d' hpath hpath'
      exact disjoint_ids hids ((hmem path).2 hpath) ((hmem path').2 hpath')
    · -- a cycle of needs would be a cycle of imports among the documents that were walked
      intro path hpath hcycle
      have hnodes : path ∈ post.reverse := List.mem_reverse.2 ((hmem path).2 hpath)
      have hsteps := (transGen_successor hlayered
        (fun p hp => hnext p (List.mem_reverse.1 hp)) hnodes hcycle).2
      exact hlayered.acyclic hnodes hsteps
  · have hresources : s.graph.resources = pre := hadds.resources
    exact ⟨post, hwalk.perm.nodup_iff.2 hwalk.nodup, hmem, hresources ▸ hwalk.perm.symm,
      hadds.merges hproduce⟩

/-- Loading entry documents into a fresh session succeeds exactly when they are loadable, provided
that no import may fail and that there is room for all documents that they reach. -/
theorem loadAll_ok_iff_loadable (hall : l.AllMandatory) (hroom : l.HasRoom entries) :
    (∃ s, runOn (l.loadAll entries) {} = (.ok (), s)) ↔ l.Loadable entries := by
  constructor
  · rintro ⟨s, h⟩
    exact (loadable_of_loadAll hall h).1
  · intro hl
    refine exists_loadAll_of_loadable hl hroom (List.Subset.refl _) ?_ rfl
    exact ⟨fun _ h => absurd h List.not_mem_nil, List.nodup_nil,
      fun _ _ _ _ h => absurd h Bool.false_ne_true⟩

end Loader

end ServiceGraph
