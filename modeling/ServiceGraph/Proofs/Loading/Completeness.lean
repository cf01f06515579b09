import ServiceGraph.Proofs.Loading.Bookkeeping
import ServiceGraph.Proofs.Loading.Files

/-!
# Which documents are merged after a load

A document is merged when its services, parameters and blocks are all in the graph
(`Document.MergedIn`). A load that merges a document and fails on the way still marks it as loaded:
the load breaks the document (`LoadCall.Breaks`). Over a sequence of loads that share a session,
whatever their outcomes, each document that is marked as loaded is merged or was broken by one of
the loads (`Session.Tracks`, kept by every run in `Runs.tracks`).

`Loader.Loads.mergedIn_iff` says what this means for a load that succeeds, nested ones included: it
leaves its document merged unless an earlier load broke the document, and then it does nothing.
-/

set_option autoImplicit false

namespace ServiceGraph

open Loading (runOn)

/-! ## Merged documents -/

/-- All that a document says itself is in a graph. -/
structure Document.MergedIn (d : Document) (g : Graph) : Prop where
  services : ∀ service ∈ d.services, g.has service.1 = true
  parameters : ∀ parameter ∈ d.parameters, parameter.1 ∈ g.parameters.keys
  extensions : ∀ part ∈ d.extensions, Document.block part.2 ∈ g.blocksOf part.1

namespace Document.MergedIn

variable {d : Document} {g g' : Graph} {a : Additions}

/-- Additions leave a merged document merged. -/
theorem of_adds (h : d.MergedIn g) (hadds : g.Adds a g') : d.MergedIn g' where
  services := fun service hservice => hadds.has_of_has (h.services service hservice)
  parameters := fun parameter hparameter =>
    hadds.mem_parameters_iff.2 (Or.inl (h.parameters parameter hparameter))
  extensions := by
    intro part hpart
    rw [hadds.blocksOf_eq]
    exact List.mem_append_left _ (h.extensions part hpart)

/-- A document is merged once its parts were added. -/
theorem of_additions (hadds : g.Adds d.additions g')
    (hproduce : ProduceEntries d.file d.services) : d.MergedIn g' where
  services := by
    intro service hservice
    obtain ⟨entry, hread⟩ := hproduce service hservice
    have hmem : (service.1, entry) ∈ d.additions.entries := by
      refine List.mem_filterMap.2 ⟨service, hservice, ?_⟩
      rw [hread]
    exact hadds.has_of_mem hmem
  parameters := by
    intro parameter hparameter
    refine hadds.mem_parameters_iff.2 (Or.inr ?_)
    rw [Document.additions, List.map_map]
    exact List.mem_map_of_mem (f := Prod.fst) hparameter
  extensions := by
    intro part hpart
    rw [hadds.blocksOf_eq]
    refine List.mem_append_right _ (List.mem_map.2 ⟨(part.1, Document.block part.2), ?_, rfl⟩)
    rw [List.mem_filter]
    exact ⟨List.mem_map.2 ⟨part, hpart, rfl⟩, decide_eq_true rfl⟩

end Document.MergedIn

/-- A document is merged after its own run succeeds. -/
theorem Runs.mergedIn_of_document {l : Loader Id} {d : Document} {path : Path} {s s' : Session}
    {calls : List LoadCall} (h : Runs l (.document d path) s (.ok ()) s' calls) :
    d.MergedIn s'.graph := by
  cases h with
  | merged _ _ hown =>
      obtain ⟨hadds, hproduce⟩ := Loader.adds_mergeOwn_of_ok hown
      exact .of_additions hadds hproduce

/-! ## Broken documents -/

namespace LoadCall

/-- A load marks the document at a path as loaded although it fails. -/
structure Breaks (l : Loader Id) (c : LoadCall) (path : Path) : Prop where
  found : l.pathOf c.resource c.dir = .ok path
  fails : ∃ e, c.outcome = .error e
  unmarked : path ∉ c.before.loaded
  marked : path ∈ c.after.loaded

/-- What a load says about the document that it found, the loads of `past` made before it. -/
def Sound (l : Loader Id) (past : List LoadCall) (c : LoadCall) : Prop :=
  c.outcome = .ok () → ∀ path d, l.pathOf c.resource c.dir = .ok path →
    l.documentAt path = .ok (some d) →
    (d.MergedIn c.after.graph ↔
      d.MergedIn c.before.graph ∨ ∀ b ∈ past, ¬ b.Breaks l path) ∧
    ((∃ b ∈ past, b.Breaks l path) → c.after = c.before)

/-- Every load of a list is sound, the loads of `past` made before all of them. -/
def AllSound (l : Loader Id) : List LoadCall → List LoadCall → Prop
  | _, [] => True
  | past, c :: rest => c.Sound l past ∧ AllSound l (past ++ [c]) rest

theorem allSound_append {l : Loader Id} {past calls calls' : List LoadCall}
    (h : AllSound l past calls) (h' : AllSound l (past ++ calls) calls') :
    AllSound l past (calls ++ calls') := by
  induction calls generalizing past with
  | nil =>
      rw [List.append_nil] at h'
      exact h'
  | cons c rest ih =>
      refine ⟨h.1, ih h.2 ?_⟩
      rwa [List.append_assoc, List.singleton_append]

theorem sound_of_allSound {l : Loader Id} {past earlier later : List LoadCall} {c : LoadCall}
    (h : AllSound l past (earlier ++ c :: later)) : c.Sound l (past ++ earlier) := by
  induction earlier generalizing past with
  | nil =>
      rw [List.append_nil]
      exact h.1
  | cons b rest ih =>
      have hrest := ih h.2
      rwa [List.append_assoc, List.singleton_append] at hrest

theorem sound_of_error {l : Loader Id} {past : List LoadCall} {c : LoadCall} {e : Failure}
    (h : c.outcome = .error e) : c.Sound l past := by
  intro hok
  rw [h] at hok
  exact nomatch hok

end LoadCall

/-- The marks of a session after the loads of `past`: a document that counts as loaded is merged or
broken, and a broken one counts as loaded. -/
structure Session.Tracks (l : Loader Id) (past : List LoadCall) (s : Session) : Prop where
  merged : ∀ path ∈ s.loaded, ∀ d, l.documentAt path = .ok (some d) →
    d.MergedIn s.graph ∨ ∃ b ∈ past, b.Breaks l path
  broken : ∀ b ∈ past, ∀ path, b.Breaks l path → path ∈ s.loaded

namespace Session.Tracks

variable {l : Loader Id} {past : List LoadCall} {s s' : Session} {a : Additions}

theorem fresh (h : s.loaded = []) : s.Tracks l [] where
  merged := by
    intro path hpath
    rw [h] at hpath
    exact absurd hpath List.not_mem_nil
  broken := fun _ h => absurd h List.not_mem_nil

/-- A change that marks nothing as loaded. -/
theorem of_adds (h : s.Tracks l past) (hadds : s.graph.Adds a s'.graph)
    (hloaded : s'.loaded = s.loaded) : s'.Tracks l past where
  merged := by
    intro path hpath d hdocument
    rw [hloaded] at hpath
    exact (h.merged path hpath d hdocument).imp_left fun hmerged => hmerged.of_adds hadds
  broken := by
    intro b hb path hbreaks
    rw [hloaded]
    exact h.broken b hb path hbreaks

/-- One more load, which ends in the session. What it marks as loaded is merged or broken. -/
theorem concat {c : LoadCall} (h : s.Tracks l past) (hafter : c.after = s')
    (hadds : s.graph.Adds a s'.graph) (hkeep : ∀ path ∈ s.loaded, path ∈ s'.loaded)
    (hnew : ∀ path ∈ s'.loaded, path ∉ s.loaded → ∀ d, l.documentAt path = .ok (some d) →
      d.MergedIn s'.graph ∨ c.Breaks l path) : s'.Tracks l (past ++ [c]) where
  merged := by
    intro path hpath d hdocument
    by_cases hold : path ∈ s.loaded
    · rcases h.merged path hold d hdocument with hmerged | ⟨b, hb, hbreaks⟩
      · exact Or.inl (hmerged.of_adds hadds)
      · exact Or.inr ⟨b, List.mem_append_left _ hb, hbreaks⟩
    · refine (hnew path hpath hold d hdocument).imp_right fun hbreaks => ?_
      exact ⟨c, List.mem_append_right _ (List.mem_singleton.2 rfl), hbreaks⟩
  broken := by
    intro b hb path hbreaks
    rcases List.mem_append.1 hb with hb | hb
    · exact hkeep path (h.broken b hb path hbreaks)
    · rw [List.mem_singleton.1 hb] at hbreaks
      exact hafter ▸ hbreaks.marked

/-- One more load, which marks nothing as loaded. -/
theorem concat_of_loaded_eq {c : LoadCall} (h : s.Tracks l past) (hafter : c.after = s')
    (hadds : s.graph.Adds a s'.graph) (hloaded : s'.loaded = s.loaded) :
    s'.Tracks l (past ++ [c]) := by
  refine h.concat hafter hadds ?_ ?_
  · intro path hpath
    rwa [hloaded]
  · intro path hpath hold
    rw [hloaded] at hpath
    exact absurd hpath hold

end Session.Tracks

/-! ## Runs and sequences of loads -/

namespace LoadCall

variable {l : Loader Id} {past : List LoadCall} {s : Session} {resource : String}
  {dir : Option Path} {path : Path}

/-- A load of a document that was marked before is sound by the marks. -/
theorem sound_known (h : s.Tracks l past) (hpath : l.pathOf resource dir = .ok path)
    (hloaded : path ∈ s.loaded) : Sound l past ⟨resource, dir, s, .ok (), s⟩ := by
  intro _ path' d hpath' hdocument
  obtain rfl : path = path' := Except.ok.inj (hpath.symm.trans hpath')
  refine ⟨⟨Or.inl, fun hmerged => ?_⟩, fun _ => rfl⟩
  rcases hmerged with hmerged | hsafe
  · exact hmerged
  rcases h.merged path hloaded d hdocument with hmerged | ⟨b, hb, hbreaks⟩
  · exact hmerged
  · exact absurd hbreaks (hsafe b hb)

/-- A load that merges its document is sound: no load broke a document that is not marked. -/
theorem sound_opened {c : LoadCall} {d : Document} {s' : Session} (h : s'.Tracks l past)
    (hpath : l.pathOf c.resource c.dir = .ok path) (hdocument : l.documentAt path = .ok (some d))
    (hunmarked : path ∉ s'.loaded) (hmerged : c.outcome = .ok () → d.MergedIn c.after.graph) :
    c.Sound l past := by
  intro hok path' d' hpath' hdocument'
  obtain rfl : path = path' := Except.ok.inj (hpath.symm.trans hpath')
  obtain rfl := Loader.document_unique hdocument hdocument'
  have hsafe : ∀ b ∈ past, ¬ b.Breaks l path :=
    fun b hb hbreaks => hunmarked (h.broken b hb path hbreaks)
  refine ⟨⟨fun _ => Or.inr hsafe, fun _ => hmerged hok⟩, ?_⟩
  rintro ⟨b, hb, hbreaks⟩
  exact absurd hbreaks (hsafe b hb)

theorem allSound_singleton {c : LoadCall} (h : c.Sound l past) : AllSound l past [c] :=
  ⟨h, trivial⟩

end LoadCall

open LoadCall in
/-- Every run keeps the marks, and each load on the way is sound. -/
theorem Runs.tracks {l : Loader Id} {task : LoadTask} {s s' : Session}
    {outcome : Except Failure Unit} {calls : List LoadCall} (h : Runs l task s outcome s' calls)
    {past : List LoadCall} (htracks : s.Tracks l past) :
    s'.Tracks l (past ++ calls) ∧ AllSound l past calls := by
  induction h generalizing past with
  | notFound | cycle | tooDeep | unreadable =>
      exact ⟨htracks.concat_of_loaded_eq rfl (Graph.Adds.refl _) rfl,
        allSound_singleton (sound_of_error rfl)⟩
  | known hadmits hloaded =>
      exact ⟨htracks.concat_of_loaded_eq rfl (Graph.Adds.refl _) rfl,
        allSound_singleton (sound_known htracks hadmits.found hloaded)⟩
  | @malformed _ _ s path _ _ _ _ _ _ =>
      exact ⟨htracks.concat_of_loaded_eq rfl (s.graph.adds_addResource path) rfl,
        allSound_singleton (sound_of_error rfl)⟩
  | @empty _ _ s path hadmits hnew hempty =>
      constructor
      · refine htracks.concat rfl (s.graph.adds_addResource path) ?_ ?_
        · intro p hp
          exact Session.mem_markLoaded_iff.2 (Or.inr hp)
        · intro p hp hold d hdocument
          rcases Session.mem_markLoaded_iff.1 hp with rfl | hp
          · exact absurd hempty (Loader.document_ne_empty hdocument)
          · exact absurd hp hold
      · apply allSound_singleton
        intro _ p d hpath hdocument
        obtain rfl : path = p := Except.ok.inj (hadmits.found.symm.trans hpath)
        exact absurd hempty (Loader.document_ne_empty hdocument)
  | @opened _ _ s path d outcome s₁ calls hadmits hnew hdocument hrun ih =>
      have hopen : ((s.record path).enter path).Tracks l past :=
        htracks.of_adds (s.graph.adds_addResource path) rfl
      obtain ⟨htracks₁, hsound⟩ := ih hopen
      -- a nested load cannot mark the document: it is in progress
      have hunmarked : path ∉ s₁.loaded :=
        hrun.not_mem_loaded (x := path) List.mem_cons_self hnew
      constructor
      · rw [← List.append_assoc]
        refine htracks₁.concat rfl (Graph.Adds.refl _) ?_ ?_
        · intro p hp
          exact Session.mem_leave_iff.2 (Or.inr hp)
        · -- the only new mark is that of the document itself
          intro p hp hold d' hdocument'
          obtain rfl : p = path := (Session.mem_leave_iff.1 hp).resolve_right hold
          obtain rfl := Loader.document_unique hdocument hdocument'
          cases outcome with
          | ok _ => exact Or.inl hrun.mergedIn_of_document
          | error e =>
              exact Or.inr ⟨hadmits.found, ⟨e, rfl⟩, hnew, Session.mem_leave_iff.2 (Or.inl rfl)⟩
      · refine allSound_append hsound (allSound_singleton ?_)
        refine sound_opened htracks₁ hadmits.found hdocument hunmarked ?_
        rintro rfl
        exact hrun.mergedIn_of_document
  | refused | done | badImport =>
      rw [List.append_nil]
      exact ⟨htracks, trivial⟩
  | stopped _ _ ih => exact ih htracks
  | @merged d _ _ s₁ _ _ g _ _ hown ih =>
      obtain ⟨htracks₁, hsound⟩ := ih htracks
      obtain ⟨a, hadds⟩ := Loader.adds_mergeOwn d s₁.graph
      rw [hown] at hadds
      exact ⟨htracks₁.of_adds hadds rfl, hsound⟩
  | imported _ _ _ ih₁ ih₂ | ignored _ _ _ _ _ ih₁ ih₂ =>
      obtain ⟨htracks₁, hsound₁⟩ := ih₁ htracks
      obtain ⟨htracks₂, hsound₂⟩ := ih₂ htracks₁
      rw [← List.append_assoc]
      exact ⟨htracks₂, allSound_append hsound₁ hsound₂⟩
  | failed _ _ _ ih => exact ih htracks

namespace Loader

variable {l : Loader Id}

/-- The loads of a sequence of requests in one session, whatever their outcomes: the session they
end in and all loads, nested ones included, in the order in which they ended. -/
inductive Loads (l : Loader Id) :
    List (String × Option Path) → Session → Session → List LoadCall → Prop
  | nil {s : Session} : Loads l [] s s []
  | cons {resource : String} {dir : Option Path} {rest : List (String × Option Path)}
      {s s₁ s' : Session} {outcome : Except Failure Unit} {calls calls' : List LoadCall}
      (hrun : Runs l (.resource resource dir) s outcome s₁ calls)
      (hrest : Loads l rest s₁ s' calls') :
      Loads l ((resource, dir) :: rest) s s' (calls ++ calls')

theorem Loads.allSound {requests : List (String × Option Path)} {s s' : Session}
    {calls : List LoadCall} (h : l.Loads requests s s' calls) {past : List LoadCall}
    (htracks : s.Tracks l past) : LoadCall.AllSound l past calls := by
  induction h generalizing past with
  | nil => exact trivial
  | cons hrun _ ih =>
      obtain ⟨htracks₁, hsound⟩ := hrun.tracks htracks
      exact LoadCall.allSound_append hsound (ih htracks₁)

theorem Loads.runOn_of_mem {requests : List (String × Option Path)} {s s' : Session}
    {calls : List LoadCall} (h : l.Loads requests s s' calls) {c : LoadCall} (hc : c ∈ calls) :
    runOn (l.load c.resource c.dir) c.before = (c.outcome, c.after) := by
  induction h with
  | nil => exact absurd hc List.not_mem_nil
  | cons hrun _ ih =>
      rcases List.mem_append.1 hc with hc | hc
      · exact hrun.runOn_of_mem hc
      · exact ih hc

/-- Among the loads of a sequence of requests into a graph, a load that succeeds leaves its document
merged exactly when the document was merged before or no earlier load broke it; it changes nothing
when one did. -/
theorem Loads.mergedIn_iff {requests : List (String × Option Path)} {g : Graph} {s : Session}
    {calls earlier later : List LoadCall} {c : LoadCall}
    (h : l.Loads requests { graph := g } s calls) (hcalls : calls = earlier ++ c :: later)
    (hok : c.outcome = .ok ()) {path : Path} {d : Document}
    (hpath : l.pathOf c.resource c.dir = .ok path) (hdocument : l.documentAt path = .ok (some d)) :
    runOn (l.load c.resource c.dir) c.before = (.ok (), c.after) ∧
    (d.MergedIn c.after.graph ↔
      d.MergedIn c.before.graph ∨ ∀ b ∈ earlier, ¬ b.Breaks l path) ∧
    ((∃ b ∈ earlier, b.Breaks l path) → c.after = c.before) := by
  have hmem : c ∈ calls := by
    rw [hcalls]
    exact List.mem_append_right _ List.mem_cons_self
  have hall : LoadCall.AllSound l [] (earlier ++ c :: later) :=
    hcalls ▸ h.allSound (Session.Tracks.fresh rfl)
  refine ⟨?_, LoadCall.sound_of_allSound hall hok path d hpath hdocument⟩
  rw [← hok]
  exact h.runOn_of_mem hmem

/-- A document with an import that is not there. -/
def danglingFiles : MemoryFiles := .ofJson
  [("/app.json", .object
    [("imports", .array [MemoryFiles.importing "missing.json"]),
      ("services", .object [("db", .string "@other")])])]

/-- The loader of this document. -/
def dangling : Loader Id := { locator := danglingFiles.locator }

/-- The document breaks at its import. -/
theorem dangling_load : ∃ s d,
    runOn (dangling.load "app.json" none) {} =
      (.error (.resourceNotFound "missing.json" [⟨"/missing.json"⟩]), s) ∧
    dangling.documentAt ⟨"/app.json"⟩ = .ok (some d) ∧
    dangling.Admits "app.json" none s ⟨"/app.json"⟩ ∧ ⟨"/app.json"⟩ ∈ s.loaded ∧
    ¬ d.MergedIn s.graph := by
  rcases hrun : runOn (dangling.load "app.json" none) {} with ⟨outcome, s⟩
  have hfacts : (runOn (dangling.load "app.json" none) {}).1 =
        .error (.resourceNotFound "missing.json" [⟨"/missing.json"⟩]) ∧
      (runOn (dangling.load "app.json" none) {}).2.inProgress = [] ∧
      (runOn (dangling.load "app.json" none) {}).2.loaded = [⟨"/app.json"⟩] ∧
      (runOn (dangling.load "app.json" none) {}).2.graph.has "db" = false := by
    decide +kernel
  rw [hrun] at hfacts
  obtain ⟨rfl, hprogress, hloaded, hhas⟩ := hfacts
  have hservices : (dangling.documentAt ⟨"/app.json"⟩).map
      (fun result => result.map fun d => d.services.map Prod.fst) = .ok (some ["db"]) := by
    decide +kernel
  rcases hdocument : dangling.documentAt ⟨"/app.json"⟩ with _ | result
  · rw [hdocument] at hservices
    exact nomatch hservices
  rcases result with _ | d
  · rw [hdocument] at hservices
    exact nomatch Except.ok.inj hservices
  rw [hdocument] at hservices
  have hpath : dangling.pathOf "app.json" none = .ok ⟨"/app.json"⟩ := by
    decide +kernel
  have hadmits : dangling.Admits "app.json" none s ⟨"/app.json"⟩ := by
    refine ⟨hpath, ?_, ?_⟩
    · rw [show s.inProgress = [] from hprogress]
      exact List.not_mem_nil
    · rw [show s.inProgress = [] from hprogress]
      decide
  refine ⟨s, d, rfl, rfl, hadmits, hloaded ▸ List.mem_singleton.2 rfl, fun hmerged => ?_⟩
  have hids : d.services.map Prod.fst = ["db"] := Option.some.inj (Except.ok.inj hservices)
  have hdb : "db" ∈ d.services.map Prod.fst := hids ▸ List.mem_singleton.2 rfl
  obtain ⟨service, hservice, hid⟩ := List.mem_map.1 hdb
  have hhas' := hmerged.services service hservice
  rw [hid, hhas] at hhas'
  exact nomatch hhas'

/-- A second load of the document succeeds and merges nothing. -/
theorem dangling_load_again : ∃ s d,
    runOn (dangling.load "app.json" none) {} =
      (.error (.resourceNotFound "missing.json" [⟨"/missing.json"⟩]), s) ∧
    runOn (dangling.load "app.json" none) s = (.ok (), s) ∧
    dangling.documentAt ⟨"/app.json"⟩ = .ok (some d) ∧ ¬ d.MergedIn s.graph := by
  obtain ⟨s, d, hrun, hdocument, hadmits, hloaded, hnot⟩ := dangling_load
  exact ⟨s, d, hrun, (Runs.known hadmits hloaded).runOn_eq, hdocument, hnot⟩

theorem Loads.mergedIn_iff_dangling : ∃ s calls earlier c d,
    dangling.Loads [("app.json", none), ("app.json", none)] { graph := {} } s calls ∧
    calls = earlier ++ c :: [] ∧ c.outcome = .ok () ∧
    dangling.pathOf c.resource c.dir = .ok ⟨"/app.json"⟩ ∧
    dangling.documentAt ⟨"/app.json"⟩ = .ok (some d) ∧
    (d.MergedIn c.after.graph ↔
      d.MergedIn c.before.graph ∨ ∀ b ∈ earlier, ¬ b.Breaks dangling ⟨"/app.json"⟩) ∧
    ¬ d.MergedIn c.after.graph := by
  obtain ⟨s, d, hrun, hdocument, hadmits, hloaded, hnot⟩ := dangling_load
  obtain ⟨calls, hfirst⟩ := runOn_load_eq_iff.1 hrun
  have hloads := Loads.cons hfirst (.cons (.known hadmits hloaded) .nil)
  refine ⟨s, _, calls, _, d, hloads, rfl, rfl, hadmits.found, hdocument, ?_, hnot⟩
  exact (Loads.mergedIn_iff hloads rfl rfl hadmits.found hdocument).2.1

end Loader

end ServiceGraph
