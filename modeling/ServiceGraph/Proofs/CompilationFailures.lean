import ServiceGraph.Compiler
import ServiceGraph.Json.Printer
import ServiceGraph.Proofs.FailureKinds
import ServiceGraph.Proofs.Inheritance
import ServiceGraph.Proofs.Loading.Files
import ServiceGraph.Proofs.MemoryPaths
import ServiceGraph.Proofs.Placeholder.Expansion
import ServiceGraph.Proofs.Wiring.Lookups

/-!
# How a compilation fails

A compilation of files in memory fails for what the documents say or do not say
(`Failure.OfDocuments`): never because of a service that some stage of it has lost sight of, and
never in a way that the user could do nothing about. Each stage has its share in this. A located
file can be read, so loading fails for want of a resource or for what a document holds
(`Runs.ofDocuments`). Extensions that set parameters do not fail (`ExtensionRegistry.process_ok`).
Flattening walks along ids of definitions only, and wiring looks up ids that it has found in the
graph (`Wiring.applyByLookup_eq`). `Compiler.compile_fails_for_documents` puts the stages together.
-/

set_option autoImplicit false

namespace ServiceGraph

open Loading (runOn)

/-! ## Failures that documents account for -/

/-- The kinds of failures that documents account for. -/
def documentFailureKinds : List FailureKind :=
  [.parse, .schema, .imports, .recursion, .unknownExtension, .invalidFactoryReference, .inheritance,
    .parameter, .wiring]

/-- A failure that documents account for: no service is looked up in vain, and nothing is missing
but a resource. -/
structure Failure.OfDocuments (e : Failure) : Prop where
  kind_mem : e.kind ∈ documentFailureKinds
  category_eq : e.category = .validation ∨
    e.category = .notFound ∧ ∃ resource searched, e = .resourceNotFound resource searched

/-- The kinds of failures that are always a matter of validation. -/
def validationKinds : List FailureKind :=
  [.parse, .schema, .recursion, .unknownExtension, .invalidFactoryReference, .inheritance,
    .parameter, .wiring]

theorem Failure.ofDocuments_of_mem {e : Failure} (h : e.kind ∈ validationKinds) :
    e.OfDocuments := by
  have hsubset : validationKinds ⊆ documentFailureKinds := by decide
  refine ⟨hsubset h, Or.inl ?_⟩
  cases e with
  -- these failures are of other kinds
  | serviceNotFound | resourceNotFound | unreadable | duplicateExtension | unreadableManifest
  | malformedManifest => exact absurd h (by simp [kind, validationKinds])
  | _ => rfl

theorem FailsAs.ofDocuments {α : Type} {kinds : List FailureKind} {x : Except Failure α}
    (h : FailsAs kinds x) (hkinds : kinds ⊆ validationKinds) {e : Failure} (he : x = .error e) :
    e.OfDocuments :=
  Failure.ofDocuments_of_mem (hkinds (h e he))

/-! ## Loading -/

/-- A locator fails for want of a resource only, and what it finds can be read. -/
structure Loader.Serves (l : Loader Id) : Prop where
  pathOf (resource : String) (dir : Option Path) (e : Failure) :
    l.pathOf resource dir = .error e → e.OfDocuments
  textOf (resource : String) (dir : Option Path) (path : Path) :
    l.pathOf resource dir = .ok path → ∃ text, l.textOf path = .ok text

theorem MemoryFiles.ofDocuments_of_locate {f : MemoryFiles} {resource : String}
    {dir : Option Path} {e : Failure} (h : f.locate resource dir = .error e) : e.OfDocuments := by
  have hkind : e.kind = .imports := by simpa using f.failsAs_locate resource dir e h
  refine ⟨by simp [hkind, documentFailureKinds], ?_⟩
  have hcause : e = .notLocal resource ∨
      ∃ resource searched, e = .resourceNotFound resource searched := by
    rw [locate] at h
    cases hlocal : localPath resource with
    | error e' =>
        rw [hlocal] at h
        obtain rfl := Except.error.inj h
        rw [localPath] at hlocal
        split at hlocal
        · cases hlocal
        · split at hlocal
          · cases hlocal
          · split at hlocal
            · exact Or.inl (Except.error.inj hlocal).symm
            · cases hlocal
    | ok p =>
        rw [hlocal] at h
        simp only [bind, Except.bind] at h
        split at h
        · cases h
        · exact Or.inr ⟨_, _, (Except.error.inj h).symm⟩
  rcases hcause with rfl | ⟨resource, searched, rfl⟩
  · exact Or.inl rfl
  · exact Or.inr ⟨rfl, resource, searched, rfl⟩

/-- Files in memory serve a loader. -/
theorem MemoryFiles.serves {f : MemoryFiles} {l : Loader Id} (hfiles : l.locator = f.locator) :
    l.Serves where
  pathOf resource dir e h := by
    rw [Loader.pathOf, hfiles] at h
    exact ofDocuments_of_locate h
  textOf resource dir path h := by
    rw [Loader.pathOf, hfiles] at h
    obtain ⟨text, htext⟩ := exists_read_of_locate h
    exact ⟨text, by rw [Loader.textOf, hfiles]; exact htext⟩

/-- A run that fails does so for what the documents say. -/
theorem Runs.ofDocuments {l : Loader Id} {task : LoadTask} {s s' : Session}
    {outcome : Except Failure Unit} {calls : List LoadCall} (hl : l.Serves)
    (h : Runs l task s outcome s' calls) {e : Failure} (he : outcome = .error e) :
    e.OfDocuments := by
  induction h with
  | notFound hpath =>
      obtain rfl := Except.error.inj he
      exact hl.pathOf _ _ _ hpath
  | cycle _ _ | tooDeep _ _ _ =>
      obtain rfl := Except.error.inj he
      exact Failure.ofDocuments_of_mem (by simp [Failure.kind, validationKinds])
  | known _ _ | empty _ _ _ | done => cases he
  | unreadable hadmits _ htext =>
      -- the path was located, so there is a text at it
      obtain ⟨text, hread⟩ := hl.textOf _ _ _ hadmits.found
      exact nomatch htext.symm.trans hread
  | malformed _ _ _ hparse =>
      obtain rfl := Except.error.inj he
      exact (Document.failsAs_parse _ _).ofDocuments (by decide) hparse
  | refused haccept =>
      obtain rfl := Except.error.inj he
      exact (l.failsAs_accept _).ofDocuments (by decide) haccept
  | merged _ _ hown =>
      exact (Loader.failsAs_mergeOwn _ _).ofDocuments (by decide)
        ((congrArg Prod.fst hown).trans he)
  | badImport hentry =>
      obtain rfl := Except.error.inj he
      exact (Import.failsAs_read _ _).ofDocuments (by decide) hentry
  | opened _ _ _ _ ih => exact ih he
  | stopped _ _ ih => exact ih he
  | imported _ _ _ _ ih => exact ih he
  | ignored _ _ _ _ _ _ ih => exact ih he
  | failed _ _ _ ih => exact ih he

theorem Loader.ofDocuments_of_loadAll {l : Loader Id} (hl : l.Serves) (entries : List String)
    {s s' : Session} {e : Failure} (h : runOn (l.loadAll entries) s = (.error e, s')) :
    e.OfDocuments := by
  induction entries generalizing s with
  | nil => cases congrArg Prod.fst h
  | cons entry rest ih =>
      rw [runOn_loadAll_cons] at h
      rcases hload : runOn (l.load entry none) s with ⟨outcome, s₁⟩
      rw [hload] at h
      cases outcome with
      | ok _ => exact ih h
      | error e' =>
          obtain rfl := Except.error.inj (congrArg Prod.fst h)
          obtain ⟨calls, hrun⟩ := runOn_load_eq_iff.1 hload
          exact hrun.ofDocuments hl rfl

/-! ## Extensions -/

namespace ExtensionRegistry

/-- Only extensions that set parameters are registered. -/
def SetsParameters (r : ExtensionRegistry) : Prop :=
  ∀ entry ∈ r.extensions.entries, ∃ name, entry.2 = .parameters name

theorem processAll_ok {extensions : List Extension}
    (h : ∀ x ∈ extensions, ∃ name, x = .parameters name) (g : Graph) :
    ∃ count g', (processAll extensions).runOn g = (.ok count, g') := by
  induction extensions generalizing g with
  | nil => exact ⟨0, g, rfl⟩
  | cons x rest ih =>
      have hrest : ∀ y ∈ rest, ∃ name, y = .parameters name :=
        fun y hy => h y (List.mem_cons_of_mem x hy)
      obtain ⟨name, rfl⟩ := h x List.mem_cons_self
      rw [processAll, Building.runOn_bind, Building.runOn_get]
      dsimp only
      split
      · exact ih hrest g
      · rw [Building.runOn_bind]
        obtain ⟨count, g', hrun⟩ := ih hrest
          ((g.blocksOf name).foldl (Extension.setParameters name) g)
        refine ⟨count + 1, g', ?_⟩
        show Building.runOn (processAll rest >>= fun count => pure (count + 1)) _ = _
        rw [Building.runOn_bind]
        exact hrun ▸ rfl

theorem process_ok {r : ExtensionRegistry} (h : r.SetsParameters) (g : Graph) :
    ∃ count g', r.process.runOn g = (.ok count, g') := by
  refine processAll_ok (fun x hx => ?_) g
  obtain ⟨entry, hentry, rfl⟩ := List.mem_map.1 hx
  exact h entry hentry

end ExtensionRegistry

/-! ## Flattening and wiring -/

theorem Graph.failsAs_flattenInheritance (g : Graph) :
    FailsAs [.inheritance] (flattenInheritance.runOn g).1 := by
  rcases g.flattened_or_fault with ⟨count, g', hrun, -⟩ | ⟨e, hrun, hfault, -⟩
  · rw [hrun]
    exact .ok count
  · rw [hrun]
    cases hfault with
    | missingParent _ _ _ => exact .error List.mem_cons_self
    | parentCycle _ _ => exact .error List.mem_cons_self

theorem Placeholder.failsAs_expand (parameters : Parameters) (s : String) :
    FailsAs [.parameter] (expand parameters s) := by
  rcases expand_replaced_or_fault parameters s with ⟨out, hok, -⟩ | ⟨e, herror, hfault⟩
  · rw [hok]
    exact .ok out
  · rw [herror]
    cases hfault with
    | unknown _ _ => exact .error List.mem_cons_self
    | structured _ _ _ _ => exact .error List.mem_cons_self
    | cycle _ _ => exact .error List.mem_cons_self

namespace Wiring

/-- The kinds of failures of a rule. -/
def failureKinds : List FailureKind := [.wiring, .parameter]

theorem failsAs_eligibleClass (w : Wiring) (parameters : Parameters) (id : String) (d : Definition)
    (capability : Capability) :
    FailsAs failureKinds (w.eligibleClass parameters id d capability) := by
  have hfault : ∀ fault, FailsAs failureKinds (.error (.wiring id fault) : Except Failure String) :=
    fun fault => .error List.mem_cons_self
  rw [eligibleClass_eq]
  split
  · exact hfault _
  · split
    · exact hfault _
    · split
      · exact hfault _
      · split
        · rename_i e hexpand
          exact .error (List.mem_cons_of_mem _ (Placeholder.failsAs_expand _ _ e hexpand))
        · split
          · exact .ok _
          · exact hfault _

theorem failsAs_callsFor (w : Wiring) (parameters : Parameters) (rule : WiringRule) (id : String)
    (d : Definition) : FailsAs failureKinds (w.callsFor parameters rule id d) := by
  cases hrule : rule.binding with
  | filter =>
      rw [callsFor, hrule]
      exact .ok _
  | handler key capability =>
      rw [callsFor_handler hrule]
      refine (w.failsAs_eligibleClass _ _ _ _).bind fun _ => .mapM (fun tag => ?_) _
      rw [registration]
      split
      · exact .error List.mem_cons_self
      · exact .ok _
  | subscriber capability =>
      rw [callsFor_subscriber hrule]
      exact (w.failsAs_eligibleClass _ _ _ _).bind fun _ => .ok _

theorem failsAs_apply (w : Wiring) (g : Graph) (rule : WiringRule) :
    FailsAs failureKinds (w.apply g rule) := by
  rw [apply]
  dsimp only
  split
  · refine FailsAs.bind ?_ fun _ => .ok _
    exact (FailsAs.mapM (fun _ => w.failsAs_callsFor _ rule _ _) _).bind fun _ => .ok _
  · exact .ok _

theorem failsAs_applyAll (w : Wiring) (rules : List WiringRule) (g : Graph) :
    FailsAs failureKinds ((w.applyAll rules).runOn g).1 := by
  induction rules generalizing g with
  | nil => exact .ok 0
  | cons rule rest ih =>
      rw [runOn_applyAll_cons]
      cases happly : w.apply g rule with
      | error e => exact .error (w.failsAs_apply g rule e happly)
      | ok applied =>
          obtain ⟨g', count⟩ := applied
          have hrest := ih g'
          dsimp only
          rcases hrun : (w.applyAll rest).runOn g' with ⟨outcome, g''⟩
          rw [hrun] at hrest
          cases outcome with
          | error e => exact .error (hrest e rfl)
          | ok total => exact .ok _

end Wiring

/-! ## Compiling -/

namespace Compiler

/-- What follows the loading of documents fails for what they say, if it does. -/
theorem ofDocuments_of_finish {extensions : ExtensionRegistry} (h : extensions.SetsParameters)
    (wiring : Wiring) (g : Graph) {e : Failure}
    (he : ((finish extensions wiring).runOn g).1 = .error e) : e.OfDocuments := by
  obtain ⟨processed, g₁, hprocess⟩ := ExtensionRegistry.process_ok h g
  rw [finish, Building.runOn_bind, hprocess] at he
  dsimp only at he
  rw [Building.runOn_bind] at he
  have hflatten := g₁.failsAs_flattenInheritance
  rcases hrun : Graph.flattenInheritance.runOn g₁ with ⟨flattened, g₂⟩
  rw [hrun] at he hflatten
  cases flattened with
  | error e' =>
      obtain rfl := Except.error.inj he
      exact hflatten.ofDocuments (by decide) rfl
  | ok _ =>
      dsimp only at he
      rw [Building.runOn_bind] at he
      have hwire : FailsAs Wiring.failureKinds (wiring.process.runOn g₂).1 :=
        wiring.failsAs_applyAll wiringRules g₂
      rcases hrun' : wiring.process.runOn g₂ with ⟨wired, g₃⟩
      rw [hrun'] at he hwire
      cases wired with
      | error e' =>
          obtain rfl := Except.error.inj he
          exact hwire.ofDocuments (by decide) rfl
      | ok _ => cases he

/-- A compilation loads the entries into an empty graph and finishes what was loaded. -/
theorem run_compile (c : Compiler Id) (entries : List String) :
    Id.run (c.compile entries) =
      match runOn (c.loader.loadAll entries) {} with
      | (.error e, _) => .error e
      | (.ok (), s) => ((finish c.loader.extensions c.wiring).runOn s.graph).1 := by
  rcases hrun : runOn (c.loader.loadAll entries) {} with ⟨outcome, s⟩
  have hload : (c.loader.loadAll entries).run.run {} = (outcome, s) := hrun
  rw [compile, hload]
  cases outcome with
  | error e => rfl
  | ok _ => rfl

/-- A compilation of files in memory whose extensions set parameters fails only in ways that
documents account for: the kind of the failure is one of theirs, so no service is looked up in vain,
and nothing is not found but a resource. Wiring could look up every id that it has found already
and would do the same. -/
theorem compile_fails_for_documents (c : Compiler Id) (f : MemoryFiles) (entries : List String)
    (hfiles : c.loader.locator = f.locator) (hextensions : c.loader.extensions.SetsParameters) :
    (∀ e, Id.run (c.compile entries) = .error e → e.OfDocuments) ∧
      ∀ g rule, c.wiring.applyByLookup g rule = c.wiring.apply g rule := by
  refine ⟨fun e he => ?_, c.wiring.applyByLookup_eq⟩
  rw [run_compile] at he
  rcases hrun : runOn (c.loader.loadAll entries) {} with ⟨outcome, s⟩
  rw [hrun] at he
  cases outcome with
  | error e' =>
      obtain rfl := Except.error.inj he
      exact Loader.ofDocuments_of_loadAll (MemoryFiles.serves hfiles) entries hrun
  | ok _ => exact ofDocuments_of_finish hextensions c.wiring s.graph he

/-- A file whose command handler has no class, and a block for the extension of the mailer. -/
def classlessFiles : MemoryFiles :=
  .ofJson [("app.json", .object [
    ("mailer", .object [("host", .string "localhost")]),
    ("services", .object [
      ("common.command_service_map", .object [("class", .string "Map")]),
      ("greet", .object [("tags", .array [.object [
        ("name", .string "common.command_handler"), ("command", .string "Greet")]])])])])]

/-- The compiler of these files. -/
def classless : Compiler Id where
  loader := { locator := classlessFiles.locator
              extensions := ⟨OrderedMap.insert ∅ "mailer" (.parameters "mailer")⟩ }

theorem compile_fails_for_documents_classless :
    Id.run (classless.compile ["app.json"]) =
        .error (.wiring "greet" (.withoutClass .commandHandler)) ∧
      (Failure.wiring "greet" (.withoutClass .commandHandler)).OfDocuments := by
  have hextensions : classless.loader.extensions.SetsParameters := by
    intro entry hentry
    obtain rfl := List.mem_singleton.1 hentry
    exact ⟨"mailer", rfl⟩
  have herror : Id.run (classless.compile ["app.json"]) =
      .error (.wiring "greet" (.withoutClass .commandHandler)) := by
    have hforget : (Id.run (classless.compile ["app.json"])).map (fun _ => ()) =
        .error (.wiring "greet" (.withoutClass .commandHandler)) := by
      decide +kernel
    cases hrun : Id.run (classless.compile ["app.json"]) with
    | ok g =>
        rw [hrun] at hforget
        cases hforget
    | error e =>
        rw [hrun] at hforget
        exact congrArg Except.error (Except.error.inj hforget)
  exact ⟨herror, (compile_fails_for_documents classless classlessFiles ["app.json"] rfl
    hextensions).1 _ herror⟩

end Compiler

end ServiceGraph
