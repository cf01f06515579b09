import ServiceGraph.CommandLine.Run
import ServiceGraph.Disk.FileTree
import ServiceGraph.Proofs.Capabilities

/-!
# Unusable manifests

A manifest is rejected for one of three reasons: its file cannot be read, its text is no manifest
(`Manifest.Writes`), or it is one that lists a name which denotes no capability
(`Manifest.ListsUnknownName`). The failure belongs to the configuration in each case, but the third
reason has the category of a fault in a document, and the category is what decides the exit code of
a command (`CommandLine.rejected_manifest_exits`).

The disk is any that has states, so a file may change from one access to the next.
-/

set_option autoImplicit false

namespace ServiceGraph

/-- An access to a disk is followed by what comes next, in the state that it leads to. -/
theorem Disk.run_bind {σ α β : Type} {x : StateM σ α} {s s' : σ} {a : α} (h : x.run s = (a, s'))
    (next : α → StateM σ β) : (x >>= next).run s = (next a).run s' := by
  rw [StateT.run_bind, h]
  rfl

theorem eq_error_of_map_eq_error {α β : Type} {x : Except Failure α} {g : α → β} {e : Failure}
    (h : x.map g = .error e) : x = .error e := by
  cases x with
  | ok a => cases h
  | error e' => rw [Except.error.inj h]

namespace Manifest

variable {text source : String} {m : Manifest} {f : Failure}

/-! ## Why a text is rejected -/

/-- A text writes a manifest. -/
def Writes (text : String) (m : Manifest) : Prop :=
  ∃ value, Json.readWritten text = .ok value ∧ ofJson? value = some m

/-- A text writes a manifest that lists a name which denotes no capability. -/
def ListsUnknownName (text : String) : Prop :=
  ∃ m, Writes text m ∧
    ∃ entry ∈ m.classes.entries, ∃ name ∈ entry.2, ∀ c : Capability, ¬ c.Denotes name

/-- A text is parsed to the manifest that it writes, and the failure of a text that writes none
names the source. -/
theorem parse_writes_or_fails (text source : String) :
    (∃ m, parse text source = .ok m ∧ Writes text m) ∨
    ∃ reason, parse text source = .error (.malformedManifest source reason) ∧
      ∀ m, ¬ Writes text m := by
  rw [parse]
  cases hread : Json.readWritten text with
  | error e =>
      refine Or.inr ⟨e.message, rfl, ?_⟩
      rintro m ⟨value, hvalue, -⟩
      exact nomatch hread.symm.trans hvalue
  | ok value =>
      dsimp only
      cases hvalue : ofJson? value with
      | some m => exact Or.inl ⟨m, rfl, value, hread, hvalue⟩
      | none =>
          refine Or.inr ⟨_, rfl, ?_⟩
          rintro m ⟨value', hvalue', hm⟩
          obtain rfl := Except.ok.inj (hread.symm.trans hvalue')
          exact nomatch hvalue.symm.trans hm

theorem denotes_none_of_readCapability_eq_error {name : String}
    (h : readCapability name = .error f) :
    f = .unknownCapability name ∧ ∀ c : Capability, ¬ c.Denotes name := by
  refine ⟨?_, fun c hc => nomatch h.symm.trans (readCapability_eq_ok_iff.2 hc)⟩
  rw [readCapability] at h
  split at h
  · cases h
  · exact (Except.error.inj h).symm

/-- The failure of a manifest names a listed name that denotes no capability. -/
theorem exists_unknown_of_registry_eq_error (h : m.registry = .error f) :
    ∃ entry ∈ m.classes.entries, ∃ name ∈ entry.2,
      f = .unknownCapability name ∧ ∀ c : Capability, ¬ c.Denotes name := by
  rw [registry] at h
  cases hall : m.classes.entries.mapM fun e => descriptor e.1 e.2 with
  | ok ds =>
      rw [hall] at h
      cases h
  | error e =>
      rw [hall] at h
      obtain rfl := Except.error.inj h
      obtain ⟨entry, hentry, hdescriptor⟩ := exists_mem_of_mapM_eq_error hall
      rw [descriptor] at hdescriptor
      cases hnames : entry.2.mapM readCapability with
      | ok cs =>
          rw [hnames] at hdescriptor
          cases hdescriptor
      | error e' =>
          rw [hnames] at hdescriptor
          obtain rfl := Except.error.inj hdescriptor
          obtain ⟨name, hname, hread⟩ := exists_mem_of_mapM_eq_error hnames
          exact ⟨entry, hentry, name, hname, denotes_none_of_readCapability_eq_error hread⟩

end Manifest

namespace CapabilityRegistry

open Manifest

variable {text source : String} {f : Failure}

/-- A text is rejected because it writes no manifest, or because of a name that it lists. -/
theorem rejected_text (h : ofManifestText text source = .error f) :
    (∃ reason, f = .malformedManifest source reason ∧ ∀ m, ¬ Writes text m) ∨
    ∃ name, f = .unknownCapability name ∧ ListsUnknownName text := by
  rw [ofManifestText] at h
  rcases parse_writes_or_fails text source with ⟨m, hparse, hwrites⟩ | ⟨reason, hparse, hnone⟩
  · rw [hparse] at h
    obtain ⟨entry, hentry, name, hname, hf, hunknown⟩ := exists_unknown_of_registry_eq_error h
    exact Or.inr ⟨name, hf, m, hwrites, entry, hentry, name, hname, hunknown⟩
  · rw [hparse] at h
    exact Or.inl ⟨reason, (Except.error.inj h).symm, hnone⟩

/-- A rejected text is a fault of the configuration, and has this category as well unless it is a
name in it that is unknown. -/
theorem classified_of_rejected_text (h : ofManifestText text source = .error f) :
    f.kind = .configuration ∧ (f.category = .configuration ↔ ¬ ListsUnknownName text) ∧
      (f.category = .validation ↔ ListsUnknownName text) := by
  rcases rejected_text h with ⟨reason, rfl, hnone⟩ | ⟨name, rfl, hunknown⟩
  · have hnot : ¬ ListsUnknownName text := fun ⟨m, hwrites, _⟩ => hnone m hwrites
    exact ⟨rfl, iff_of_true rfl hnot, iff_of_false nofun hnot⟩
  · exact ⟨rfl, iff_of_false nofun (not_not_intro hunknown), iff_of_true rfl hunknown⟩

/-! ## Why a file is rejected -/

section

variable {σ : Type} {disk : Disk (StateM σ)} {p : Path} {s s' : σ}

/-- A file is rejected because it cannot be read, or because of its text. -/
theorem rejected_file (h : (ofManifestFile disk p).run s = (.error f, s')) :
    (∃ e, (disk.readText p).run s = (.error e, s') ∧ f = .unreadableManifest p e.message) ∨
    ∃ text, (disk.readText p).run s = (.ok text, s') ∧ ofManifestText text p.text = .error f := by
  rcases hread : (disk.readText p).run s with ⟨content, s''⟩
  rw [ofManifestFile, Disk.run_bind hread] at h
  cases content with
  | error e =>
      obtain ⟨hf, rfl⟩ := Prod.mk.inj h
      exact Or.inl ⟨e, rfl, (Except.error.inj hf).symm⟩
  | ok text =>
      obtain ⟨hf, rfl⟩ := Prod.mk.inj h
      exact Or.inr ⟨text, rfl, hf⟩

/-- The file at a path is read as a manifest whose fault is an unknown name. -/
def HoldsUnknownName (disk : Disk (StateM σ)) (p : Path) (s s' : σ) : Prop :=
  ∃ text, (disk.readText p).run s = (.ok text, s') ∧ ListsUnknownName text

/-- A rejected file is a fault of the configuration, and has this category as well unless a name in
it is unknown. -/
theorem classified_of_rejected_file (h : (ofManifestFile disk p).run s = (.error f, s')) :
    f.kind = .configuration ∧ (f.category = .configuration ↔ ¬ HoldsUnknownName disk p s s') ∧
      (f.category = .validation ↔ HoldsUnknownName disk p s s') := by
  rcases rejected_file h with ⟨e, hread, rfl⟩ | ⟨text, hread, htext⟩
  · have hnot : ¬ HoldsUnknownName disk p s s' := by
      rintro ⟨text, hread', -⟩
      exact nomatch congrArg Prod.fst (hread.symm.trans hread')
    exact ⟨rfl, iff_of_true rfl hnot, iff_of_false nofun hnot⟩
  · have hsame : HoldsUnknownName disk p s s' ↔ ListsUnknownName text := by
      constructor
      · rintro ⟨text', hread', hunknown⟩
        obtain rfl := Except.ok.inj (congrArg Prod.fst (hread.symm.trans hread'))
        exact hunknown
      · exact fun hunknown => ⟨text, hread, hunknown⟩
    rw [hsame]
    exact classified_of_rejected_text htext

end

end CapabilityRegistry

namespace CommandLine

open CapabilityRegistry Manifest

/-! ## Codes of categories -/

/-- The code that failures of a category exit with. -/
def codeOf : FailureCategory → Nat
  | .internal => 1
  | .validation => 2
  | .notFound => 3
  | .configuration => 4

/-- The code of a failed compilation tells the category of the failure. -/
theorem code_eq_iff {f : Failure} {verbose : Bool} {category : FailureCategory} :
    (Outcome.failed (.compilation f) verbose).report.code = codeOf category ↔
      f.category = category := by
  have hcode : (Outcome.failed (.compilation f) verbose).report.code = codeOf f.category := by
    rw [Outcome.report, CommandFailure.exitCode]
    cases f.category <;> rfl
  have hinjective : Function.Injective codeOf := by
    intro c c' h
    cases c <;> cases c' <;> first | rfl | cases h
  rw [hcode, hinjective.eq_iff]

section

variable {σ : Type} {disk : Disk (StateM σ)} {environment : Variables} {words : List String}
  {request : Request} {o : CompilerOptions} {settings : Settings} {p : Path} {f : Failure}
  {s₀ s s' : σ}

/-! ## What a command makes of it -/

/-- Words ask for a compilation with the manifest at a path, and nothing but the manifest can be
wrong with the compiler: settings are loaded, and its scope is not blank. Loading them leads from
one state of the disk to another. -/
structure AsksFor (disk : Disk (StateM σ)) (environment : Variables) (words : List String)
    (request : Request) (o : CompilerOptions) (settings : Settings) (s₀ s : σ) (p : Path) :
    Prop where
  reads : readRequest environment words = .ok request
  compiles : request.command = .check o ∨ ∃ out, request.command = .compile o out
  loads : (Settings.load disk environment request.options.settingsFile).run s₀ = (.ok settings, s)
  scope_filled : Text.isBlankText (o.scope.getD settings.scope) = false
  manifest : (o.capabilities <|> settings.capabilities) = some p

theorem runOn_compileFiles_of_rejected
    (hscope : Text.isBlankText (o.scope.getD settings.scope) = false)
    (hmanifest : (o.capabilities <|> settings.capabilities) = some p)
    (h : (ofManifestFile disk p).run s = (.error f, s')) :
    (compileFiles disk o settings).run s = (.error (.compilation f), s') := by
  have hbuild : (buildCompiler disk o settings).run s = (.error (.compilation f), s') := by
    simp only [buildCompiler, hscope, hmanifest, Bool.false_eq_true, if_false]
    exact Disk.run_bind h _
  rw [compileFiles, Disk.run_bind hbuild]
  rfl

/-- A command whose manifest is rejected fails with this rejection. -/
theorem run_of_rejected (terminal : Bool)
    (hasks : AsksFor disk environment words request o settings s₀ s p)
    (h : (ofManifestFile disk p).run s = (.error f, s')) :
    (run disk environment terminal words).run s₀ =
      (.failed (.compilation f) (0 < request.options.verbosity), s') := by
  have hfiles := runOn_compileFiles_of_rejected hasks.scope_filled hasks.manifest h
  have hperform (screen : Screen) :
      (perform disk environment screen settings request.command).run s =
        (.error (.compilation f), s') := by
    rcases hasks.compiles with hcommand | ⟨out, hcommand⟩
    · rw [hcommand, perform, Disk.run_bind hfiles]
      rfl
    · rw [hcommand, perform, Disk.run_bind hfiles]
      rfl
  simp only [run, hasks.reads]
  rw [Disk.run_bind hasks.loads, Disk.run_bind (hperform _)]
  rfl

end

/-- Every rejected manifest is a fault of the configuration by its kind. It has the category of one,
and a command that uses it exits with the code of one, exactly when no unknown name in it is to
blame; an unknown name counts as a fault in a document. -/
theorem rejected_manifest_exits {σ : Type} (disk : Disk (StateM σ)) :
    (∀ text source f, ofManifestText text source = .error f →
      f.kind = .configuration ∧ (f.category = .configuration ↔ ¬ ListsUnknownName text)) ∧
    ∀ p s f s', (ofManifestFile disk p).run s = (.error f, s') →
      f.kind = .configuration ∧ (f.category = .configuration ↔ ¬ HoldsUnknownName disk p s s') ∧
      ∀ environment terminal words request o settings s₀,
        AsksFor disk environment words request o settings s₀ s p →
        ∃ outcome, (run disk environment terminal words).run s₀ = (outcome, s') ∧
          (outcome.report.code = 4 ↔ ¬ HoldsUnknownName disk p s s') ∧
          (outcome.report.code = 2 ↔ HoldsUnknownName disk p s s') := by
  refine ⟨fun text source f h => ?_, fun p s f s' h => ?_⟩
  · obtain ⟨hkind, hconfiguration, -⟩ := classified_of_rejected_text h
    exact ⟨hkind, hconfiguration⟩
  · obtain ⟨hkind, hconfiguration, hvalidation⟩ := classified_of_rejected_file h
    refine ⟨hkind, hconfiguration, fun environment terminal words request o settings s₀ hasks => ?_⟩
    refine ⟨_, run_of_rejected terminal hasks h, ?_, ?_⟩
    · exact code_eq_iff.trans hconfiguration
    · exact code_eq_iff.trans hvalidation

/-- The text of a manifest that lists something for one class. -/
def listing (names : Json) : String :=
  (Json.object [("classes", .object [("Greeter", names)])]).compact

/-- A document without services, and that manifest. -/
def filesListing (names : Json) : FileTree where
  workingDirectory := ["app"]
  files := .ofList
    [(["app", "app.json"], (Json.object []).compact.toUTF8),
      (["app", "caps.json"], (listing names).toUTF8)]

/-- A check of the document with the manifest. -/
def checkWords : List String := ["check", "app.json", "--capabilities", "caps.json"]

/-- What the check asks for. -/
def checkOptions : CompilerOptions := { files := ["app.json"], capabilities := some ⟨"caps.json"⟩ }

/-- The report of the check. -/
def checkReport (names : Json) : Report :=
  ((run FileTree.disk [] false checkWords).run (filesListing names)).1.report

/-- A manifest that lists a text where a list should be. -/
def unlisted : Json := .string "query_handler"

theorem rejected_manifest_exits_unlisted :
    ∃ f, ofManifestText (listing unlisted) "caps.json" = .error f ∧
      ¬ ListsUnknownName (listing unlisted) ∧
      (ofManifestFile FileTree.disk ⟨"caps.json"⟩).run (filesListing unlisted) =
        (.error f, filesListing unlisted) ∧
      f.kind = .configuration ∧ f.category = .configuration ∧ (checkReport unlisted).code = 4 := by
  have htext : ofManifestText (listing unlisted) "caps.json" =
      .error (.malformedManifest "caps.json" "it is not a list of classes") := by
    refine eq_error_of_map_eq_error (g := fun _ => ()) ?_
    decide +kernel
  have hfile : (ofManifestFile FileTree.disk ⟨"caps.json"⟩).run (filesListing unlisted) =
      (.error (.malformedManifest "caps.json" "it is not a list of classes"),
        filesListing unlisted) := by
    refine Prod.ext (eq_error_of_map_eq_error (g := fun _ => ()) ?_) rfl
    decide +kernel
  have hasks : AsksFor FileTree.disk [] checkWords { options := {}, command := .check checkOptions }
      checkOptions {} (filesListing unlisted) (filesListing unlisted) ⟨"caps.json"⟩ := by
    refine ⟨by decide +kernel, Or.inl rfl, Prod.ext ?_ rfl, by decide +kernel, rfl⟩
    decide +kernel
  obtain ⟨hclassified, hcommands⟩ := rejected_manifest_exits FileTree.disk
  obtain ⟨hkind, hcategory, hrun⟩ := hcommands _ _ _ _ hfile
  obtain ⟨outcome, houtcome, hfour, -⟩ := hrun [] false _ _ _ _ _ hasks
  refine ⟨_, htext, (hclassified _ _ _ htext).2.1 rfl, hfile, hkind, rfl, ?_⟩
  rw [checkReport, houtcome]
  exact hfour.2 (hcategory.1 rfl)

/-- A name that no capability has is not a fault of the configuration by its category, and the check
that meets it exits as for a fault in a document. It succeeds when the name is known. -/
theorem unknown_name_exits_two :
    (∃ f, ofManifestText (listing (.array [.string "handler"])) "caps.json" = .error f ∧
      f.kind = .configuration ∧ f.category = .validation) ∧
    (checkReport (.array [.string "handler"])).code = 2 ∧
    (checkReport (.array [.string "query_handler"])).code = 0 := by
  refine ⟨⟨.unknownCapability "handler", ?_, rfl, rfl⟩, by decide +kernel, by decide +kernel⟩
  refine eq_error_of_map_eq_error (g := fun _ => ()) ?_
  decide +kernel

end CommandLine

end ServiceGraph
