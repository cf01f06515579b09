import Mathlib.Data.List.Perm.Subperm
import ServiceGraph.Json.Printer
import ServiceGraph.Locator.InMemory
import ServiceGraph.Proofs.Loading.Run
import ServiceGraph.Proofs.MemoryPaths
import ServiceGraph.Proofs.OrderedMap

/-!
# Documents of files in memory

The name of a file matters for the messages about its document only (`Document.parse_eq_of_ok`,
`Import.read_eq_of_ok`). So what holds of the documents that a loader can read from files in memory
can be checked on the texts of the files, as `MemoryFiles.allMandatory` does for
`Loader.AllMandatory`. Only files are located, so there are no more paths of documents than files
(`MemoryFiles.length_le_size`).
-/

set_option autoImplicit false

namespace ServiceGraph

theorem Document.parse_eq_of_ok {text file : String} {d : Document}
    (h : Document.parse text file = .ok (some d)) (file' : String) :
    Document.parse text file' = .ok (some ⟨file', d.parts⟩) := by
  rw [parse] at h ⊢
  by_cases hblank : Text.isBlankText text = true
  · rw [if_pos hblank] at h
    exact nomatch Except.ok.inj h
  · rw [if_neg hblank] at h ⊢
    cases hread : Json.read text with
    | error e =>
        rw [hread] at h
        exact nomatch h
    | ok value =>
        rw [hread] at h
        cases value with
        | object parts =>
            obtain rfl := Option.some.inj (Except.ok.inj h)
            rfl
        | null => exact nomatch Except.ok.inj h
        | _ => exact nomatch h

theorem Import.read_eq_of_ok {file : String} {item : Json} {entry : Import}
    (h : Import.read file item = .ok entry) (file' : String) :
    Import.read file' item = .ok entry := by
  cases item with
  | object members =>
      rw [read] at h ⊢
      rcases hresource : Json.member? "resource" members with _ | resource
      · rw [hresource] at h
        exact nomatch h
      rw [hresource] at h
      cases resource with
      | string resource =>
          rcases hignore : Json.member? "ignore_errors" members with _ | ignore
          · rw [hignore] at h
            exact h
          rw [hignore] at h
          cases ignore with
          | null => exact h
          | bool _ => exact h
          | _ => exact nomatch h
      | _ => exact nomatch h
  | _ => exact nomatch h

/-- No import of any document may fail. -/
def Loader.AllMandatory (l : Loader Id) : Prop :=
  ∀ (path : Path) (d : Document), l.documentAt path = .ok (some d) →
    ∀ item ∈ d.imports, ∀ entry, Import.read d.file item = .ok entry → entry.ignoreErrors = false

namespace MemoryFiles

/-- Files that hold JSON values. -/
def ofJson (files : List (String × Json)) : MemoryFiles :=
  files.foldl (fun f file => f.insert ⟨file.1⟩ file.2.compact) empty

/-- An entry of imports that may not fail. -/
def importing (resource : String) : Json := .object [("resource", .string resource)]

/-- Whether no import may fail of the document that is written in a text. -/
def isMandatory (text : String) : Bool :=
  match Document.parse text "" with
  | .ok (some d) => d.imports.all fun item =>
      match Import.read "" item with
      | .ok entry => !entry.ignoreErrors
      | .error _ => true
  | _ => true

theorem exists_mem_of_read {f : MemoryFiles} {path : Path} {text : String}
    (h : f.read path = .ok text) : ∃ names, (names, text) ∈ f.files.entries := by
  rw [read] at h
  cases hnames : (plainNames? path).bind f.files.get? with
  | none =>
      rw [hnames] at h
      cases h
  | some found =>
      rw [hnames] at h
      obtain ⟨names, -, hget⟩ := Option.bind_eq_some_iff.1 hnames
      exact ⟨names, OrderedMap.get?_eq_some_iff.1 (Except.ok.inj h ▸ hget)⟩

theorem allMandatory {f : MemoryFiles} {l : Loader Id} (hfiles : l.locator = f.locator)
    (h : ∀ file ∈ f.files.entries, isMandatory file.2 = true) : l.AllMandatory := by
  intro path d hdocument item hitem entry hentry
  obtain ⟨text, htext, hparse⟩ := Loader.documentAt_eq_ok_iff.1 hdocument
  rw [Loader.textOf, hfiles] at htext
  obtain ⟨names, hmem⟩ := exists_mem_of_read htext
  -- the check was made under another file name
  have hcheck := h _ hmem
  simp only [isMandatory, Document.parse_eq_of_ok hparse "", List.all_eq_true] at hcheck
  have hitem' := hcheck item hitem
  rw [Import.read_eq_of_ok hentry ""] at hitem'
  simpa using hitem'

/-- What is located is the path of a file. -/
theorem mem_paths_of_locate {f : MemoryFiles} {resource : String} {dir : Option Path} {path : Path}
    (h : f.locate resource dir = .ok path) : path ∈ f.files.keys.map Path.ofNames := by
  obtain ⟨p, -, rfl, hcontains⟩ := exists_names_of_locate h
  exact List.mem_map_of_mem ((OrderedMap.mem_keys_iff _ _).2 hcontains)

/-- There are at most as many located paths as there are files. -/
theorem length_le_size {f : MemoryFiles} {l : Loader Id} (hfiles : l.locator = f.locator)
    {paths : List Path} (hnodup : paths.Nodup)
    (hlocated : ∀ path ∈ paths, ∃ resource dir, l.pathOf resource dir = .ok path) :
    paths.length ≤ f.files.size := by
  have hsubset : paths ⊆ f.files.keys.map Path.ofNames := by
    intro path hpath
    obtain ⟨resource, dir, hfound⟩ := hlocated path hpath
    rw [Loader.pathOf, hfiles] at hfound
    exact mem_paths_of_locate hfound
  have hle := (hnodup.subperm hsubset).length_le
  rwa [List.length_map, OrderedMap.keys, List.length_map] at hle

end MemoryFiles

end ServiceGraph
