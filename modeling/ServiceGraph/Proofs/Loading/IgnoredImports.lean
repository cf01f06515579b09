import ServiceGraph.Proofs.FailureKinds
import ServiceGraph.Proofs.Loading.Bookkeeping
import ServiceGraph.Proofs.Loading.Files

/-!
# What an ignored import leaves behind

An import that may fail is left out when the load of its resource fails with a failure of the kind
`FailureKind.imports`. Such a failure comes from the resource itself, which is not found or cannot
be read (`Loader.Unavailable`), or from a resource that it imports, directly or not. In the first
case the load changes nothing; in the second one the documents that it opened stay in the graph
(`Runs.graph_eq_iff_unavailable`).

`Loader.ignored_import_unchanged_iff` states this for an entry of the imports of any document, in
any session.
-/

set_option autoImplicit false

namespace ServiceGraph

open Loading (runOn)

/-- A resource is not found, or the file that it names cannot be read. -/
inductive Loader.Unavailable (l : Loader Id) (resource : String) (dir : Option Path) : Prop
  | notFound {e : Failure} (hpath : l.pathOf resource dir = .error e) : Unavailable l resource dir
  | unreadable {path : Path} {e : Failure} (hpath : l.pathOf resource dir = .ok path)
      (htext : l.textOf path = .error e) : Unavailable l resource dir

namespace Loader.Unavailable

variable {l : Loader Id} {resource : String} {dir : Option Path} {path : Path}

/-- The text at the path of a resource that is not available cannot be read. -/
theorem exists_textOf_eq_error (h : l.Unavailable resource dir)
    (hpath : l.pathOf resource dir = .ok path) : ∃ e, l.textOf path = .error e := by
  cases h with
  | notFound hnone =>
      rw [hpath] at hnone
      exact nomatch hnone
  | unreadable hpath' htext =>
      obtain rfl := Except.ok.inj (hpath.symm.trans hpath')
      exact ⟨_, htext⟩

end Loader.Unavailable

namespace Runs

variable {l : Loader Id} {resource : String} {dir : Option Path} {s s' : Session} {e : Failure}
  {calls : List LoadCall}

/-- A load that opens a document records it, whatever happens then. -/
theorem graph_ne_of_opened {d : Document} {path : Path} {outcome : Except Failure Unit}
    (h : Runs l (.document d path) ((s.record path).enter path) outcome s' calls) :
    (s'.leave path).graph ≠ s.graph := by
  intro heq
  obtain ⟨a, hadds⟩ := h.adds
  have hresources := ((s.graph.adds_addResource path).trans hadds).resources
  -- the list of the documents that were read has become longer
  have hsame : s'.graph.resources = s.graph.resources := congrArg Graph.resources heq
  have hlength := congrArg List.length (hsame.symm.trans hresources)
  simp [Additions.append_def] at hlength

/-- A load that fails for want of a resource leaves the graph as it was exactly when the resource
that it asks for is the one that is wanting. -/
theorem graph_eq_iff_unavailable (h : Runs l (.resource resource dir) s (.error e) s' calls)
    (hkind : e.kind = .imports) : s'.graph = s.graph ↔ l.Unavailable resource dir := by
  cases h with
  | notFound hpath => exact ⟨fun _ => .notFound hpath, fun _ => rfl⟩
  | cycle _ _ => exact nomatch hkind
  | tooDeep _ _ _ => exact nomatch hkind
  | unreadable hadmits _ htext => exact ⟨fun _ => .unreadable hadmits.found htext, fun _ => rfl⟩
  -- a document that is not well-formed is no failure of an import
  | malformed _ _ _ hparse =>
      exact absurd hkind ((Document.failsAs_parse _ _).kind_ne (by decide) hparse)
  | opened hadmits _ hdocument hrun =>
      -- the failure comes from below, and the resource itself could be read
      constructor
      · intro heq
        exact absurd heq (graph_ne_of_opened hrun)
      · intro hunavailable
        obtain ⟨e', htext⟩ := hunavailable.exists_textOf_eq_error hadmits.found
        obtain ⟨text, htext', _⟩ := Loader.documentAt_eq_ok_iff.1 hdocument
        rw [htext] at htext'
        exact nomatch htext'

end Runs

namespace Loader

variable {l : Loader Id}

/-- Loading the imports of a file skips an entry that may fail when the load of its resource fails
for want of a resource. Right after that the graph is what it was before the entry exactly when the
resource of the entry itself is not available. -/
theorem ignored_import_unchanged_iff {file : String} {item : Json} {entry : Import}
    {dir : Option Path} {s s' : Session} {e : Failure}
    (hentry : Import.read file item = .ok entry) (hignore : entry.ignoreErrors = true)
    (hload : runOn (l.load entry.resource dir) s = (.error e, s')) (hkind : e.kind = .imports) :
    (∀ rest, runOn (loadImports (fun resource => l.load resource dir) file (item :: rest)) s =
      runOn (loadImports (fun resource => l.load resource dir) file rest) s') ∧
    (s'.graph = s.graph ↔ l.Unavailable entry.resource dir) := by
  constructor
  · intro rest
    rw [runOn_loadImports_cons, hentry]
    simp only [hload, hignore, hkind, decide_true, Bool.and_self, if_true]
  · obtain ⟨calls, hrun⟩ := runOn_load_eq_iff.1 hload
    exact hrun.graph_eq_iff_unavailable hkind

/-- An entry of imports that may fail. -/
def optional : Json :=
  .object [("resource", .string "optional.json"), ("ignore_errors", .bool true)]

/-- A document that may be missing, but is there and imports one that is not. -/
def nestedFiles : MemoryFiles := .ofJson
  [("/app.json", .object [("imports", .array [optional])]),
    ("/optional.json", .object
      [("imports", .array
        [MemoryFiles.importing "base.json", MemoryFiles.importing "missing.json"])]),
    ("/base.json", .object [("parameters", .object [("host", .string "base")])])]

/-- The loader of these files. -/
def nested : Loader Id := { locator := nestedFiles.locator }

/-- The session in which the imports of the first document are loaded. -/
def nestedSession : Session := (({} : Session).record ⟨"/app.json"⟩).enter ⟨"/app.json"⟩

/-- The load of the entry fails for want of the nested resource. -/
theorem nested_load : ∃ e s,
    runOn (nested.load "optional.json" (some ⟨"/"⟩)) nestedSession = (.error e, s) ∧
    e.kind = .imports ∧ s.graph.parameters.keys = ["host"] := by
  rcases hrun : runOn (nested.load "optional.json" (some ⟨"/"⟩)) nestedSession with ⟨outcome, s⟩
  have hfacts : (runOn (nested.load "optional.json" (some ⟨"/"⟩)) nestedSession).1 =
        .error (.resourceNotFound "missing.json" [⟨"/missing.json"⟩]) ∧
      (runOn (nested.load "optional.json" (some ⟨"/"⟩)) nestedSession).2.graph.parameters.keys =
        ["host"] := by
    decide +kernel
  rw [hrun] at hfacts
  obtain ⟨rfl, hkeys⟩ := hfacts
  exact ⟨_, s, rfl, rfl, hkeys⟩

/-- The entry is skipped, and a parameter stays that was not there before it. -/
theorem nested_import_leaves_parameter : ∃ s,
    runOn (loadImports (fun resource => nested.load resource (some ⟨"/"⟩)) "/app.json" [optional])
      nestedSession = (.ok (), s) ∧
    nestedSession.graph.parameters.keys = [] ∧ s.graph.parameters.keys = ["host"] := by
  obtain ⟨e, s, hload, hkind, hkeys⟩ := nested_load
  have hentry : Import.read "/app.json" optional = .ok ⟨"optional.json", true⟩ := rfl
  refine ⟨s, ?_, rfl, hkeys⟩
  rw [runOn_loadImports_cons, hentry]
  simp only [hload, hkind, decide_true, Bool.and_self, if_true]
  rfl

theorem ignored_import_unchanged_iff_nested : ∃ e s,
    Import.read "/app.json" optional = .ok ⟨"optional.json", true⟩ ∧
    runOn (nested.load "optional.json" (some ⟨"/"⟩)) nestedSession = (.error e, s) ∧
    e.kind = .imports ∧
    (s.graph = nestedSession.graph ↔ nested.Unavailable "optional.json" (some ⟨"/"⟩)) ∧
    ¬ nested.Unavailable "optional.json" (some ⟨"/"⟩) := by
  obtain ⟨e, s, hload, hkind, hkeys⟩ := nested_load
  have hentry : Import.read "/app.json" optional = .ok ⟨"optional.json", true⟩ := rfl
  have hiff := (ignored_import_unchanged_iff hentry rfl hload hkind).2
  refine ⟨e, s, hentry, hload, hkind, hiff, fun hunavailable => ?_⟩
  rw [hiff.2 hunavailable] at hkeys
  exact nomatch hkeys

end Loader

end ServiceGraph
