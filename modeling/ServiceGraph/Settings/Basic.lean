import ServiceGraph.Path
import ServiceGraph.Toml.Printer

/-!
# Settings

The `Settings` of the program have seven keys in four sections. `Settings.show?` shows one key the
way an environment variable would set it, and `Settings.write` shows all of them as TOML.
-/

set_option autoImplicit false

namespace ServiceGraph

/-- The settings of the program. -/
structure Settings where
  /-- Where imports are looked for, after the directory of the importing document. -/
  searchPaths : List Path := []
  maxImportDepth : Nat := 32
  /-- The scope of wiring targets and tags. -/
  scope : String := "common"
  /-- The file of the capability manifest. -/
  capabilities : Option Path := none
  /-- The names whose blocks become parameters. -/
  parameterNamespaces : List String := []
  noColor : Bool := false
  /-- The name of the output format. -/
  format : String := "auto"
  deriving DecidableEq, Repr, Inhabited

namespace Settings

/-- The value of a key as one text; lists have commas between their items. -/
def show? (s : Settings) (key : String) : Option String :=
  if key = "loader.search_paths" then some (",".intercalate (s.searchPaths.map Path.text))
  else if key = "loader.max_import_depth" then some (toString s.maxImportDepth)
  else if key = "wiring.prefix" then some s.scope
  else if key = "wiring.capabilities" then some ((s.capabilities.map Path.text).getD "")
  else if key = "extensions.parameter_namespaces" then
    some (",".intercalate s.parameterNamespaces)
  else if key = "output.no_color" then some (toString s.noColor)
  else if key = "output.format" then some s.format
  else none

/-- The sections; a manifest that is not set has no key. -/
def sections (s : Settings) : List (String × Toml.Members) :=
  [("loader",
      [("search_paths", .array (s.searchPaths.map fun p => .string p.text)),
        ("max_import_depth", .integer s.maxImportDepth)]),
    ("wiring",
      ("prefix", .string s.scope) ::
        (match s.capabilities with
          | none => []
          | some p => [("capabilities", .string p.text)])),
    ("extensions", [("parameter_namespaces", .array (s.parameterNamespaces.map .string))]),
    ("output", [("no_color", .boolean s.noColor), ("format", .string s.format)])]

/-- The settings as TOML. -/
def write (s : Settings) : String := Toml.writeSections s.sections

end Settings

end ServiceGraph
