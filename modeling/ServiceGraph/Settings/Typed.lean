import ServiceGraph.Settings.Basic
import ServiceGraph.Settings.Setting

/-!
# Typed settings

`Settings.ofTable?` reads the settings of the program from loose ones. A section is a table, or a
list with its settings in a fixed order. What is missing keeps its default, and what has no meaning
is left out.
-/

set_option autoImplicit false

namespace ServiceGraph

namespace Setting

/-- A section of a table, an empty one when it is missing; it must be a table or a list. -/
def section? (table : Setting) (name : String) : Option Setting :=
  match table.member? name with
  | none => some (.table [])
  | some (.table members) => some (.table members)
  | some (.list items) => some (.list items)
  | some _ => none

/-- The setting of a section with a name, or at a place if the section is a list. -/
def field? (block : Setting) (place : Nat) (name : String) : Option Setting :=
  match block with
  | .list items => items[place]?
  | _ => block.member? name

/-- A setting of a section as `convert?` takes it, or `standard` when it is missing. -/
def readField? {α : Type} (block : Setting) (place : Nat) (name : String)
    (convert? : Setting → Option α) (standard : α) : Option α :=
  match block.field? place name with
  | none => some standard
  | some value => convert? value

end Setting

/-- The settings that a table gives, if each of theirs has a value of its type. -/
def Settings.ofTable? (table : Setting) : Option Settings := do
  let standard : Settings := {}
  let loader ← table.section? "loader"
  let wiring ← table.section? "wiring"
  let extensions ← table.section? "extensions"
  let output ← table.section? "output"
  return {
    searchPaths := ← loader.readField? 0 "search_paths"
      (fun s => s.texts?.map fun texts => texts.map Path.mk) standard.searchPaths
    maxImportDepth := ← loader.readField? 1 "max_import_depth" Setting.count?
      standard.maxImportDepth
    scope := ← wiring.readField? 0 "prefix" Setting.text? standard.scope
    capabilities := ← wiring.readField? 1 "capabilities"
      (fun s => s.optionalText?.map fun text => text.map Path.mk) standard.capabilities
    parameterNamespaces := ← extensions.readField? 0 "parameter_namespaces" Setting.texts?
      standard.parameterNamespaces
    noColor := ← output.readField? 0 "no_color" Setting.flag? standard.noColor
    format := ← output.readField? 1 "format" Setting.text? standard.format }

end ServiceGraph
