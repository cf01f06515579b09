import ServiceGraph.Settings.KeyPath

/-!
# Layers of settings

Settings are layered. What a layer gives for a key path is laid over what is there: a table keeps
the keys that the new one does not have, at every depth, and anything else is replaced
(`Setting.overlay`). A TOML file is one layer, and an environment variable whose name starts with
the program's name is a layer with one key (`Layer.entryOf?`).
-/

set_option autoImplicit false

namespace ServiceGraph

mutual

/-- A setting laid over another. -/
def Setting.overlay (under : Setting) : Setting → Setting
  | .table members => .table (Setting.overlayMembers under.members members)
  | s => s

/-- Members laid over others, one by one. -/
def Setting.overlayMembers (under : List (String × Setting)) :
    List (String × Setting) → List (String × Setting)
  | [] => under
  | (key, value) :: rest =>
    let current := (OrderedMap.valueAt key under).getD .unset
    Setting.overlayMembers (OrderedMap.insertEntry key (Setting.overlay current value) under) rest

end

/-- What a source of settings gives, each with the text of its key path. -/
abbrev Layer := List (String × Setting)

namespace Layer

/-- Lays what is given for a key path over a table. -/
def put (table : Setting) (key : String) (value : Setting) : Setting :=
  let path := KeyPath.ofText key
  table.changeAt (fun under => under.overlay value) (.key path.root :: path.steps)

/-- The table that layers make, a later one laid over the earlier ones. -/
def merge (layers : List Layer) : Setting :=
  layers.flatten.foldl (fun table e => put table e.1 e.2) (.table [])

/-- The layer in a TOML text. -/
def ofToml (members : Toml.Members) : Layer := Setting.ofMembers members

/-! ## Environment variables -/

/-- What the names of variables that set a key start with, in lower case. -/
def variableStart : List Char := "graphwire__".toList

/-- A text with a dot for every two underscores. -/
def dotted : List Char → List Char
  | '_' :: '_' :: rest => '.' :: dotted rest
  | c :: rest => c :: dotted rest
  | [] => []

/-- The keys that hold lists. -/
def listKeys : List String := ["loader.search_paths", "extensions.parameter_namespaces"]

/-- The integer of 64 signed bits written in a text. -/
def readInteger? (s : List Char) : Option Int :=
  let (negative, digits) :=
    match s with
    | '-' :: rest => (true, rest)
    | '+' :: rest => (false, rest)
    | rest => (false, rest)
  (Digits.read? digits).bind fun magnitude =>
    let n : Int := if negative then -magnitude else magnitude
    if Integer64.FitsSigned n then some n else none

/-- What a variable gives for a key: a flag or a number when it is one, a list for a key that holds
one, and else a text. -/
def readVariable (key text : String) : Setting :=
  let lower := Text.lowerCase text
  if lower = "true" then .flag true
  else if lower = "false" then .flag false
  else
    match readInteger? text.toList with
    | some n => .integer n
    | none =>
      match Extended.read? text.toList with
      | some x => .float x
      | none =>
        if key ∈ listKeys then
          .list ((text.toList.splitOn ',').map fun part => .text (String.ofList part))
        else .text text

/-- The key that a variable sets, and what it gives for it, if its name has the form for it. -/
def entryOf? (name text : String) : Option (String × Setting) :=
  let lower := (Text.lowerCase name).toList
  if variableStart.isPrefixOf lower then
    let key := String.ofList (dotted (lower.drop variableStart.length))
    some (key, readVariable key text)
  else none

/-- The layer that the variables of an environment are. -/
def ofEnvironment (environment : List (String × String)) : Layer :=
  environment.filterMap fun v => entryOf? v.1 v.2

end Layer

end ServiceGraph
