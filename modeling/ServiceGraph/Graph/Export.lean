import ServiceGraph.Graph.Basic

/-!
# Exporting compiled graphs

The JSON form of a compiled graph (`CompiledGraph.toJson`). A value is an object with one member
that names its type, so a text and a number of the same spelling stay apart; null is the text
`null`. A tag attribute is a bare scalar, and what a definition leaves unset is null.
-/

set_option autoImplicit false

namespace ServiceGraph

namespace Json

/-- An object with one member. -/
def tagged (key : String) (value : Json) : Json := .object [(key, value)]

/-- An integer. -/
def int (i : Integer64.Signed) : Json := .number (.whole (.ofSigned i))

/-- A value, or null when there is none. -/
def optional {α : Type} (f : α → Json) : Option α → Json
  | none => .null
  | some a => f a

/-- A list as an array. -/
def list {α : Type} (f : α → Json) (l : List α) : Json := .array (l.map f)

/-- A map as an object, in the order of the map. -/
def map {α : Type} (f : α → Json) (m : OrderedMap String α) : Json :=
  .object (m.entries.map fun e => (e.1, f e.2))

end Json

namespace Reference

/-- The JSON form of a reference. -/
def toJson : Reference → Json
  | .required id strict =>
    .object [("kind", .string "strict"), ("id", .string id), ("strict", .bool strict)]
  | .optional id strict =>
    .object [("kind", .string "optional"), ("id", .string id), ("strict", .bool strict)]
  | .expression source => .object [("kind", .string "expression"), ("source", .string source)]
  | .literal value => .object [("kind", .string "literal"), ("value", .string value)]

end Reference

namespace Scalar

/-- A scalar as it stands. -/
def toJson : Scalar → Json
  | .null => .null
  | .bool b => .bool b
  | .int i => .int i
  | .float x => .number (.float x)
  | .string s => .string s

/-- A scalar under the name of its type. -/
def toTaggedJson : Scalar → Json
  | .null => .string "null"
  | value => .tagged value.typeName value.toJson

end Scalar

namespace Value

mutual

/-- A value under the name of its type. -/
def toJson : Value → Json
  | .scalar s => s.toTaggedJson
  | .list items => .tagged "list" (.array (itemsToJson items))
  | .map entries => .tagged "map" (.object (entriesToJson entries))
  | .reference r => .tagged "reference" r.toJson

/-- `Value.toJson` on each item. -/
def itemsToJson : List Value → List Json
  | [] => []
  | item :: rest => toJson item :: itemsToJson rest

/-- `Value.toJson` on each entry's value. -/
def entriesToJson : List (String × Value) → List (String × Json)
  | [] => []
  | (key, value) :: rest => (key, toJson value) :: entriesToJson rest

end

end Value

/-- The JSON form of a factory or configurator. -/
def Callable.toJson : Callable → Json
  | .function name => .tagged "function" (.string name)
  | .method target name =>
    .tagged "method" (.object [("target", target.toJson), ("method", .string name)])

/-- The JSON form of a method call. -/
def MethodCall.toJson (c : MethodCall) : Json :=
  .object [("method", .string c.method), ("arguments", .list Value.toJson c.arguments)]

/-- The JSON form of a tag. -/
def Tag.toJson (t : Tag) : Json :=
  .object [("name", .string t.name), ("attributes", .map Scalar.toJson t.attributes)]

/-- The JSON form of a decoration. -/
def Decoration.toJson (d : Decoration) : Json :=
  .object [("id", .string d.id), ("inner_name", .optional Json.string d.innerName),
    ("priority", .int d.priority)]

/-- The JSON form of a deprecation. -/
def Deprecation.toJson (d : Deprecation) : Json :=
  .object [("message", .optional Json.string d.message)]

/-- The JSON form of a definition. -/
def Definition.toJson (d : Definition) : Json :=
  .object [("parent", .optional Json.string d.parent),
    ("class", .optional Json.string d.className),
    ("shared", .optional Json.bool d.sharedFlag),
    ("lazy", .optional Json.bool d.lazyFlag),
    ("public", .optional Json.bool d.publicFlag),
    ("abstract", .optional Json.bool d.abstractFlag),
    ("synthetic", .optional Json.bool d.syntheticFlag),
    ("autowire", .optional Json.bool d.autowireFlag),
    ("factory", .optional Callable.toJson d.factory),
    ("configurator", .optional Callable.toJson d.configurator),
    ("file", .optional Json.string d.file),
    ("arguments", .list Value.toJson d.arguments),
    ("properties", .map Value.toJson d.properties),
    ("calls", .list MethodCall.toJson d.calls),
    ("tags", .list Tag.toJson d.tags),
    ("decoration", .optional Decoration.toJson d.decoration),
    ("deprecation", .optional Deprecation.toJson d.deprecation),
    ("autowiring_types", .list Json.string d.autowiringTypes)]

/-- The JSON form of an alias. -/
def Alias.toJson (a : Alias) : Json :=
  .object [("target", .string a.target), ("public", .bool a.isPublic)]

/-- The JSON form of a compiled graph. -/
def CompiledGraph.toJson (g : CompiledGraph) : Json :=
  .object [("parameters", .map Value.toJson g.parameters),
    ("definitions", .map Definition.toJson g.definitions),
    ("aliases", .map Alias.toJson g.aliases),
    ("resources", .list (fun p : Path => .string p.text) g.resources)]

end ServiceGraph
