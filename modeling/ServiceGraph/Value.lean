import ServiceGraph.Json.Basic
import ServiceGraph.Number.Shortest
import ServiceGraph.Reference

/-!
# Values

A `Value` is what an argument, property or parameter holds: a JSON value in which every text has
been read through the reference grammar (`Value.ofJson`). A `Scalar` is the narrower kind that a
tag attribute holds, and its texts are kept as they stand (`Scalar.ofJson?`).
-/

set_option autoImplicit false

namespace ServiceGraph

/-- A value without structure. -/
inductive Scalar where
  | null
  | bool (value : Bool)
  | int (value : Integer64.Signed)
  | float (value : Binary64)
  | string (value : String)
  deriving DecidableEq, Repr, Inhabited

namespace Scalar

/-- A number as a scalar: an integer of 64 signed bits stays exact, any other number becomes
binary64. -/
def ofNumber (n : Number) : Scalar :=
  match n.toInt64? with
  | some i => .int i
  | none => .float n.toBinary64

/-- A JSON value as a scalar, unless it is an array or an object. -/
def ofJson? : Json → Option Scalar
  | .null => some .null
  | .bool b => some (.bool b)
  | .number n => some (ofNumber n)
  | .string s => some (.string s)
  | .array _ => none
  | .object _ => none

/-- Whether a scalar is null. -/
def isNull : Scalar → Bool
  | .null => true
  | _ => false

/-- A scalar as plain text; null is empty. -/
def text : Scalar → String
  | .null => ""
  | .bool b => toString b
  | .int i => toString i
  | .float x => DecimalLayout.plain.write x
  | .string s => s

/-- The name of a scalar's type. -/
def typeName : Scalar → String
  | .null => "null"
  | .bool _ => "bool"
  | .int _ => "int"
  | .float _ => "float"
  | .string _ => "string"

end Scalar

/-- An argument, property or parameter. -/
inductive Value where
  | scalar (value : Scalar)
  | list (items : List Value)
  | map (entries : List (String × Value))
  | reference (target : Reference)
  deriving Repr, Inhabited

namespace Value

/-- A text as a value that is not a reference. -/
def string (s : String) : Value := .scalar (.string s)

/-- The text of a value that is a text. -/
def text? : Value → Option String
  | .scalar (.string s) => some s
  | _ => none

/-- Whether a value has no structure and is no reference. -/
def isScalar : Value → Bool
  | .scalar _ => true
  | _ => false

/-- The name of a value's type. -/
def typeName : Value → String
  | .scalar s => s.typeName
  | .list _ => "list"
  | .map _ => "map"
  | .reference _ => "reference"

/-- A text read through the reference grammar. -/
def ofText (s : String) : Value :=
  match Reference.read? s with
  | some r => .reference r
  | none => .string s

mutual

/-- A JSON value with every text in it read through the reference grammar; nesting and the order
of keys stay. -/
def ofJson : Json → Value
  | .null => .scalar .null
  | .bool b => .scalar (.bool b)
  | .number n => .scalar (Scalar.ofNumber n)
  | .string s => ofText s
  | .array items => .list (ofItems items)
  | .object members => .map (ofMembers members)

/-- `Value.ofJson` on each item. -/
def ofItems : List Json → List Value
  | [] => []
  | item :: rest => ofJson item :: ofItems rest

/-- `Value.ofJson` on each member's value. -/
def ofMembers : List (String × Json) → List (String × Value)
  | [] => []
  | (key, value) :: rest => (key, ofJson value) :: ofMembers rest

end

end Value

end ServiceGraph
