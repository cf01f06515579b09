import ServiceGraph.Json.Basic
import ServiceGraph.Number.Shortest

/-!
# Writing JSON texts

`Json.compact` writes a value on one line without gaps; `Json.pretty` gives every item and member
a line of its own, two spaces deeper than its container. An empty container stays on one line.
-/

set_option autoImplicit false

namespace ServiceGraph

/-- Binary64 numbers in JSON texts: shortest digits, an exponent below `0.00001` and from `10 ^ 16`
on, and a point in every number written without one. -/
def Json.floatLayout : DecimalLayout := ⟨.even, some (-4, 16), true⟩

/-- The text of a number in JSON. -/
def Number.write : Number → String
  | .whole i => toString i
  | .float x => Json.floatLayout.write x

namespace Json

/-- The lower-case hexadecimal digit of a number below 16. -/
def hexChar (n : Nat) : Char := "0123456789abcdef".toList.getD n '0'

/-- A character as it stands in a string: quotes, backslashes and control characters are
escaped. -/
def quoteChar (c : Char) : List Char :=
  if c = '"' then ['\\', '"']
  else if c = '\\' then ['\\', '\\']
  else if c = '\n' then ['\\', 'n']
  else if c = '\r' then ['\\', 'r']
  else if c = '\t' then ['\\', 't']
  else if c = '\x08' then ['\\', 'b']
  else if c = '\x0c' then ['\\', 'f']
  else if c.toNat < 0x20 then
    ['\\', 'u', '0', '0', hexChar (c.toNat / 16), hexChar (c.toNat % 16)]
  else [c]

/-- A text in quotes. -/
def quote (s : String) : String :=
  String.ofList ('"' :: (s.toList.flatMap quoteChar ++ ['"']))

mutual

/-- A value on one line, without gaps. -/
def compact : Json → String
  | .null => "null"
  | .bool b => toString b
  | .number n => n.write
  | .string s => quote s
  | .array items => "[" ++ ",".intercalate (compactItems items) ++ "]"
  | .object members => "\x7b" ++ ",".intercalate (compactMembers members) ++ "\x7d"

/-- `compact` on each item. -/
def compactItems : List Json → List String
  | [] => []
  | item :: rest => compact item :: compactItems rest

/-- Each member on one line. -/
def compactMembers : List (String × Json) → List String
  | [] => []
  | (key, value) :: rest => (quote key ++ ":" ++ compact value) :: compactMembers rest

end

/-- The start of a line at a depth. -/
def indentation (depth : Nat) : String := "\n" ++ String.ofList (List.replicate (2 * depth) ' ')

/-- The parts of a container on lines of their own. -/
def enclose (opening closing : String) (depth : Nat) (parts : List String) : String :=
  if parts.isEmpty then opening ++ closing
  else
    opening ++ indentation (depth + 1) ++ ("," ++ indentation (depth + 1)).intercalate parts ++
      indentation depth ++ closing

mutual

/-- A value at a depth, items and members on lines of their own. -/
def prettyAt (depth : Nat) : Json → String
  | .null => "null"
  | .bool b => toString b
  | .number n => n.write
  | .string s => quote s
  | .array items => enclose "[" "]" depth (prettyItems (depth + 1) items)
  | .object members => enclose "\x7b" "\x7d" depth (prettyMembers (depth + 1) members)

/-- `prettyAt` on each item. -/
def prettyItems (depth : Nat) : List Json → List String
  | [] => []
  | item :: rest => prettyAt depth item :: prettyItems depth rest

/-- Each member, its value at a depth. -/
def prettyMembers (depth : Nat) : List (String × Json) → List String
  | [] => []
  | (key, value) :: rest =>
    (quote key ++ ": " ++ prettyAt depth value) :: prettyMembers depth rest

end

/-- A value with every item and member on a line of its own. -/
def pretty (value : Json) : String := prettyAt 0 value

end Json

end ServiceGraph
