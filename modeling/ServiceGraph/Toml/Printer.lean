import ServiceGraph.Toml.Token

/-!
# Writing TOML texts

`Toml.writeSections` writes tables one after the other, each under its name and with a blank line
between two. An array of two or more items has a line for each. A text is written between the first
quotes of a fixed order that suit it (`quotesFor`).
-/

set_option autoImplicit false

namespace ServiceGraph.Toml

/-! ## Texts -/

/-- The length of the longest run of a character. -/
def longestRun (c : Char) (s : List Char) : Nat :=
  (s.foldl
    (fun (longest, current) x =>
      let current := if x = c then current + 1 else 0
      (max longest current, current))
    (0, 0)).1

/-- Whether a character can stand in a text only as an escape. -/
def isControl (c : Char) : Bool :=
  (c.toNat < 0x20 && c ≠ '\t' && c ≠ '\n') || c = '\x7f'

/-- Whether a text needs neither escapes nor other quotes between single quotes. -/
def fitsBasic (s : List Char) : Bool := s.all fun c => !isControl c && c ∉ ['\\', '"', '\n']

/-- Whether a text fits between single apostrophes as it stands. -/
def fitsLiteral (s : List Char) : Bool := s.all fun c => !isControl c && c ∉ ['\x27', '\n']

/-- Whether a text needs no escapes between triple quotes. -/
def fitsTripleBasic (s : List Char) : Bool :=
  s.all (fun c => !isControl c && c ≠ '\\') && longestRun '"' s ≤ 2

/-- Whether a text fits between triple apostrophes as it stands. -/
def fitsTripleLiteral (s : List Char) : Bool :=
  s.all (fun c => !isControl c) && longestRun '\x27' s ≤ 2

/-- The quotes that a text is written between. A text that needs escapes gets triple quotes only to
keep its line ends. -/
def quotesFor (s : List Char) : Quotes :=
  if fitsBasic s then ⟨'"', false⟩
  else if fitsLiteral s then ⟨'\x27', false⟩
  else if fitsTripleBasic s then ⟨'"', true⟩
  else if fitsTripleLiteral s then ⟨'\x27', true⟩
  else ⟨'"', decide ('\n' ∈ s)⟩

/-- A character as the escape of its code point. -/
def escapeCode (c : Char) : List Char :=
  let digit (n : Nat) : Char := "0123456789ABCDEF".toList.getD n '0'
  ['\\', 'u', '0', '0', digit (c.toNat / 16), digit (c.toNat % 16)]

/-- A character between quotes, as an escape if it needs one; `run` counts the quotes just before
it, of which triple quotes let two stand. -/
def escapeChar (spansLines : Bool) (run : Nat) (c : Char) : List Char :=
  if c = '"' then if spansLines && run < 2 then ['"'] else ['\\', '"']
  else if c = '\n' then if spansLines then ['\n'] else ['\\', 'n']
  else if c = '\\' then ['\\', '\\']
  else if c = '\x08' then ['\\', 'b']
  else if c = '\t' then ['\\', 't']
  else if c = '\x0c' then ['\\', 'f']
  else if c = '\r' then ['\\', 'r']
  else if isControl c then escapeCode c
  else [c]

/-- The characters of a text between quotes; `run` counts the quotes just before it. -/
def escape (spansLines : Bool) : Nat → List Char → List Char
  | _, [] => []
  | run, c :: rest =>
    let written := escapeChar spansLines run c
    written ++ escape spansLines (if written = ['"'] then run + 1 else 0) rest

/-- A text between quotes. With line ends in it, it starts on a line of its own. -/
def Quotes.write (q : Quotes) (s : List Char) : String :=
  let marks := List.replicate (if q.spansLines then 3 else 1) q.mark
  let start := if q.spansLines ∧ '\n' ∈ s then ['\n'] else []
  let inside := if q.hasEscapes then escape q.spansLines 0 s else s
  String.ofList (marks ++ start ++ inside ++ marks)

/-- A text as a TOML string. -/
def writeText (text : String) : String := (quotesFor text.toList).write text.toList

/-! ## Values -/

/-- An array of written items. -/
def writeArray (items : List String) : String :=
  if items.length ≤ 1 then "[" ++ ", ".intercalate items ++ "]"
  else "[\n" ++ String.join (items.map fun item => "    " ++ item ++ ",\n") ++ "]"

mutual

/-- A value in one line, except for arrays of two or more items. -/
def write : Toml → String
  | .string s => writeText s
  | .integer n => toString n
  | .float x => x.text
  | .boolean b => toString b
  | .moment m => m.text
  | .array items => writeArray (writeItems items)
  | .table members => "\x7b " ++ ", ".intercalate (writeMembers members) ++ " \x7d"

/-- `write` on each item. -/
def writeItems : List Toml → List String
  | [] => []
  | item :: rest => write item :: writeItems rest

/-- Each member as key and value. -/
def writeMembers : List (String × Toml) → List String
  | [] => []
  | (key, value) :: rest => (key ++ " = " ++ write value) :: writeMembers rest

end

/-- A table under its name. -/
def writeSection (name : String) (members : Members) : String :=
  "[" ++ name ++ "]\n" ++ String.join ((writeMembers members).map fun line => line ++ "\n")

/-- Tables under their names. -/
def writeSections (sections : List (String × Members)) : String :=
  "\n".intercalate (sections.map fun s => writeSection s.1 s.2)

end ServiceGraph.Toml
