import ServiceGraph.Text.Case
import ServiceGraph.Toml.Basic

/-!
# Loose settings

A `Setting` is what a file or the environment gives for a setting, before its type is known. The
readers `text?`, `texts?`, `count?` and `flag?` leave some freedom of spelling: a text may be
written as a number, and a number or a flag as a text.
-/

set_option autoImplicit false

namespace ServiceGraph

/-- What is given for a setting. -/
inductive Setting where
  /-- Nothing is given, but there is a place for it. -/
  | unset
  | text (value : String)
  | integer (value : Int)
  | float (value : Extended)
  | flag (value : Bool)
  | list (items : List Setting)
  | table (members : List (String × Setting))
  deriving Inhabited

namespace Setting

/-! ## From TOML -/

mutual

/-- The setting that a TOML value gives; a moment is a text. -/
def ofToml : Toml → Setting
  | .string s => .text s
  | .integer n => .integer n
  | .float x => .float x
  | .boolean b => .flag b
  | .moment m => .text m.text
  | .array items => .list (ofItems items)
  | .table members => .table (ofMembers members)

/-- The settings that TOML values give. -/
def ofItems : List Toml → List Setting
  | [] => []
  | item :: rest => ofToml item :: ofItems rest

/-- The members that the members of a TOML table give. -/
def ofMembers : List (String × Toml) → List (String × Setting)
  | [] => []
  | (key, value) :: rest => (key, ofToml value) :: ofMembers rest

end

/-! ## Parts -/

/-- The members of a table, none for any other setting. -/
def members : Setting → List (String × Setting)
  | .table members => members
  | _ => []

/-- The items of a list, none for any other setting. -/
def items : Setting → List Setting
  | .list items => items
  | _ => []

/-- The setting of a table at a key. -/
def member? (s : Setting) (key : String) : Option Setting := OrderedMap.valueAt key s.members

/-! ## Typed values -/

/-- A setting as a text. -/
def text? : Setting → Option String
  | .text s => some s
  | .integer n => some (toString n)
  | .float x => some x.text
  | .flag b => some (toString b)
  | _ => none

/-- A setting as a text that may be missing. -/
def optionalText? : Setting → Option (Option String)
  | .unset => some none
  | s => s.text?.map some

/-- A setting as a list of texts. -/
def texts? : Setting → Option (List String)
  | .list items => items.mapM text?
  | _ => none

/-- The count written in a text. -/
def readCount? (s : List Char) : Option Nat :=
  let digits :=
    match s with
    | '+' :: rest => rest
    | rest => rest
  (Digits.read? digits).bind fun n => if Integer64.FitsUnsigned n then some n else none

/-- A setting as a count. -/
def count? : Setting → Option Nat
  | .integer n => if 0 ≤ n then some n.toNat else none
  | .float x => some (x.toNat Integer64.greatestUnsigned)
  | .flag b => some b.toNat
  | .text s =>
    let lower := Text.lowerCase s
    if lower ∈ ["true", "on", "yes"] then some 1
    else if lower ∈ ["false", "off", "no"] then some 0
    else readCount? lower.toList
  | _ => none

/-- A setting as a flag. -/
def flag? : Setting → Option Bool
  | .flag b => some b
  | .integer n => some (n ≠ 0)
  | .float x => some x.isNonzero
  | .text s =>
    let lower := Text.lowerCase s
    if lower ∈ ["1", "true", "on", "yes"] then some true
    else if lower ∈ ["0", "false", "off", "no"] then some false
    else none
  | _ => none

end Setting

end ServiceGraph
