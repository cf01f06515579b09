import ServiceGraph.Settings.Setting

/-!
# Key paths

A `KeyPath` leads from the table of all settings to one of them: `loader.search_paths[0]` is the
first item of a list in a section. A text that does not have this form is a key as a whole
(`KeyPath.ofText`). `Setting.changeAt` makes what is missing on the way.
-/

set_option autoImplicit false

namespace ServiceGraph

/-- A step from a setting to a part of it. -/
inductive KeyStep where
  | key (name : String)
  /-- A place in a list, counted from the end when it is negative. -/
  | place (index : Int)
  deriving DecidableEq, Repr

/-- The way from the table of all settings to one of them. -/
structure KeyPath where
  root : String
  steps : List KeyStep := []
  deriving DecidableEq, Repr

namespace KeyPath

/-! ## Reading -/

/-- Whether a character can stand in a key of a path. -/
def isKeyChar (c : Char) : Bool := c.isAlphanum || c = '_' || c = '-'

/-- The key that a text starts with, which is not empty, and the rest. -/
def splitKey? (s : List Char) : Option (String × List Char) :=
  match s.takeWhile isKeyChar with
  | [] => none
  | name => some (String.ofList name, s.dropWhile isKeyChar)

/-- The index written in a text. -/
def readIndex? (s : List Char) : Option Int :=
  let index? :=
    match s with
    | '-' :: digits => (Digits.read? digits).map fun n => -(n : Int)
    | digits => (Digits.read? digits).map fun n => (n : Int)
  index?.bind fun i => if Integer64.FitsSigned i then some i else none

/-- Whether a character is a blank inside the brackets of an index. -/
def isBlank (c : Char) : Bool := c = ' ' || c = '\t'

/-- A text without blanks at its ends. -/
def trimBlanks (s : List Char) : List Char :=
  ((s.dropWhile isBlank).reverse.dropWhile isBlank).reverse

/-- Reads the steps of a path; `fuel` bounds their number. -/
def readSteps? : Nat → List Char → Option (List KeyStep)
  | _, [] => some []
  | fuel + 1, '.' :: s =>
    (splitKey? s).bind fun r => (readSteps? fuel r.2).map (.key r.1 :: ·)
  | fuel + 1, '[' :: s =>
    match s.dropWhile (· ≠ ']') with
    | [] => none
    | _ :: rest =>
      (readIndex? (trimBlanks (s.takeWhile (· ≠ ']')))).bind fun i =>
        (readSteps? fuel rest).map (.place i :: ·)
  | _, _ => none

/-- Reads a path. -/
def read? (s : List Char) : Option KeyPath :=
  (splitKey? s).bind fun r => (readSteps? r.2.length r.2).map fun steps => ⟨r.1, steps⟩

/-- The path that a text means. -/
def ofText (text : String) : KeyPath := (read? text.toList).getD { root := text }

end KeyPath

/-! ## Changing what a path leads to -/

namespace Setting

/-- The place in a list that an index means, in a list that has been made long enough for it:
at its end, or in front for an index that counts from the end. -/
def reach (items : List Setting) : Int → (items : List Setting) × Fin items.length
  | .ofNat i =>
    ⟨items ++ List.replicate (i + 1 - items.length) .unset, i, by
      rw [List.length_append, List.length_replicate]
      omega⟩
  | .negSucc i =>
    ⟨List.replicate (i + 1 - items.length) .unset ++ items, items.length - (i + 1), by
      rw [List.length_append, List.length_replicate]
      omega⟩

/-- Changes what a path leads to. Where the path needs a table or a list and finds something else,
an empty one takes its place. -/
def changeAt (change : Setting → Setting) : List KeyStep → Setting → Setting
  | [], s => change s
  | .key name :: path, s =>
    let part := (s.member? name).getD .unset
    .table (OrderedMap.insertEntry name (changeAt change path part) s.members)
  | .place index :: path, s =>
    let ⟨items, i⟩ := reach s.items index
    .list (items.set i (changeAt change path items[i]))

end Setting

end ServiceGraph
