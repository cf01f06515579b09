/-!
# Paths

A `Path` is the text of a file path. Separators are slashes; empty parts and parts that are a
single dot say nothing, except for a dot that opens a relative path (`Path.components`). Paths
with the same components name the same place.
-/

set_option autoImplicit false

namespace ServiceGraph

/-- The text of a file path. -/
structure Path where
  text : String
  deriving DecidableEq, Repr, Inhabited

namespace Path

/-- One step of a path. -/
inductive Component where
  /-- The start of an absolute path. -/
  | root
  /-- A dot that opens a relative path. -/
  | here
  /-- Two dots. -/
  | up
  | name (text : String)
  deriving DecidableEq, Repr

/-- The parts of a text between slashes. -/
def splitSlashes (s : List Char) : List (List Char) := s.splitOn '/'

/-- Parts with slashes between them. -/
def joinSlashes (parts : List (List Char)) : List Char := ['/'].intercalate parts

/-- Whether a part says nothing. -/
def isIdle (part : List Char) : Bool := part = [] || part = ['.']

/-- The characters that fix where a path starts, a slash or an opening dot, and what follows. -/
def splitStart : List Char → List Char × List Char
  | '/' :: rest => (['/'], rest)
  | ['.'] => (['.'], [])
  | '.' :: '/' :: rest => (['.'], '/' :: rest)
  | rest => ([], rest)

/-- Whether a path starts at the root. -/
def isAbsolute (p : Path) : Bool := p.text.toList.head? = some '/'

/-- The step that a part stands for. -/
def stepOf (part : List Char) : Component :=
  if part = ['.', '.'] then .up else .name (String.ofList part)

/-- The steps of a path. -/
def components (p : Path) : List Component :=
  let (start, rest) := splitStart p.text.toList
  let first : List Component :=
    if start = ['/'] then [.root] else if start = ['.'] then [.here] else []
  first ++ ((splitSlashes rest).filter fun part => !isIdle part).map stepOf

/-- A path taken from a base: an absolute path replaces the base. -/
def join (base p : Path) : Path :=
  if p.isAbsolute then p
  else if base.text.toList = [] ∨ base.text.toList.getLast? = some '/' then
    ⟨base.text ++ p.text⟩
  else ⟨base.text ++ "/" ++ p.text⟩

/-- A path without its last step; the root and the empty path have none. -/
def parent? (p : Path) : Option Path :=
  let (start, rest) := splitStart p.text.toList
  match (splitSlashes rest).reverse.dropWhile isIdle with
  | [] => if start = ['.'] then some ⟨""⟩ else none
  | _ :: outer =>
    let kept := (outer.dropWhile isIdle).reverse
    some ⟨String.ofList (start ++ joinSlashes kept)⟩

/-- A path with an ending after its last name; what says nothing after the name is left out. A path
that does not end in a name stays as it is. -/
def withEnding (p : Path) (ending : String) : Path :=
  match (splitSlashes p.text.toList).reverse.dropWhile isIdle with
  | [] => p
  | last :: outer =>
    if last = ['.', '.'] then p
    else ⟨String.ofList (joinSlashes (last :: outer).reverse) ++ ending⟩

/-- The names that remain after the steps are taken one by one from the root: two dots take the
last name back. -/
def fold (steps : List Component) : List String :=
  steps.foldl
    (fun names step =>
      match step with
      | .up => names.dropLast
      | .name text => names ++ [text]
      | .root => names
      | .here => names)
    []

/-- The absolute path with the given names. -/
def ofNames (names : List String) : Path := ⟨"/" ++ "/".intercalate names⟩

end Path

end ServiceGraph
