import ServiceGraph.Disk.Basic
import ServiceGraph.OrderedMap

/-!
# File trees

A `FileTree` is a disk held as a value: files by the names that lead to them from the root, and a
working directory. A directory exists when a file lies below it or the working directory does, and
there are no links. A path is walked part by part (`FileTree.resolve`): every step, also one that
says nothing, needs a directory to start from.
-/

set_option autoImplicit false

namespace ServiceGraph

/-- Files and a working directory. -/
structure FileTree where
  workingDirectory : List String
  files : OrderedMap (List String) ByteArray
  deriving Inhabited

namespace FileTree

/-- Whether names lead to a directory. -/
def isDirectory (t : FileTree) (names : List String) : Bool :=
  names.isPrefixOf t.workingDirectory ||
    t.files.keys.any fun file => names.isPrefixOf file && names.length < file.length

/-- Whether names lead to a file. -/
def isFileAt (t : FileTree) (names : List String) : Bool := t.files.contains names

/-- The greatest number of bytes in a name. -/
def maxNameBytes : Nat := 255

/-- The number of bytes that a path must stay below. -/
def pathBytes : Nat := 4096

/-- The place that the parts of a path lead to from existing names. -/
def walk (t : FileTree) (names : List String) : List (List Char) → Except DiskError (List String)
  | [] => .ok names
  | part :: rest =>
    let name := String.ofList part
    if !t.isDirectory names then .error .notDirectory
    else if maxNameBytes < name.utf8ByteSize then .error .nameTooLong
    else if Path.isIdle part then t.walk names rest
    else if part = ['.', '.'] then t.walk names.dropLast rest
    else if t.isDirectory (names ++ [name]) || t.isFileAt (names ++ [name]) then
      t.walk (names ++ [name]) rest
    else .error .notFound

/-- Where a path starts. -/
def start (t : FileTree) (p : Path) : List String :=
  if p.isAbsolute then [] else t.workingDirectory

/-- Refuses texts that cannot be a path. -/
def checkText (p : Path) : Except DiskError Unit :=
  if '\x00' ∈ p.text.toList then .error .nulInPath
  else if p.text = "" then .error .notFound
  else if pathBytes ≤ p.text.utf8ByteSize then .error .nameTooLong
  else .ok ()

/-- The existing place that a path leads to. -/
def resolve (t : FileTree) (p : Path) : Except DiskError (List String) := do
  checkText p
  t.walk (t.start p) (Path.splitSlashes p.text.toList)

/-- Whether a path leads to a file. -/
def isFile (t : FileTree) (p : Path) : Bool :=
  match t.resolve p with
  | .ok names => t.isFileAt names
  | .error _ => false

/-- The absolute path of an existing place. -/
def canonical (t : FileTree) (p : Path) : Except DiskError Path := (t.resolve p).map Path.ofNames

/-- The bytes of a file. -/
def readBytes (t : FileTree) (p : Path) : Except DiskError ByteArray := do
  match t.files.get? (← t.resolve p) with
  | none => throw .isDirectory
  | some bytes => return bytes

/-- The text of a file. -/
def readText (t : FileTree) (p : Path) : Except DiskError String :=
  (t.readBytes p).bind DiskError.decode

/-- The names of the file that a path would make or replace: its last part must be a name, and the
rest must lead to a directory. -/
def writePlace (t : FileTree) (p : Path) : Except DiskError (List String) := do
  checkText p
  match (Path.splitSlashes p.text.toList).reverse.dropWhile (· = []) with
  | [] => throw .isDirectory
  | last :: outer =>
    let dir ← t.walk (t.start p) outer.reverse
    if !t.isDirectory dir then throw .notDirectory
    let trailing := p.text.toList.getLast? = some '/'
    let name := String.ofList last
    if trailing ∨ last = ['.'] ∨ last = ['.', '.'] then throw .isDirectory
    if maxNameBytes < name.utf8ByteSize then throw .nameTooLong
    if t.isDirectory (dir ++ [name]) then throw .isDirectory
    return dir ++ [name]

/-- The tree with a file made or replaced. -/
def writeText (t : FileTree) (p : Path) (text : String) : Except DiskError FileTree := do
  let names ← t.writePlace p
  return { t with files := t.files.insert names text.toUTF8 }

/-- The disk that a tree is. -/
def disk : Disk (StateM FileTree) where
  isFile p := do return (← get).isFile p
  canonical p := do return (← get).canonical p
  readBytes p := do return (← get).readBytes p
  writeText p text := do
    match (← get).writeText p text with
    | .ok t =>
      set t
      return .ok ()
    | .error e => return .error e

end FileTree

end ServiceGraph
