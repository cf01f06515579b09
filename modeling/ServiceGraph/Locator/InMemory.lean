import ServiceGraph.Locator.Basic
import ServiceGraph.OrderedMap

/-!
# Files in memory

`MemoryFiles` holds texts under absolute paths in which dots are folded away, so
`/conf/a/../b.json` and `/conf/b.json` are one file. A relative resource is taken from the root
when there is no directory.
-/

set_option autoImplicit false

namespace ServiceGraph

/-- Texts by the names of their folded paths. -/
structure MemoryFiles where
  files : OrderedMap (List String) String
  deriving Inhabited

namespace MemoryFiles

/-- No file at all. -/
def empty : MemoryFiles := ⟨∅⟩

/-- The path of the root. -/
def root : Path := ⟨"/"⟩

/-- The names that a path leads to from a directory. -/
def namesFrom (dir p : Path) : List String := Path.fold (dir.join p).components

/-- Adds or replaces a file. -/
def insert (f : MemoryFiles) (p : Path) (text : String) : MemoryFiles :=
  ⟨f.files.insert (namesFrom root p) text⟩

/-- The paths of all files, in ascending order of their texts. -/
def paths (f : MemoryFiles) : List Path :=
  (f.files.keys.map Path.ofNames).mergeSort fun a b => !decide (b.text < a.text)

/-- The path of the file that a resource names. -/
def locate (f : MemoryFiles) (resource : String) (dir : Option Path) : Except Failure Path := do
  let names := namesFrom (dir.getD root) (← localPath resource)
  if f.files.contains names then return Path.ofNames names
  else throw (.resourceNotFound resource [Path.ofNames names])

/-- The names of an absolute path that takes no step back. -/
def plainNames? (p : Path) : Option (List String) :=
  match p.components with
  | .root :: steps =>
    steps.mapM fun step =>
      match step with
      | .name text => some text
      | _ => none
  | _ => none

/-- The text of the file at a path. -/
def read (f : MemoryFiles) (p : Path) : Except Failure String :=
  match (plainNames? p).bind f.files.get? with
  | some text => .ok text
  | none => .error (.unreadable p "no such file")

/-- The locator that finds and reads the files. -/
def locator (f : MemoryFiles) : Locator Id where
  locate := f.locate
  read := f.read

end MemoryFiles

end ServiceGraph
