import ServiceGraph.Disk.Basic
import ServiceGraph.Locator.Basic

/-!
# Files on a disk

A relative resource is tried from the directory of the importing document, or from the working
directory when there is none, and then from each search path in order; the first that leads to a
file wins (`candidates`).
-/

set_option autoImplicit false

namespace ServiceGraph.OnDisk

/-- The paths that a resource is tried at, in order. -/
def candidates (searchPaths : List Path) (resource : Path) (dir : Option Path) : List Path :=
  if resource.isAbsolute then [resource]
  else
    let first :=
      match dir with
      | some dir => dir.join resource
      | none => resource
    first :: searchPaths.map fun root => root.join resource

/-- A failed step on a path, in words. -/
def unreadable (p : Path) (step : String) (e : DiskError) : Failure :=
  .unreadable p ("Failed to " ++ step ++ ": " ++ e.message)

section

variable {m : Type → Type} [Monad m]

/-- The first path of a list that leads to a file. -/
def firstFile? (disk : Disk m) : List Path → m (Option Path)
  | [] => pure none
  | p :: rest => do if ← disk.isFile p then pure (some p) else firstFile? disk rest

/-- The canonical path of the file that a resource names. -/
def locate (disk : Disk m) (searchPaths : List Path) (resource : String) (dir : Option Path) :
    m (Except Failure Path) := do
  match localPath resource with
  | .error e => return .error e
  | .ok p =>
    let tried := candidates searchPaths p dir
    match ← firstFile? disk tried with
    | none => return .error (.resourceNotFound resource tried)
    | some found => return (← disk.canonical found).mapError (unreadable found "resolve")

/-- The text of a file. -/
def read (disk : Disk m) (p : Path) : m (Except Failure String) := do
  return (← disk.readText p).mapError (unreadable p "read file")

/-- The locator of files on a disk. -/
def locator (disk : Disk m) (searchPaths : List Path) : Locator m where
  locate := locate disk searchPaths
  read := read disk

end

end ServiceGraph.OnDisk
