import ServiceGraph.Path

/-!
# Disks

A `Disk` is what the program needs to know of and do with real files. Failures carry the words of
the operating system.
-/

set_option autoImplicit false

namespace ServiceGraph

/-- Why a file cannot be reached, read or written. -/
inductive DiskError where
  | notFound
  | permissionDenied
  | notDirectory
  | isDirectory
  | nameTooLong
  | nulInPath
  /-- The bytes of a file are no text. -/
  | notText
  | other (words : String)
  deriving DecidableEq, Repr

/-- The words of the operating system. -/
def DiskError.message : DiskError → String
  | .notFound => "No such file or directory (os error 2)"
  | .permissionDenied => "Permission denied (os error 13)"
  | .notDirectory => "Not a directory (os error 20)"
  | .isDirectory => "Is a directory (os error 21)"
  | .nameTooLong => "File name too long (os error 36)"
  | .nulInPath => "file name contained an unexpected NUL byte"
  | .notText => "stream did not contain valid UTF-8"
  | .other words => words

/-- Access to files. -/
structure Disk (m : Type → Type) where
  /-- Whether a path leads to a file that is no directory. -/
  isFile : Path → m Bool
  /-- The absolute path without dots and links of an existing place. -/
  canonical : Path → m (Except DiskError Path)
  /-- The bytes of a file. -/
  readBytes : Path → m (Except DiskError ByteArray)
  /-- Makes or replaces a file. -/
  writeText : Path → String → m (Except DiskError Unit)

/-- The text that bytes are. -/
def DiskError.decode (bytes : ByteArray) : Except DiskError String :=
  match String.fromUTF8? bytes with
  | some text => .ok text
  | none => .error .notText

/-- The text of a file. -/
def Disk.readText {m : Type → Type} [Monad m] (disk : Disk m) (p : Path) :
    m (Except DiskError String) := do
  return (← disk.readBytes p).bind DiskError.decode

end ServiceGraph
