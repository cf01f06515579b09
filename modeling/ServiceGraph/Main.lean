import ServiceGraph.CommandLine.Run

/-!
# The program

Runs the command line on the files, the environment and the streams of the process.
-/

set_option autoImplicit false

namespace ServiceGraph.Program

/-- A failure of the system. -/
def diskError : IO.Error → DiskError
  | .noFileOrDirectory .. => .notFound
  | .permissionDenied .. => .permissionDenied
  | .inappropriateType _ 20 _ => .notDirectory
  | .inappropriateType _ 21 _ => .isDirectory
  | e => .other (toString e)

/-- The outcome of an action that may fail. -/
def attempt {α : Type} (action : IO α) : IO (Except DiskError α) := do
  match ← action.toBaseIO with
  | .ok a => return .ok a
  | .error e => return .error (diskError e)

/-- Opens a file and reads a byte of it, which fails for a directory. -/
def probe (p : Path) : IO Unit := do
  let handle ← IO.FS.Handle.mk p.text .read
  let _ ← handle.read 1

/-- The disk of the system. -/
def disk : Disk IO where
  isFile p := do
    match ← attempt (probe p) with
    | .ok () => return true
    | .error e => return e = .permissionDenied
  canonical p := attempt do return ⟨toString (← IO.FS.realPath p.text)⟩
  readBytes p := attempt (IO.FS.readBinFile p.text)
  writeText p text := attempt (IO.FS.writeFile p.text text)

/-- The names of the variables that matter where the whole environment cannot be read. -/
def knownVariables : List String :=
  ["HOME", "XDG_CONFIG_HOME", "NO_COLOR", "GRAPHWIRE__LOADER__SEARCH_PATHS",
    "GRAPHWIRE__LOADER__MAX_IMPORT_DEPTH", "GRAPHWIRE__WIRING__PREFIX",
    "GRAPHWIRE__WIRING__CAPABILITIES", "GRAPHWIRE__EXTENSIONS__PARAMETER_NAMESPACES",
    "GRAPHWIRE__OUTPUT__NO_COLOR", "GRAPHWIRE__OUTPUT__FORMAT"]

/-- The variable in a text of the form `name=value`. -/
def splitVariable (s : List Char) : String × String :=
  (String.ofList (s.takeWhile (· ≠ '=')), String.ofList ((s.dropWhile (· ≠ '=')).drop 1))

/-- The environment of the process. -/
def environment : IO Variables := do
  match ← disk.readText ⟨"/proc/self/environ"⟩ with
  | .ok text => return (text.splitOn "\x00").map fun entry => splitVariable entry.toList
  | .error _ =>
    knownVariables.filterMapM fun name => do
      return (← IO.getEnv name).map fun value => (name, value)

end ServiceGraph.Program

/-- Runs the command line and prints its report. -/
def main (arguments : List String) : IO UInt32 := do
  let output ← IO.getStdout
  let outcome ← ServiceGraph.CommandLine.run ServiceGraph.Program.disk
    (← ServiceGraph.Program.environment) (← output.isTty) arguments
  let report := outcome.report
  IO.print report.output
  IO.eprint report.errors
  return UInt32.ofNat report.code
