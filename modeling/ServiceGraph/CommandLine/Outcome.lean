import ServiceGraph.CommandLine.Arguments
import ServiceGraph.Disk.Basic
import ServiceGraph.Failure

/-!
# Outcomes

An `Outcome` is how a run ends; its `Report` is what the run prints and the code it exits with. A
code of 1 stands for a fault of the system, 2 for arguments or documents that are not valid, 3 for
something that was not found, and 4 for a fault in the configuration.
-/

set_option autoImplicit false

namespace ServiceGraph.CommandLine

/-- Why a command fails. -/
inductive CommandFailure where
  /-- The scope of the wiring is empty. -/
  | emptyScope
  | unknownSetting (key : String)
  | compilation (failure : Failure)
  | notWritten (path : Path) (error : DiskError)
  deriving DecidableEq, Repr

namespace CommandFailure

/-- A failure in words. -/
def message : CommandFailure → String
  | .emptyScope => "Invalid input: the wiring prefix must not be empty"
  | .unknownSetting key => "Configuration error: Unknown config key: '" ++ key ++ "'"
  | .compilation failure => "Compilation failed: " ++ failure.message
  | .notWritten path _ => "Failed to write " ++ path.text

/-- What the user can do about a failure. -/
def hints : CommandFailure → List String
  | .emptyScope => ["See `graphwire <COMMAND> --help` for accepted values"]
  | .unknownSetting _ => settingsHints
  | .compilation failure => failure.suggestions
  | .notWritten path _ =>
    match path.parent? with
    | none => ["Make sure " ++ path.text ++ " is writable"]
    | some ⟨""⟩ => ["Make sure " ++ path.text ++ " is writable"]
    | some dir => ["Make sure " ++ dir.text ++ " exists and is writable"]
where
  settingsHints : List String :=
    ["`graphwire config list` shows the effective settings",
      "`graphwire config path` shows where the config file is read from"]

/-- What caused a failure, if there is more to tell than its words. -/
def cause? : CommandFailure → Option String
  | .notWritten _ error => some error.message
  | _ => none

/-- The code that a failure exits with. -/
def exitCode : CommandFailure → Nat
  | .emptyScope => 2
  | .unknownSetting _ => 4
  | .compilation failure =>
    match failure.category with
    | .internal => 1
    | .validation => 2
    | .notFound => 3
    | .configuration => 4
  | .notWritten .. => 1

/-- A failure as it is printed; `verbose` adds the cause. -/
def render (verbose : Bool) (f : CommandFailure) : String :=
  let causes :=
    match verbose, f.cause? with
    | true, some cause => "  caused by: " ++ cause ++ "\n"
    | _, _ => ""
  let pointer := if !verbose && f.cause?.isSome then "  (run with -v to see the cause)\n" else ""
  "\nerror: " ++ f.message ++ "\n" ++ causes ++
    String.join (f.hints.map fun hint => "  hint: " ++ hint ++ "\n") ++ pointer

end CommandFailure

/-- How a run ends. -/
inductive Outcome where
  | finished (output : String)
  /-- The arguments ask for no command. -/
  | noRequest (reason : NoRequest)
  | noSettings (failure : SettingsFailure)
  | failed (failure : CommandFailure) (verbose : Bool)
  deriving DecidableEq, Repr

/-- What a run prints and the code it exits with. -/
structure Report where
  code : Nat
  output : String
  errors : String
  deriving DecidableEq, Repr

/-- The name and version of the program. -/
def versionText : String := "graphwire 0.1.0"

/-- How the program is called. -/
def usage : String :=
  "Usage: graphwire [OPTIONS] <COMMAND>\n\n" ++
    "Commands:\n" ++
    "  compile  Compile documents into a service graph\n" ++
    "  check    Validate documents without printing the graph\n" ++
    "  resolve  Interpret a string through the reference grammar\n" ++
    "  config   Inspect the configuration: get <KEY>, list, path\n\n" ++
    "Options:\n" ++
    "  -v, --verbose                 Show the causes of failures\n" ++
    "  -q, --quiet                   Only print errors\n" ++
    "      --no-color                Never use colours\n" ++
    "  -c, --config <FILE>           Read settings from this file\n" ++
    "      --output-format <FORMAT>  auto, human, plain or json\n" ++
    "  -h, --help                    Print help\n" ++
    "  -V, --version                 Print version\n"

/-- What a run prints and the code it exits with. -/
def Outcome.report : Outcome → Report
  | .finished output => ⟨0, output, ""⟩
  | .noRequest .help => ⟨0, usage, ""⟩
  | .noRequest .version => ⟨0, versionText ++ "\n", ""⟩
  | .noRequest (.misused fault) => ⟨2, "", "error: " ++ fault.message ++ "\n\n" ++ usage⟩
  | .noSettings failure =>
    ⟨4, "", "graphwire: " ++ failure.summary ++ ": " ++ failure.reason ++ "\n"⟩
  | .failed failure verbose => ⟨failure.exitCode, "", failure.render verbose⟩

end ServiceGraph.CommandLine
