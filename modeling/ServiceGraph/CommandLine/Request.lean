import ServiceGraph.Path
import ServiceGraph.Text.Case

/-!
# Requests

A `Request` is what the arguments of a run ask for: a command and the options that every command
takes.
-/

set_option autoImplicit false

namespace ServiceGraph.CommandLine

/-- How results are shown. -/
inductive OutputFormat where
  /-- Leaves the choice to the settings, and then to what the output is. -/
  | auto
  /-- Text with colours. -/
  | human
  /-- Text without colours. -/
  | plain
  | json
  deriving DecidableEq, Repr, Inhabited

namespace OutputFormat

/-- Every format. -/
def all : List OutputFormat := [.auto, .human, .plain, .json]

/-- The name of a format. -/
def name : OutputFormat → String
  | .auto => "auto"
  | .human => "human"
  | .plain => "plain"
  | .json => "json"

/-- The format of a name. -/
def ofName? (s : String) : Option OutputFormat := all.find? fun f => f.name = s

/-- The format of a name in letters of either case. -/
def ofNameInAnyCase? (s : String) : Option OutputFormat := ofName? (Text.foldCase s)

end OutputFormat

/-- The options that every command takes. -/
structure GlobalOptions where
  /-- How often more words were asked for. -/
  verbosity : Nat := 0
  /-- Whether only failures are shown. -/
  quiet : Bool := false
  noColor : Bool := false
  /-- The file that settings are read from. -/
  settingsFile : Option Path := none
  format : OutputFormat := .auto
  deriving DecidableEq, Repr, Inhabited

/-- What shapes a compilation. -/
structure CompilerOptions where
  /-- The entry documents. -/
  files : List String
  /-- Where imports are looked for before the directories of the settings. -/
  importRoots : List Path := []
  capabilities : Option Path := none
  scope : Option String := none
  /-- The names whose blocks become parameters. -/
  extensions : List String := []
  deriving DecidableEq, Repr, Inhabited

/-- What is to be done. -/
inductive Command where
  /-- Compiles documents and shows the graph, and writes it to a file if one is named. -/
  | compile (options : CompilerOptions) (out : Option Path)
  /-- Compiles documents and tells whether they are sound. -/
  | check (options : CompilerOptions)
  /-- Tells how texts are read. -/
  | resolve (texts : List String)
  | showSetting (key : String)
  | listSettings
  | showSettingsPath
  deriving DecidableEq, Repr

/-- A command and the options that every command takes. -/
structure Request where
  options : GlobalOptions
  command : Command
  deriving DecidableEq, Repr

end ServiceGraph.CommandLine
