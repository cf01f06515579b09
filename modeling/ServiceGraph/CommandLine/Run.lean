import ServiceGraph.Capability.Manifest
import ServiceGraph.CommandLine.Outcome
import ServiceGraph.CommandLine.Screen
import ServiceGraph.Compiler
import ServiceGraph.Graph.Export
import ServiceGraph.Locator.OnDisk

/-!
# Running commands

`run` reads the arguments, then the settings, and then does what is asked for. Options win over
settings. A graph is written to its file before anything is printed, so a failure prints nothing
else.
-/

set_option autoImplicit false

namespace ServiceGraph.CommandLine

/-! ## Results in words -/

/-- A definition in one line. -/
def describeDefinition (d : Definition) : String :=
  let marks := (if d.isAbstract then " [abstract]" else "") ++
    (if d.isPublic then "" else " [private]")
  let calls := if d.calls.isEmpty then "" else s!" ({d.calls.length} calls)"
  let tags := String.join (d.tags.map fun t => " #" ++ t.name)
  d.className.getD "-" ++ marks ++ calls ++ tags

/-- A text with blanks after it up to a number of characters. -/
def padTo (width : Nat) (s : String) : String :=
  s ++ String.ofList (List.replicate (width - s.toList.length) ' ')

/-- The lines that show definitions; ids are padded to the greatest number of bytes of one. -/
def definitionLines (g : CompiledGraph) : List String :=
  let width := (g.definitions.keys.map String.utf8ByteSize).foldl max 0
  g.definitions.entries.map fun e => "  " ++ padTo width e.1 ++ "  " ++ describeDefinition e.2

/-- The lines that show aliases. -/
def aliasLines (g : CompiledGraph) : List String :=
  g.aliases.entries.map fun e =>
    "  " ++ e.1 ++ " -> " ++ e.2.target ++ (if e.2.isPublic then "" else " (private)")

/-- Lines under a title after an empty line; no line has no title. -/
def titled (title : String) (lines : List String) : List String :=
  if lines.isEmpty then [] else "" :: title :: lines

/-- The lines that show a graph. -/
def graphLines (g : CompiledGraph) : List String :=
  s!"  {g.size} definitions, {g.aliases.size} aliases, {g.parameters.size} parameters" ::
    (titled "Definitions:" (definitionLines g) ++ titled "Aliases:" (aliasLines g) ++
      titled "Resources:" (g.resources.map fun p => "  " ++ p.text))

/-- How a text is read, in words. -/
def describeValue (v : Value) : String :=
  let mark (strict : Bool) := if strict then "" else ", non-strict"
  match v with
  | .reference (.required id strict) => "reference to service \"" ++ id ++ "\"" ++ mark strict
  | .reference (.optional id strict) =>
    "optional reference to service \"" ++ id ++ "\", null when missing" ++ mark strict
  | .reference (.expression source) => "expression `" ++ source ++ "`"
  | .reference (.literal value) => "literal string \"" ++ value ++ "\""
  | .scalar (.string s) => "string \"" ++ s ++ "\""
  | other => other.typeName

/-! ## Commands -/

/-- The registry of the extensions that turn blocks into parameters, each name once. -/
def parameterExtensions (names : List String) : ExtensionRegistry :=
  names.foldl
    (fun r name =>
      match r.register (.parameters name) with
      | .ok r => r
      | .error _ => r)
    .empty

section

variable {m : Type → Type} [Monad m]

/-- A compiler set up by options and settings. -/
def buildCompiler (disk : Disk m) (o : CompilerOptions) (s : Settings) :
    m (Except CommandFailure (Compiler m)) := do
  let scope := o.scope.getD s.scope
  if Text.isBlankText scope then return .error .emptyScope
  let registry ←
    match o.capabilities <|> s.capabilities with
    | none => pure (.ok .empty)
    | some p => CapabilityRegistry.ofManifestFile disk p
  match registry with
  | .error f => return .error (.compilation f)
  | .ok capabilities =>
    let locator := OnDisk.locator disk (o.importRoots ++ s.searchPaths)
    let extensions := parameterExtensions (o.extensions ++ s.parameterNamespaces)
    return .ok ⟨⟨locator, extensions, s.maxImportDepth⟩, ⟨scope, capabilities⟩⟩

/-- The graph of entry documents. -/
def compileFiles (disk : Disk m) (o : CompilerOptions) (s : Settings) :
    m (Except CommandFailure CompiledGraph) := do
  match ← buildCompiler disk o s with
  | .error f => return .error f
  | .ok compiler => return (← compiler.compile o.files).mapError .compilation

/-- Writes a graph to a file, if one is named. -/
def writeGraph (disk : Disk m) (g : CompiledGraph) (out : Option Path) :
    m (Except CommandFailure Unit) := do
  match out with
  | none => return .ok ()
  | some p => return (← disk.writeText p g.toJson.pretty).mapError (.notWritten p)

/-- The output that shows a compiled graph. -/
def showGraph (screen : Screen) (g : CompiledGraph) (out : Option Path) : String :=
  match screen.format with
  | .json => Screen.json g.toJson
  | _ =>
    let written :=
      match out with
      | none => []
      | some p => [Line.success ("Graph written to " ++ p.text)]
    screen.lines (.heading "Compiled graph" :: (graphLines g).map .text ++ written)

/-- The output that tells that documents are sound. -/
def showSoundness (screen : Screen) (files : List String) (g : CompiledGraph) : String :=
  match screen.format with
  | .json =>
    Screen.json (.object [("ok", .bool true), ("files", .list Json.string files),
      ("definitions", .number (.integer g.size)), ("aliases", .number (.integer g.aliases.size)),
      ("resources", .number (.integer g.resources.length))])
  | _ =>
    let warnings :=
      if g.isEmpty && g.aliases.isEmpty then
        [Line.warning "The documents define no services"]
      else []
    let summary := ", ".intercalate files ++ " OK: " ++ toString g.size ++ " definitions, " ++
      toString g.aliases.size ++ " aliases from " ++ toString g.resources.length ++ " documents"
    screen.lines (warnings ++ [.success summary])

/-- The output that tells how texts are read. -/
def showReadings (screen : Screen) (texts : List String) : String :=
  match screen.format with
  | .json =>
    Screen.json (.list
      (fun s => .object [("input", .string s), ("value", (Value.ofText s).toJson)]) texts)
  | _ => screen.lines (texts.map fun s => .text (s ++ "  =>  " ++ describeValue (Value.ofText s)))

/-- A text without blanks at its end. -/
def trimEnd (s : String) : String :=
  String.ofList (s.toList.reverse.dropWhile Text.isBlank).reverse

/-- Does what is asked for; the result is the output. -/
def perform (disk : Disk m) (environment : Variables) (screen : Screen) (s : Settings) :
    Command → m (Except CommandFailure String)
  | .compile o out => do
    match ← compileFiles disk o s with
    | .error f => return .error f
    | .ok g => return (← writeGraph disk g out).map fun _ => showGraph screen g out
  | .check o => do
    return (← compileFiles disk o s).map (showSoundness screen o.files)
  | .resolve texts => return .ok (showReadings screen texts)
  | .showSetting key =>
    match s.show? key with
    | none => return .error (.unknownSetting key)
    | some value => return .ok (screen.lines [.text value])
  | .listSettings =>
    let place := (Settings.standardFile environment).text
    return .ok (screen.lines [.heading ("# " ++ place), .text (trimEnd s.write)])
  | .showSettingsPath =>
    return .ok (screen.lines [.text (Settings.standardFile environment).text])

/-- A run of the program; `terminal` tells whether the output is a terminal. -/
def run (disk : Disk m) (environment : Variables) (terminal : Bool) (words : List String) :
    m Outcome := do
  match readRequest environment words with
  | .error reason => return .noRequest reason
  | .ok request =>
    match ← Settings.load disk environment request.options.settingsFile with
    | .error f => return .noSettings f
    | .ok settings =>
      let screen := Screen.ofOptions request.options settings terminal
      match ← perform disk environment screen settings request.command with
      | .error f => return .failed f (0 < request.options.verbosity)
      | .ok output => return .finished output

end

end ServiceGraph.CommandLine
