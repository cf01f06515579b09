import ServiceGraph.CommandLine.Request
import ServiceGraph.Settings.Sources

/-!
# Arguments

The words of a command line are read level by level: the words before a command, the command's
own, and the words of a command inside it. A `Grammar` says which switches, commands and operands
a level has, and `Grammar.read` sorts the words of a level. A switch is a long word such as
`--quiet` or a letter such as `-q`; letters may stand together, and the last of them may take a
value. Two hyphens make every word after them an operand.

A value of the switches that all levels share is taken from the innermost level that gives one.
-/

set_option autoImplicit false

namespace ServiceGraph.CommandLine

/-- A switch. -/
inductive Switch where
  | verbose
  | quiet
  | noColor
  | config
  | outputFormat
  | help
  | version
  | importRoot
  | capabilities
  | scope
  | extension
  | out
  deriving DecidableEq, Repr

/-- How a switch is used. -/
inductive SwitchUse where
  /-- Given at most once, without a value. -/
  | flag
  /-- Given any number of times, without a value. -/
  | counter
  /-- Given at most once, with a value. -/
  | single
  /-- Given any number of times, each time with a value. -/
  | repeated
  deriving DecidableEq, Repr

namespace Switch

/-- The long word of a switch, without its hyphens. -/
def long : Switch → String
  | .verbose => "verbose"
  | .quiet => "quiet"
  | .noColor => "no-color"
  | .config => "config"
  | .outputFormat => "output-format"
  | .help => "help"
  | .version => "version"
  | .importRoot => "include"
  | .capabilities => "capabilities"
  | .scope => "prefix"
  | .extension => "extension"
  | .out => "out"

/-- The letter of a switch. -/
def letter? : Switch → Option Char
  | .verbose => some 'v'
  | .quiet => some 'q'
  | .config => some 'c'
  | .help => some 'h'
  | .version => some 'V'
  | .importRoot => some 'I'
  | .extension => some 'e'
  | .out => some 'o'
  | _ => none

/-- How a switch is used. -/
def use : Switch → SwitchUse
  | .verbose => .counter
  | .quiet => .flag
  | .noColor => .flag
  | .help => .flag
  | .version => .flag
  | .importRoot => .repeated
  | .extension => .repeated
  | _ => .single

/-- Whether a switch takes a value. -/
def takesValue (s : Switch) : Bool := s.use = .single || s.use = .repeated

/-- Whether a text can be the value of a switch: a path is not empty, a format is known. -/
def accepts (s : Switch) (value : String) : Bool :=
  match s with
  | .config => value ≠ ""
  | .capabilities => value ≠ ""
  | .importRoot => value ≠ ""
  | .out => value ≠ ""
  | .outputFormat => (OutputFormat.ofName? value).isSome
  | _ => true

/-- The switches that every level has. -/
def shared : List Switch := [.verbose, .quiet, .noColor, .config, .outputFormat, .help]

/-- The switches that shape a compilation. -/
def ofCompiler : List Switch := [.importRoot, .capabilities, .scope, .extension]

end Switch

/-- Why arguments are not understood. -/
inductive UsageFault where
  | unknownSwitch (word : String)
  | unknownCommand (word : String)
  | missingCommand
  | missingValue (switch : Switch)
  | unexpectedValue (switch : Switch)
  | unacceptedValue (switch : Switch) (value : String)
  | repeatedSwitch (switch : Switch)
  /-- Less output and more output are asked for at once. -/
  | quietAndVerbose
  | missingOperand
  | unexpectedOperand (word : String)
  deriving DecidableEq, Repr

/-- A fault in words. -/
def UsageFault.message : UsageFault → String
  | .unknownSwitch word => "unexpected argument '" ++ word ++ "'"
  | .unknownCommand word => "unrecognized command '" ++ word ++ "'"
  | .missingCommand => "a command is required"
  | .missingValue s => "a value is required for '--" ++ s.long ++ "'"
  | .unexpectedValue s => "no value is taken by '--" ++ s.long ++ "'"
  | .unacceptedValue s value => "invalid value '" ++ value ++ "' for '--" ++ s.long ++ "'"
  | .repeatedSwitch s => "'--" ++ s.long ++ "' cannot be used more than once"
  | .quietAndVerbose => "'--quiet' cannot be used with '--verbose'"
  | .missingOperand => "a required argument is missing"
  | .unexpectedOperand word => "unexpected argument '" ++ word ++ "'"

/-- Why no request is read. -/
inductive NoRequest where
  | help
  | version
  | misused (fault : UsageFault)
  deriving DecidableEq, Repr

/-- How many operands a level takes. -/
inductive OperandRule where
  | none
  | one
  /-- One or more. -/
  | many
  deriving DecidableEq, Repr

/-- What the words of a level may be. -/
structure Grammar where
  switches : List Switch
  /-- The words that end the level. -/
  commands : List String := []
  operands : OperandRule := .none
  /-- Whether a word with a hyphen that is no switch is an operand. -/
  hyphens : Bool := false

/-- What the words of a level give. -/
structure Given where
  /-- The switches and their values in order; the value of a flag is empty. -/
  switches : List (Switch × String) := []
  operands : List String := []
  deriving Inhabited

namespace Given

/-- Whether a switch is given. -/
def has (g : Given) (s : Switch) : Bool := g.switches.any fun e => e.1 = s

/-- The values of a switch, in order. -/
def values (g : Given) (s : Switch) : List String :=
  g.switches.filterMap fun e => if e.1 = s then some e.2 else none

/-- The value of a switch. -/
def value? (g : Given) (s : Switch) : Option String := (g.values s).head?

/-- What is given with one more switch. -/
def addSwitch (g : Given) (s : Switch) (value : String) : Except NoRequest Given :=
  if !s.accepts value then .error (.misused (.unacceptedValue s value))
  else if (s.use = .flag ∨ s.use = .single) ∧ g.has s then
    .error (.misused (.repeatedSwitch s))
  else
    match s with
    | .help => .error .help
    | .version => .error .version
    | s => .ok { g with switches := g.switches ++ [(s, value)] }

end Given

namespace Grammar

/-- The switch with a long word. -/
def ofLong? (g : Grammar) (word : List Char) : Option Switch :=
  g.switches.find? fun s => s.long.toList = word

/-- The switch with a letter. -/
def ofLetter? (g : Grammar) (c : Char) : Option Switch :=
  g.switches.find? fun s => s.letter? = some c

/-- What is given with one more operand. -/
def addOperand (g : Grammar) (given : Given) (word : String) : Except NoRequest Given :=
  let taken : Except NoRequest Given := .ok { given with operands := given.operands ++ [word] }
  match g.operands with
  | .many => taken
  | .one =>
    if given.operands.isEmpty then taken else .error (.misused (.unexpectedOperand word))
  | .none =>
    if g.commands.isEmpty then .error (.misused (.unexpectedOperand word))
    else .error (.misused (.unknownCommand word))

/-- What a word with a hyphen stands for. -/
inductive Reading where
  | operand
  /-- The switches given, and the switch that waits for the next word as its value. -/
  | switches (given : Given) (waiting : Option Switch)

/-- Reads the letters of a word. -/
def readLetters (g : Grammar) (word : String) (given : Given) :
    List Char → Except NoRequest Reading
  | [] => .ok (.switches given none)
  | c :: rest =>
    match g.ofLetter? c with
    | none => .error (.misused (.unknownSwitch word))
    | some s =>
      if s.takesValue then
        match rest with
        | [] => .ok (.switches given (some s))
        | '=' :: value => (given.addSwitch s (String.ofList value)).map fun d => .switches d none
        | value => (given.addSwitch s (String.ofList value)).map fun d => .switches d none
      else
        match given.addSwitch s "" with
        | .error e => .error e
        | .ok given => g.readLetters word given rest

/-- Reads a long word, given what follows its two hyphens. -/
def readLong (g : Grammar) (word : String) (given : Given) (s : List Char) :
    Except NoRequest Reading :=
  let value? : Option String :=
    match s.dropWhile (· ≠ '=') with
    | [] => none
    | _ :: value => some (String.ofList value)
  match g.ofLong? (s.takeWhile (· ≠ '=')) with
  | none => .error (.misused (.unknownSwitch word))
  | some s =>
    match s.takesValue, value? with
    | true, none => .ok (.switches given (some s))
    | true, some value => (given.addSwitch s value).map fun d => .switches d none
    | false, none => (given.addSwitch s "").map fun d => .switches d none
    | false, some _ => .error (.misused (.unexpectedValue s))

/-- Whether what follows the first hyphen of a word makes it no switch of the level. -/
def isForeign (g : Grammar) : List Char → Bool
  | '-' :: rest => (g.ofLong? (rest.takeWhile (· ≠ '='))).isNone
  | letters => letters.any fun c => (g.ofLetter? c).isNone

/-- Reads a word that is not two hyphens alone. -/
def readWord (g : Grammar) (given : Given) (word : String) : Except NoRequest Reading :=
  match word.toList with
  | '-' :: c :: rest =>
    if g.hyphens ∧ g.isForeign (c :: rest) then .ok .operand
    else if c = '-' then g.readLong word given rest
    else g.readLetters word given (c :: rest)
  | _ => .ok .operand

/-- Whether a word can be the value of the switch before it. -/
def canBeValue (g : Grammar) (word : String) : Bool :=
  match word.toList with
  | ['-', '-'] => false
  | '-' :: c :: rest => g.hyphens && g.isForeign (c :: rest)
  | _ => true

/-- Sorts the words of a level; the second part starts with the command that ends it. -/
def sort (g : Grammar) (given : Given) : List String → Except NoRequest (Given × List String)
  | [] => .ok (given, [])
  | word :: rest => do
    if word ∈ g.commands then return (given, word :: rest)
    else if g.hyphens ∧ !given.operands.isEmpty then
      g.sort (← g.addOperand given word) rest
    else if word = "--" then
      return (← rest.foldlM g.addOperand given, [])
    else
      match ← g.readWord given word with
      | .operand => g.sort (← g.addOperand given word) rest
      | .switches given none => g.sort given rest
      | .switches given (some s) =>
        match rest with
        | [] => throw (.misused (.missingValue s))
        | value :: rest =>
          if g.canBeValue value then g.sort (← given.addSwitch s value) rest
          else throw (.misused (.missingValue s))

/-- Checks what a level gives as a whole. -/
def check (g : Grammar) (given : Given) : Except NoRequest Unit :=
  if given.has .quiet ∧ given.has .verbose then .error (.misused .quietAndVerbose)
  else if g.operands ≠ .none ∧ given.operands.isEmpty then .error (.misused .missingOperand)
  else .ok ()

/-- Reads the words of a level without commands. -/
def readAll (g : Grammar) (words : List String) : Except NoRequest Given := do
  let (given, _) ← g.sort {} words
  g.check given
  return given

end Grammar

/-! ## Levels -/

/-- The words before a command. -/
def topGrammar : Grammar where
  switches := .version :: Switch.shared
  commands := ["compile", "c", "check", "resolve", "config", "help"]

/-- The words of the command that compiles. -/
def compileGrammar : Grammar where
  switches := Switch.shared ++ Switch.ofCompiler ++ [.out]
  operands := .many

/-- The words of the command that checks. -/
def checkGrammar : Grammar where
  switches := Switch.shared ++ Switch.ofCompiler
  operands := .many

/-- The words of the command that tells how texts are read. -/
def resolveGrammar : Grammar where
  switches := Switch.shared
  operands := .many
  hyphens := true

/-- The words before a command on settings. -/
def settingsGrammar : Grammar where
  switches := Switch.shared
  commands := ["get", "list", "path", "help"]

/-- The words of a command that takes the name of a setting. -/
def keyGrammar : Grammar where
  switches := Switch.shared
  operands := .one

/-- The words of a command without operands. -/
def bareGrammar : Grammar where
  switches := Switch.shared

/-- The options of a compilation. -/
def compilerOptions (given : Given) : CompilerOptions where
  files := given.operands
  importRoots := (given.values .importRoot).map Path.mk
  capabilities := (given.value? .capabilities).map Path.mk
  scope := given.value? .scope
  extensions := given.values .extension

/-- The innermost of the levels that give a switch, outermost first. -/
def innermost? (levels : List Given) (s : Switch) : Option Given :=
  levels.reverse.find? fun given => given.has s

/-- The value that a variable has when it does not ask for anything. -/
def isOff (value : String) : Bool :=
  Text.lowerCase value ∈ ["", "n", "no", "f", "false", "off", "0"]

/-- Whether the environment asks for no colours. -/
def refusesColor (environment : Variables) : Bool :=
  match OrderedMap.valueAt "NO_COLOR" environment with
  | none => false
  | some value => !isOff value

/-- The options that all levels share. -/
def globalOptions (environment : Variables) (levels : List Given) : GlobalOptions :=
  let value? (s : Switch) : Option String := (innermost? levels s).bind fun g => g.value? s
  { verbosity := ((innermost? levels .verbose).map fun g => (g.values .verbose).length).getD 0
    quiet := (innermost? levels .quiet).isSome
    noColor := (innermost? levels .noColor).isSome || refusesColor environment
    settingsFile := (value? .config).map Path.mk
    format := ((value? .outputFormat).bind OutputFormat.ofName?).getD .auto }

/-- The commands inside a command. -/
def commandsInside (command : String) : List String :=
  if command = "config" then settingsGrammar.commands else []

/-- What the words after the command for help ask for: each names one of `commands`, and the next
word names one inside it. -/
def helpOn (commands : List String) (inside : String → List String) : List String → NoRequest
  | [] => .help
  | word :: rest =>
    if word ∈ commands then helpOn (inside word) (fun _ => []) rest
    else .misused (.unknownCommand word)

/-- Reads the words after the command for settings: the command inside it, and the levels. -/
def readSettingsCommand (words : List String) : Except NoRequest (Command × List Given) := do
  let (outer, rest) ← settingsGrammar.sort {} words
  let (command, inner) ←
    match rest with
    | [] => throw (.misused .missingCommand)
    | word :: rest =>
      if word = "get" then do
        let inner ← keyGrammar.readAll rest
        pure (Command.showSetting (inner.operands.headD ""), inner)
      else if word = "list" then do
        pure (Command.listSettings, ← bareGrammar.readAll rest)
      else if word = "path" then do
        pure (Command.showSettingsPath, ← bareGrammar.readAll rest)
      else throw (helpOn settingsGrammar.commands commandsInside rest)
  settingsGrammar.check outer
  return (command, [outer, inner])

/-- Reads the words from a command on: the command, and the levels. -/
def readCommand : List String → Except NoRequest (Command × List Given)
  | [] => .error (.misused .missingCommand)
  | word :: rest => do
    if word = "compile" ∨ word = "c" then
      let given ← compileGrammar.readAll rest
      return (.compile (compilerOptions given) ((given.value? .out).map Path.mk), [given])
    else if word = "check" then
      let given ← checkGrammar.readAll rest
      return (.check (compilerOptions given), [given])
    else if word = "resolve" then
      let given ← resolveGrammar.readAll rest
      return (.resolve given.operands, [given])
    else if word = "config" then readSettingsCommand rest
    else throw (helpOn topGrammar.commands commandsInside rest)

/-- Reads the arguments of a run. -/
def readRequest (environment : Variables) (words : List String) : Except NoRequest Request := do
  let (top, rest) ← topGrammar.sort {} words
  let (command, levels) ← readCommand rest
  topGrammar.check top
  return ⟨globalOptions environment (top :: levels), command⟩

end ServiceGraph.CommandLine
