import ServiceGraph.Disk.Basic
import ServiceGraph.Settings.Layer
import ServiceGraph.Settings.Typed
import ServiceGraph.Text.Utf8
import ServiceGraph.Toml.Reader

/-!
# Sources of settings

Settings come from a TOML file and from the environment, which is laid over the file. The file is
the one that the user names, which must exist, or the one in the user's configuration directory
(`Settings.standardFile`), which need not.
-/

set_option autoImplicit false

namespace ServiceGraph

/-- The variables of a process by name. -/
abbrev Variables := List (String × String)

/-- Why there are no settings. -/
inductive SettingsFailure where
  /-- The file cannot be read. -/
  | unreadable (reason : String)
  /-- A setting has a value of the wrong type. -/
  | mistyped (reason : String)
  deriving DecidableEq, Repr

namespace SettingsFailure

/-- What went wrong. -/
def summary : SettingsFailure → String
  | .unreadable _ => "Failed to read configuration sources"
  | .mistyped _ => "Invalid configuration"

/-- The reason in words. -/
def reason : SettingsFailure → String
  | .unreadable reason => reason
  | .mistyped reason => reason

end SettingsFailure

namespace Settings

/-- The value of a variable that is not empty. -/
def filled? (environment : Variables) (name : String) : Option String :=
  match OrderedMap.valueAt name environment with
  | some "" => none
  | found => found

/-- The directory that holds the configuration directories of programs. -/
def configurationHome? (environment : Variables) : Option Path :=
  match filled? environment "XDG_CONFIG_HOME" with
  | some dir =>
    if Path.isAbsolute ⟨dir⟩ then some ⟨dir⟩
    else (filled? environment "HOME").map fun home => Path.join ⟨home⟩ ⟨".config"⟩
  | none => (filled? environment "HOME").map fun home => Path.join ⟨home⟩ ⟨".config"⟩

/-- The file that is read when the user names none. -/
def standardFile (environment : Variables) : Path :=
  match configurationHome? environment with
  | some dir => dir.join ⟨"graphwire/config.toml"⟩
  | none => ⟨".graphwire.toml"⟩

section

variable {m : Type → Type} [Monad m]

/-- The first of a path and the same path with the ending `.toml` that leads to a file. -/
def findFile? (disk : Disk m) (p : Path) : m (Option Path) := do
  if ← disk.isFile p then return some p
  let ended := p.withEnding ".toml"
  if ← disk.isFile ended then return some ended
  return none

/-- The text in the bytes of a file. -/
def decode (bytes : ByteArray) : String :=
  String.ofList (Text.dropByteOrderMark (Text.decodeLossy bytes.toList))

/-- The layer in the bytes of a file. -/
def readLayer (bytes : ByteArray) : Except SettingsFailure Layer :=
  match Toml.read (decode bytes) with
  | .ok members => .ok (Layer.ofToml members)
  | .error e => .error (.unreadable e.message)

/-- The layer in a file; a file that is not there is no failure unless it is `required`. -/
def loadFile (disk : Disk m) (p : Path) (required : Bool) : m (Except SettingsFailure Layer) := do
  let missing (reason : String) : Except SettingsFailure Layer :=
    if required then .error (.unreadable reason) else .ok []
  match ← findFile? disk p with
  | none => return missing "the configuration file is not there"
  | some found =>
    match ← disk.readBytes found with
    | .error e => return missing e.message
    | .ok bytes => return readLayer bytes

/-- The settings of a run in which the user named a file or none. -/
def load (disk : Disk m) (environment : Variables) (named : Option Path) :
    m (Except SettingsFailure Settings) := do
  match ← loadFile disk (named.getD (standardFile environment)) named.isSome with
  | .error e => return .error e
  | .ok layer =>
    match ofTable? (Layer.merge [layer, Layer.ofEnvironment environment]) with
    | none => return .error (.mistyped "a setting has a value of the wrong type")
    | some settings => return .ok settings

end

end Settings

end ServiceGraph
