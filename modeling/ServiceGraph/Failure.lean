import ServiceGraph.Capability.Basic
import ServiceGraph.Document.Part
import ServiceGraph.Entry.Fault
import ServiceGraph.Path

/-!
# Failures of a compilation

A `Failure` is the cause of a failed operation. Its words (`Failure.message`), its place in the
taxonomy (`Failure.kind`), the class that decides an exit code (`Failure.category`) and the hints
for the user (`Failure.suggestions`) are functions of the cause.
-/

set_option autoImplicit false

namespace ServiceGraph

/-- The taxonomy of failures. -/
inductive FailureKind where
  | parse
  | schema
  | imports
  | recursion
  | unknownExtension
  | invalidFactoryReference
  | inheritance
  | parameter
  | wiring
  | notFound
  | configuration
  deriving DecidableEq, Repr

/-- The coarse class of a failure. -/
inductive FailureCategory where
  | validation
  | notFound
  | configuration
  | internal
  deriving DecidableEq, Repr

/-- What is wrong with an entry of the imports of a document. -/
inductive ImportFault where
  | notObject
  | withoutResource
  | ignoreErrorsNotBoolean
  deriving DecidableEq, Repr

/-- The words for a fault of an import. -/
def ImportFault.reason : ImportFault → String
  | .notObject => "each entry of \"imports\" must be an object"
  | .withoutResource => "an import needs a \"resource\" key holding a string"
  | .ignoreErrorsNotBoolean => "\"ignore_errors\" must be a boolean"

/-- Which requirement of a wiring rule a tagged service violates. -/
inductive WiringFault where
  | notPublic (role : Capability)
  | abstract (role : Capability)
  | withoutClass (role : Capability)
  | notRegistered (className : String) (role : Capability)
  | missingAttribute (key tag : String)
  deriving DecidableEq, Repr

/-- The words for a violated requirement of the service `id`. -/
def WiringFault.message (id : String) : WiringFault → String
  | .notPublic role =>
    "The service \"" ++ id ++ "\" must be public as " ++ role.role ++ "s are lazy-loaded"
  | .abstract role =>
    "The service \"" ++ id ++ "\" must not be abstract as " ++ role.role ++ "s are lazy-loaded"
  | .withoutClass role =>
    "The service \"" ++ id ++ "\" has no class; a " ++ role.role ++ " needs one"
  | .notRegistered className role =>
    "The service \"" ++ id ++ "\" (class \"" ++ className ++ "\") is not registered as a " ++
      role.role ++ " (" ++ role.name ++ ")"
  | .missingAttribute key tag =>
    "Service \"" ++ id ++ "\" is missing the \"" ++ key ++ "\" attribute on tag \"" ++ tag ++
      "\""

/-- The cause of a failed operation. -/
inductive Failure where
  /-- The text of a document is not JSON. -/
  | malformedDocument (file reason : String)
  /-- A document is JSON but no object. -/
  | documentNotObject (file : String)
  | wrongPart (part : DocumentPart) (file : String)
  | unsupportedKey (key id file : String)
  | invalidDefinition (id file : String) (fault : EntryFault)
  /-- A tag attribute is an array or an object. -/
  | structuredAttribute (id tag key file : String)
  | invalidImport (file : String) (fault : ImportFault)
  | duplicateId (id file : String)
  /-- The decorated service is given as a reference. -/
  | referenceInDecorates (id file value : String)
  /-- A factory or configurator is given as a reference; `option` is its key. -/
  | referenceInCallable (option id file value : String)
  | missingParent (id parent : String)
  | parentCycle (chain : List String)
  | unknownParameter (name : String)
  | parameterCycle (name : String)
  /-- A placeholder names a parameter that has no text. -/
  | structuredParameter (name text typeName : String)
  | wiring (id : String) (fault : WiringFault)
  | serviceNotFound (id : String)
  | unknownCapability (name : String)
  | resourceNotFound (resource : String) (searched : List Path)
  /-- A resource names a place that is not a local file. -/
  | notLocal (resource : String)
  | unreadable (path : Path) (reason : String)
  | importCycle (chain : List Path)
  | importDepthExceeded (resource : String) (limit : Nat)
  | unknownExtension (name file : String) (registered : List String)
  | duplicateExtension (name : String)
  | unreadableManifest (path : Path) (reason : String)
  | malformedManifest (source reason : String)
  deriving DecidableEq, Repr

namespace Failure

/-- A text without its first character. -/
def withoutSigil (value : String) : String := String.ofList value.toList.tail

/-- A text in double quotes, as it stands. -/
def inQuotes (s : String) : String := "\"" ++ s ++ "\""

/-- The words for an option that must hold an id and holds a reference. -/
def idWithoutSigil (option id file value : String) : String :=
  "The value of the \"" ++ option ++ "\" option for the \"" ++ id ++ "\" service in " ++ file ++
    " must be the id of the service without the \"@\" prefix (replace \"" ++ value ++
    "\" with \"" ++ withoutSigil value ++ "\")"

/-- The words for a failure. -/
def message : Failure → String
  | .malformedDocument file reason =>
    "The service file \"" ++ file ++ "\" is not valid JSON: " ++ reason
  | .documentNotObject file =>
    "The service file \"" ++ file ++
      "\" is not valid. It should contain an object. Check your JSON syntax"
  | .wrongPart part file =>
    "The \"" ++ part.key ++ "\" key should contain " ++ part.expected ++ " in " ++ file ++
      ". Check your JSON syntax"
  | .unsupportedKey key id file =>
    "The configuration key \"" ++ key ++ "\" is unsupported for service definition \"" ++ id ++
      "\" in \"" ++ file ++ "\". Allowed configuration keys are \"" ++
      "\", \"".intercalate entryKeys ++ "\""
  | .invalidDefinition id file fault =>
    "Invalid service definition \"" ++ id ++ "\" in " ++ file ++ ": " ++ fault.reason
  | .structuredAttribute id tag key file =>
    "A \"tags\" attribute must be of a scalar-type for service \"" ++ id ++ "\", tag \"" ++ tag ++
      "\", attribute \"" ++ key ++ "\" in " ++ file ++ ". Check your JSON syntax"
  | .invalidImport file fault => "Invalid import in " ++ file ++ ": " ++ fault.reason
  | .duplicateId id file =>
    "The service \"" ++ id ++ "\" defined in " ++ file ++ " is already defined"
  | .referenceInDecorates id file value => idWithoutSigil "decorates" id file value
  | .referenceInCallable option id file value => idWithoutSigil option id file value
  | .missingParent id parent =>
    "The service \"" ++ id ++ "\" has a dependency on a non-existent parent service \"" ++ parent ++
      "\""
  | .parentCycle chain => "Circular parent chain detected: " ++ " -> ".intercalate chain
  | .unknownParameter name =>
    "You have requested a non-existent parameter \"" ++ name ++ "\""
  | .parameterCycle name => "Circular reference detected for parameter \"" ++ name ++ "\""
  | .structuredParameter name text typeName =>
    "Parameter \"" ++ name ++ "\" cannot be embedded in \"" ++ text ++ " (" ++ typeName ++
      ")\": it is not a scalar"
  | .wiring id fault => fault.message id
  | .serviceNotFound id => "Service not found: " ++ id
  | .unknownCapability name =>
    "Unknown capability \"" ++ name ++
      "\". Known capabilities are \"command_handler\", \"query_handler\" and \"event_subscriber\""
  | .resourceNotFound resource searched =>
    "The file \"" ++ resource ++ "\" does not exist (looked in: " ++
      ", ".intercalate (searched.map Path.text) ++ ")"
  | .notLocal resource => "This is not a local file \"" ++ resource ++ "\""
  | .unreadable path reason => "Unable to read " ++ path.text ++ ": " ++ reason
  | .importCycle chain =>
    "Circular import detected: " ++ " -> ".intercalate (chain.map Path.text)
  | .importDepthExceeded resource limit =>
    "Import depth limit of " ++ toString limit ++ " exceeded while importing \"" ++ resource ++ "\""
  | .unknownExtension name file registered =>
    "There is no extension able to load the configuration for \"" ++ name ++ "\" (in " ++ file ++
      "). Looked for namespace \"" ++ name ++ "\", found " ++
      (if registered.isEmpty then "none" else ", ".intercalate (registered.map inQuotes))
  | .duplicateExtension name =>
    "An extension is already registered for namespace \"" ++ name ++ "\""
  | .unreadableManifest path reason =>
    "capability manifest " ++ path.text ++ " cannot be read: " ++ reason
  | .malformedManifest source reason =>
    "capability manifest " ++ source ++ " is malformed: " ++ reason

/-- The place of a failure in the taxonomy. -/
def kind : Failure → FailureKind
  | .malformedDocument .. => .parse
  | .documentNotObject .. => .schema
  | .wrongPart .. => .schema
  | .unsupportedKey .. => .schema
  | .invalidDefinition .. => .schema
  | .structuredAttribute .. => .schema
  | .invalidImport .. => .schema
  | .duplicateId .. => .schema
  | .referenceInDecorates .. => .schema
  | .referenceInCallable .. => .invalidFactoryReference
  | .missingParent .. => .inheritance
  | .parentCycle .. => .inheritance
  | .unknownParameter .. => .parameter
  | .parameterCycle .. => .parameter
  | .structuredParameter .. => .parameter
  | .wiring .. => .wiring
  | .serviceNotFound .. => .notFound
  | .unknownCapability .. => .configuration
  | .resourceNotFound .. => .imports
  | .notLocal .. => .imports
  | .unreadable .. => .imports
  | .importCycle .. => .recursion
  | .importDepthExceeded .. => .recursion
  | .unknownExtension .. => .unknownExtension
  | .duplicateExtension .. => .configuration
  | .unreadableManifest .. => .configuration
  | .malformedManifest .. => .configuration

/-- The coarse class of a failure. -/
def category : Failure → FailureCategory
  | .serviceNotFound .. => .notFound
  | .resourceNotFound .. => .notFound
  | .unreadable .. => .internal
  | .duplicateExtension .. => .configuration
  | .unreadableManifest .. => .configuration
  | .malformedManifest .. => .configuration
  | _ => .validation

/-- What the user can do about a failure. -/
def suggestions : Failure → List String
  | .malformedDocument file _ =>
    ["Check the JSON syntax of " ++ file,
      "An empty file is allowed; a truncated one is not"]
  | .unsupportedKey key id _ =>
    ["Remove or rename \"" ++ key ++ "\" in service \"" ++ id ++ "\"",
      "Run: graphwire check <file> after editing"]
  | .referenceInDecorates _ _ value =>
    ["Use \"" ++ withoutSigil value ++ "\" instead",
      "The \"@\" sigil is only valid in arguments, properties and calls"]
  | .referenceInCallable _ _ _ value =>
    ["Use \"" ++ withoutSigil value ++ "\" instead",
      "The \"@\" sigil is only valid in arguments, properties and calls"]
  | .duplicateId id _ =>
    ["Service id \"" ++ id ++ "\" must be unique across all imported files",
      "Rename one of the definitions or remove the duplicate import"]
  | .missingParent _ parent =>
    ["Define a service named \"" ++ parent ++ "\" or fix the \"parent\" key"]
  | .parentCycle .. => ["Break the cycle in the \"parent\" chain"]
  | .unknownParameter name =>
    ["Define \"" ++ name ++ "\" under \"parameters\"",
      "Write %% for a literal percent sign"]
  | .wiring id _ =>
    ["Check the definition of \"" ++ id ++ "\"",
      "Tagged handlers and subscribers must be public and concrete",
      "Register the class in the capability manifest"]
  | .resourceNotFound resource _ =>
    ["Check the path of \"" ++ resource ++ "\"",
      "Imports are resolved relative to the importing file",
      "Set \"ignore_errors\": true on the import to make it optional"]
  | .notLocal .. => ["Only local files can be imported"]
  | .unreadable path _ =>
    ["Failed to read: " ++ path.text, "Check that you have read permissions"]
  | .importCycle .. => ["Remove one of the imports that closes the cycle"]
  | .importDepthExceeded .. =>
    ["Flatten the import tree",
      "Or raise loader.max_import_depth in the configuration"]
  | .unknownExtension name _ _ =>
    ["Register a handler for \"" ++ name ++ "\"",
      "Or remove the section from the file"]
  | .duplicateExtension .. => ["Register each extension namespace once"]
  | .unreadableManifest .. =>
    ["Check the wiring.capabilities setting and the manifest it names"]
  | .malformedManifest .. =>
    ["Check the wiring.capabilities setting and the manifest it names"]
  | _ => ["See documentation for more details"]

end Failure

end ServiceGraph
