/-!
# Faults of service entries

The keys that a service entry may use, and what can be wrong with the value of one of them. The
words of a fault do not name the service; the failure that carries the fault does.
-/

set_option autoImplicit false

namespace ServiceGraph

/-- The keys that an entry written as an object may use. -/
def entryKeys : List String :=
  ["alias", "parent", "class", "shared", "synthetic", "lazy", "public", "abstract", "deprecated",
    "factory", "file", "arguments", "properties", "configurator", "calls", "tags", "decorates",
    "decoration_inner_name", "decoration_priority", "autowire", "autowiring_types"]

/-- What is wrong with a service entry. -/
inductive EntryFault where
  /-- The entry is neither an object nor an alias text. -/
  | notAnEntry (found : String)
  | notString (key : String)
  | notBoolean (key : String)
  | notArray (key : String)
  | notInteger (key : String)
  | propertiesNotObject
  | deprecationNotText
  /-- A text with colons that does not have the form `service:method`. -/
  | callableText (key text : String)
  | callablePair (key : String)
  | callableShape (key : String)
  | callShape
  | callWithoutMethod
  | tagShape
  | tagWithoutName
  | tagNameEmpty
  | autowiringTypeNotString
  | autowiringTypesShape
  deriving DecidableEq, Repr

/-- The words for a fault. -/
def EntryFault.reason : EntryFault → String
  | .notAnEntry found =>
    "a service definition must be an object or a string starting with \"@\" but " ++ found ++
      " found"
  | .notString key => "\"" ++ key ++ "\" must be a string"
  | .notBoolean key => "\"" ++ key ++ "\" must be a boolean"
  | .notArray key => "parameter \"" ++ key ++ "\" must be an array"
  | .notInteger key => "\"" ++ key ++ "\" must be an integer"
  | .propertiesNotObject => "parameter \"properties\" must be an object"
  | .deprecationNotText => "the \"deprecated\" message must be a string or null"
  | .callableText key text =>
    "parameter \"" ++ key ++ "\" must use the \"service:method\" form, got \"" ++ text ++ "\""
  | .callablePair key => "parameter \"" ++ key ++ "\" must contain an array with two elements"
  | .callableShape key => "parameter \"" ++ key ++ "\" must be a string or an array"
  | .callShape =>
    "a \"calls\" entry must be \x7b\"method\", \"arguments\"\x7d or [method, arguments]"
  | .callWithoutMethod => "a \"calls\" entry is missing its method name"
  | .tagShape => "a \"tags\" entry must be an object"
  | .tagWithoutName => "a \"tags\" entry is missing a \"name\" key"
  | .tagNameEmpty => "the tag name must be a non-empty string"
  | .autowiringTypeNotString => "an \"autowiring_types\" entry must be a string"
  | .autowiringTypesShape => "parameter \"autowiring_types\" must be a string or an array"

end ServiceGraph
