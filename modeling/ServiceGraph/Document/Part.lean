import ServiceGraph.Json.Basic

/-!
# Reserved parts of a document

Three top-level keys of a document have a meaning of their own, and each must hold a container of
a fixed shape. Every other top-level key is the name of an extension.
-/

set_option autoImplicit false

namespace ServiceGraph

/-- A top-level key of a document that is not the name of an extension. -/
inductive DocumentPart where
  | imports
  | parameters
  | services
  deriving DecidableEq, Repr

namespace DocumentPart

/-- The parts in the order they are checked. -/
def all : List DocumentPart := [.imports, .parameters, .services]

/-- The key of a part. -/
def key : DocumentPart → String
  | .imports => "imports"
  | .parameters => "parameters"
  | .services => "services"

/-- The part of a key. -/
def ofKey? (key : String) : Option DocumentPart := all.find? fun part => part.key = key

/-- The container that a part must hold, in words. -/
def expected : DocumentPart → String
  | .imports => "an array"
  | .parameters => "an object"
  | .services => "an object"

/-- Whether a value is a container of the shape that a part must hold. -/
def accepts : DocumentPart → Json → Bool
  | .imports, .array _ => true
  | .parameters, .object _ => true
  | .services, .object _ => true
  | _, _ => false

end DocumentPart

end ServiceGraph
