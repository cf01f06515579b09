import ServiceGraph.Value

/-!
# Service definitions

A `Definition` says how one service is made, an `Alias` gives a service a second id. A flag that
was never set differs from one set to its default: only an unset flag can come from a parent.
`Definition.inherit` lays a child over its parent.
-/

set_option autoImplicit false

namespace ServiceGraph

/-- What a factory or a configurator calls. -/
inductive Callable where
  /-- A function, or a static method of a class. -/
  | function (name : String)
  /-- A method of a service or of a class. -/
  | method (target : Value) (name : String)
  deriving Repr, Inhabited

/-- A method called on the instance after construction. -/
structure MethodCall where
  method : String
  arguments : List Value
  deriving Repr, Inhabited

/-- A mark on a definition, with attributes. -/
structure Tag where
  name : String
  attributes : OrderedMap String Scalar
  deriving Inhabited

namespace Tag

/-- The value of an attribute that is there and not null. -/
def attribute? (t : Tag) (key : String) : Option Scalar :=
  match t.attributes.get? key with
  | none => none
  | some value => if value.isNull then none else some value

end Tag

/-- The service that a definition takes the place of. -/
structure Decoration where
  id : String
  /-- The id that keeps the decorated service reachable. -/
  innerName : Option String
  priority : Integer64.Signed
  deriving DecidableEq, Repr, Inhabited

/-- The mark of a deprecated service. -/
structure Deprecation where
  message : Option String
  deriving DecidableEq, Repr, Inhabited

/-- How one service is made. -/
structure Definition where
  parent : Option String := none
  className : Option String := none
  sharedFlag : Option Bool := none
  lazyFlag : Option Bool := none
  publicFlag : Option Bool := none
  abstractFlag : Option Bool := none
  syntheticFlag : Option Bool := none
  autowireFlag : Option Bool := none
  factory : Option Callable := none
  configurator : Option Callable := none
  file : Option String := none
  arguments : List Value := []
  properties : OrderedMap String Value := ∅
  calls : List MethodCall := []
  tags : List Tag := []
  decoration : Option Decoration := none
  deprecation : Option Deprecation := none
  autowiringTypes : List String := []
  deriving Inhabited

namespace Definition

/-- Whether one instance serves everyone; true unless set. -/
def isShared (d : Definition) : Bool := d.sharedFlag.getD true

/-- Whether the host may ask for the service; true unless set. -/
def isPublic (d : Definition) : Bool := d.publicFlag.getD true

/-- Whether the service is made on first use; false unless set. -/
def isLazy (d : Definition) : Bool := d.lazyFlag.getD false

/-- Whether the definition is only a parent for others; false unless set. -/
def isAbstract (d : Definition) : Bool := d.abstractFlag.getD false

/-- Whether the host supplies the instance; false unless set. -/
def isSynthetic (d : Definition) : Bool := d.syntheticFlag.getD false

/-- Whether missing arguments are found by type; false unless set. -/
def isAutowired (d : Definition) : Bool := d.autowireFlag.getD false

/-- The tags of one name, in written order. -/
def tagsNamed (d : Definition) (name : String) : List Tag := d.tags.filter fun t => t.name = name

/-- Whether a definition has a tag. -/
def hasTag (d : Definition) (name : String) : Bool := d.tags.any fun t => t.name = name

/-- A definition with one more method call, made last. -/
def addCall (d : Definition) (call : MethodCall) : Definition :=
  { d with calls := d.calls ++ [call] }

/-- A child laid over a parent that has no parent itself. Arguments and calls of the parent come
first, properties of the child replace those of the parent, and what the child leaves unset comes
from the parent; tags, decoration, autowiring types and the flags shared, abstract and synthetic
are the child's own. -/
def inherit (child parent : Definition) : Definition where
  parent := none
  className := child.className <|> parent.className
  sharedFlag := child.sharedFlag
  lazyFlag := child.lazyFlag <|> parent.lazyFlag
  publicFlag := child.publicFlag <|> parent.publicFlag
  abstractFlag := child.abstractFlag
  syntheticFlag := child.syntheticFlag
  autowireFlag := child.autowireFlag <|> parent.autowireFlag
  factory := child.factory <|> parent.factory
  configurator := child.configurator <|> parent.configurator
  file := child.file <|> parent.file
  arguments := parent.arguments ++ child.arguments
  properties := parent.properties.insertMany child.properties.entries
  calls := parent.calls ++ child.calls
  tags := child.tags
  decoration := child.decoration
  deprecation := child.deprecation <|> parent.deprecation
  autowiringTypes := child.autowiringTypes

end Definition

/-- A second id for a service. -/
structure Alias where
  target : String
  isPublic : Bool
  deriving DecidableEq, Repr, Inhabited

end ServiceGraph
