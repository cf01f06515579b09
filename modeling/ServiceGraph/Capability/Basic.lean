import ServiceGraph.OrderedMap
import ServiceGraph.Text.Blank

/-!
# Capabilities of classes

A class takes part in dispatching only in the roles that it is recorded for. A
`CapabilityRegistry` records the capabilities of classes; a leading backslash of a class name says
nothing, so a class has one descriptor for both spellings (`CapabilityRegistry.register`).
-/

set_option autoImplicit false

namespace ServiceGraph

/-- A dispatch role that a class can play. -/
inductive Capability where
  | commandHandler
  | queryHandler
  | eventSubscriber
  deriving DecidableEq, Repr, Inhabited

namespace Capability

/-- Every capability, in the order they are listed. -/
def all : List Capability := [.commandHandler, .queryHandler, .eventSubscriber]

/-- The name of a capability. -/
def name : Capability → String
  | .commandHandler => "command_handler"
  | .queryHandler => "query_handler"
  | .eventSubscriber => "event_subscriber"

/-- What a service with the capability is called in messages. -/
def role : Capability → String
  | .commandHandler => "command handler"
  | .queryHandler => "query handler"
  | .eventSubscriber => "event subscriber"

/-- The capability of a name; blanks around it and the case of ASCII letters say nothing. -/
def ofName? (s : String) : Option Capability :=
  let wanted := (Text.trim s).toList.map Char.toLower
  all.find? fun c => c.name.toList = wanted

end Capability

/-- A class and the capabilities it is recorded for, without repetition. -/
structure ClassDescriptor where
  className : String
  capabilities : List Capability
  deriving DecidableEq, Repr, Inhabited

namespace ClassDescriptor

/-- Capabilities with one more at the end, unless it is there. -/
def addCapability (l : List Capability) (c : Capability) : List Capability :=
  if c ∈ l then l else l ++ [c]

/-- A descriptor with one more capability. -/
def add (d : ClassDescriptor) (c : Capability) : ClassDescriptor :=
  { d with capabilities := addCapability d.capabilities c }

/-- A class with a list of capabilities. -/
def ofList (className : String) (l : List Capability) : ClassDescriptor :=
  l.foldl add ⟨className, []⟩

/-- Whether the class has a capability. -/
def implements (d : ClassDescriptor) (c : Capability) : Bool := c ∈ d.capabilities

end ClassDescriptor

/-- The descriptors of classes, by class name without a leading backslash. -/
structure CapabilityRegistry where
  classes : OrderedMap String ClassDescriptor
  deriving Inhabited

namespace CapabilityRegistry

/-- A class name without one leading backslash. -/
def normalize (className : String) : String :=
  match className.toList with
  | '\\' :: rest => String.ofList rest
  | _ => className

/-- The registry without classes. -/
def empty : CapabilityRegistry := ⟨∅⟩

/-- Records a descriptor. A class that is recorded already keeps its spelling and gains the
capabilities it lacks. -/
def register (r : CapabilityRegistry) (d : ClassDescriptor) : CapabilityRegistry :=
  let key := normalize d.className
  match r.classes.get? key with
  | none => ⟨r.classes.insert key d⟩
  | some known => ⟨r.classes.insert key (d.capabilities.foldl ClassDescriptor.add known)⟩

/-- The descriptor of a class. -/
def descriptor? (r : CapabilityRegistry) (className : String) : Option ClassDescriptor :=
  r.classes.get? (normalize className)

/-- Whether a class is recorded for a capability. -/
def implements (r : CapabilityRegistry) (className : String) (c : Capability) : Bool :=
  match r.descriptor? className with
  | none => false
  | some d => d.implements c

/-- The number of classes. -/
def size (r : CapabilityRegistry) : Nat := r.classes.size

/-- Whether no class is recorded. -/
def isEmpty (r : CapabilityRegistry) : Bool := r.classes.isEmpty

/-- The descriptors, in the order their classes were first recorded. -/
def descriptors (r : CapabilityRegistry) : List ClassDescriptor :=
  r.classes.entries.map Prod.snd

end CapabilityRegistry

end ServiceGraph
