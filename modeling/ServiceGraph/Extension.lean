import ServiceGraph.Graph.Basic
import ServiceGraph.Text.Quoted

/-!
# Extensions

An `Extension` consumes the configuration blocks that documents write under its name. A name can
be registered once (`ExtensionRegistry.register`); processing runs every extension that received
a block, in registration order. The extension `Extension.parameters` turns the members of its
blocks into parameters.
-/

set_option autoImplicit false

namespace ServiceGraph

/-- A consumer of the blocks written under one name. -/
structure Extension where
  name : String
  /-- Consumes all blocks at once, in load order. -/
  load : List Block → Building Unit

namespace Extension

/-- Sets the parameter `name.key` for each member of a block. -/
def setParameters (name : String) (g : Graph) (block : Block) : Graph :=
  block.foldl (fun g member => g.setParameter (name ++ "." ++ member.1) (Value.ofJson member.2)) g

/-- The extension that turns each member `key` of its blocks into the parameter `name.key`. -/
def parameters (name : String) : Extension where
  name := name
  load blocks := modify fun g => blocks.foldl (setParameters name) g

end Extension

/-- The registered extensions by name, in registration order. -/
structure ExtensionRegistry where
  extensions : OrderedMap String Extension

namespace ExtensionRegistry

/-- The registry without extensions. -/
def empty : ExtensionRegistry := ⟨∅⟩

instance : Inhabited ExtensionRegistry := ⟨empty⟩

/-- Whether a name is registered. -/
def has (r : ExtensionRegistry) (name : String) : Bool := r.extensions.contains name

/-- The registered names, in registration order. -/
def names (r : ExtensionRegistry) : List String := r.extensions.keys

/-- The number of extensions. -/
def size (r : ExtensionRegistry) : Nat := r.extensions.size

/-- Whether there is no extension. -/
def isEmpty (r : ExtensionRegistry) : Bool := r.extensions.isEmpty

/-- The registered names, for a log. -/
def describe (r : ExtensionRegistry) : String := Text.quotedList r.names

/-- Registers an extension under its name, which must be free. -/
def register (r : ExtensionRegistry) (e : Extension) : Except Failure ExtensionRegistry :=
  if r.has e.name then .error (.duplicateExtension e.name)
  else .ok ⟨r.extensions.insert e.name e⟩

/-- Runs the extensions of a list that have blocks; the result is how many ran. -/
def processAll : List Extension → Building Nat
  | [] => pure 0
  | e :: rest => do
    let blocks := (← get).blocksOf e.name
    if blocks.isEmpty then processAll rest
    else do
      e.load blocks
      return (← processAll rest) + 1

/-- Runs every extension that has blocks; the result is how many ran. -/
def process (r : ExtensionRegistry) : Building Nat :=
  processAll (r.extensions.entries.map Prod.snd)

end ExtensionRegistry

end ServiceGraph
