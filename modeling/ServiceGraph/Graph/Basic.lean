import ServiceGraph.Definition
import ServiceGraph.Entry.Basic
import ServiceGraph.Failure
import ServiceGraph.Path
import ServiceGraph.Placeholder

/-!
# The service graph

A `Graph` holds the definitions and aliases under construction, the parameters, the configuration
blocks that wait for extensions, and the documents it was built from. An id is a definition or an
alias: setting one removes the other. Aliases are followed for one step more than there are
aliases, which is enough to leave every chain that ends (`Graph.resolveAlias`).

A `CompiledGraph` is what a finished compilation hands out.
-/

set_option autoImplicit false

namespace ServiceGraph

/-- A configuration block of an extension: the members of an object. -/
abbrev Block := List (String × Json)

/-- The id that `id` leads to along aliases, in at most `steps` steps. -/
def followAliases (aliases : OrderedMap String Alias) : Nat → String → String
  | 0, id => id
  | steps + 1, id =>
    match aliases.get? id with
    | none => id
    | some a => followAliases aliases steps a.target

/-- The definitions that carry a tag, in definition order. -/
def definitionsTagged (definitions : OrderedMap String Definition) (tag : String) :
    List (String × Definition) :=
  definitions.entries.filter fun e => e.2.hasTag tag

/-- The definitions under construction and all that belongs to them. -/
structure Graph where
  parameters : Parameters := ∅
  definitions : OrderedMap String Definition := ∅
  aliases : OrderedMap String Alias := ∅
  /-- The blocks that wait for each extension, in load order. -/
  blocks : OrderedMap String (List Block) := ∅
  /-- The documents that were read, in order. -/
  resources : List Path := []
  deriving Inhabited

namespace Graph

/-- Sets a parameter. -/
def setParameter (g : Graph) (name : String) (value : Value) : Graph :=
  { g with parameters := g.parameters.insert name value }

/-- Whether an id is a definition or an alias. -/
def has (g : Graph) (id : String) : Bool := g.definitions.contains id || g.aliases.contains id

/-- Sets a definition; an alias of the same id goes. -/
def setDefinition (g : Graph) (id : String) (d : Definition) : Graph :=
  { g with aliases := g.aliases.erase id, definitions := g.definitions.insert id d }

/-- Sets an alias; a definition of the same id goes. -/
def setAlias (g : Graph) (id : String) (a : Alias) : Graph :=
  { g with definitions := g.definitions.erase id, aliases := g.aliases.insert id a }

/-- Sets what an entry produces. -/
def setEntry (g : Graph) (id : String) : Entry → Graph
  | .definition d => g.setDefinition id d
  | .aliasing a => g.setAlias id a

/-- The id that `id` finally leads to along aliases. When the aliases form a loop this is an id of
the loop. -/
def resolveAlias (g : Graph) (id : String) : String :=
  followAliases g.aliases (g.aliases.size + 1) id

/-- Adds a method call to the definition that `id` leads to. -/
def addCall (g : Graph) (id : String) (call : MethodCall) : Except Failure Graph :=
  let target := g.resolveAlias id
  if g.definitions.contains target then
    .ok { g with definitions := g.definitions.update target fun d => d.addCall call }
  else .error (.serviceNotFound id)

/-- The definitions that carry a tag, in definition order. -/
def tagged (g : Graph) (tag : String) : List (String × Definition) :=
  definitionsTagged g.definitions tag

/-- Queues a block for an extension. -/
def addBlock (g : Graph) (name : String) (block : Block) : Graph :=
  { g with blocks := g.blocks.insert name ((g.blocks.get? name).getD [] ++ [block]) }

/-- The blocks that wait for an extension. -/
def blocksOf (g : Graph) (name : String) : List Block := (g.blocks.get? name).getD []

/-- Records a document that was read. -/
def addResource (g : Graph) (path : Path) : Graph :=
  { g with resources := g.resources ++ [path] }

end Graph

/-- The outcome of a finished compilation. -/
structure CompiledGraph where
  parameters : Parameters
  definitions : OrderedMap String Definition
  aliases : OrderedMap String Alias
  resources : List Path
  deriving Inhabited

namespace Graph

/-- The graph as a finished compilation hands it out. -/
def freeze (g : Graph) : CompiledGraph :=
  ⟨g.parameters, g.definitions, g.aliases, g.resources⟩

end Graph

namespace CompiledGraph

/-- Whether an id is a definition or an alias. -/
def has (g : CompiledGraph) (id : String) : Bool :=
  g.definitions.contains id || g.aliases.contains id

/-- The definition that `id` leads to along aliases. -/
def get (g : CompiledGraph) (id : String) : Except Failure Definition :=
  match g.definitions.get? (followAliases g.aliases (g.aliases.size + 1) id) with
  | some d => .ok d
  | none => .error (.serviceNotFound id)

/-- The value of a parameter. -/
def parameter? (g : CompiledGraph) (name : String) : Option Value := g.parameters.get? name

/-- The definitions that carry a tag, in definition order. -/
def tagged (g : CompiledGraph) (tag : String) : List (String × Definition) :=
  definitionsTagged g.definitions tag

/-- The number of definitions. -/
def size (g : CompiledGraph) : Nat := g.definitions.size

/-- Whether there is no definition. -/
def isEmpty (g : CompiledGraph) : Bool := g.definitions.isEmpty

end CompiledGraph

/-- A computation that changes a graph and may fail; what it changed before it failed stays. -/
abbrev Building := ExceptT Failure (StateM Graph)

namespace Building

/-- Runs a computation on a graph. -/
def runOn {α : Type} (x : Building α) (g : Graph) : Except Failure α × Graph := StateT.run x.run g

end Building

end ServiceGraph
