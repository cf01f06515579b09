import ServiceGraph.Graph.Inheritance
import ServiceGraph.Loader
import ServiceGraph.Wiring

/-!
# Compilation

A `Compiler` turns entry documents into a compiled graph: it loads the documents and what they
import, runs the extensions, flattens inheritance and wires tagged definitions. A failure at any
stage leaves nothing but the failure.
-/

set_option autoImplicit false

namespace ServiceGraph

/-- The settings of a compilation. -/
structure Compiler (m : Type → Type) where
  loader : Loader m
  wiring : Wiring := {}

namespace Compiler

variable {m : Type → Type} [Monad m]

/-- What follows the loading of documents. -/
def finish (extensions : ExtensionRegistry) (wiring : Wiring) : Building CompiledGraph := do
  let _ ← extensions.process
  let _ ← Graph.flattenInheritance
  let _ ← wiring.process
  return (← get).freeze

/-- Compiles entry documents into one graph, in order. -/
def compile (c : Compiler m) (entries : List String) : m (Except Failure CompiledGraph) := do
  let (outcome, session) ← (c.loader.loadAll entries).run.run {}
  match outcome with
  | .error e => return .error e
  | .ok () => return ((finish c.loader.extensions c.wiring).runOn session.graph).1

end Compiler

end ServiceGraph
