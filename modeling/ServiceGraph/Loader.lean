import ServiceGraph.Document.Basic
import ServiceGraph.Extension
import ServiceGraph.Graph.Basic
import ServiceGraph.Locator.Basic

/-!
# Loading documents

`Loader.load` merges a document and everything it imports into the graph of a `Session`. A
document checks its parts first, then loads its imports in order, and then adds its parameters,
its extension blocks and its services. A document on the way to itself is a cycle, one that was
loaded before is skipped, and imports nest at most `Loader.maxDepth` deep.

The loader recurses on the room left for nesting. What a failed load has merged stays in the
session, and its documents count as loaded.
-/

set_option autoImplicit false

namespace ServiceGraph

/-- The graph under construction and the bookkeeping of a run of loads. -/
structure Session where
  /-- The documents being loaded, innermost first. -/
  inProgress : List Path := []
  /-- The documents that were loaded, latest first. -/
  loaded : List Path := []
  graph : Graph := {}
  deriving Inhabited

namespace Session

/-- A document starts to load. -/
def enter (s : Session) (path : Path) : Session := { s with inProgress := path :: s.inProgress }

/-- A document counts as loaded from here on. -/
def markLoaded (s : Session) (path : Path) : Session :=
  { s with loaded := if path ∈ s.loaded then s.loaded else path :: s.loaded }

/-- The innermost document is done. -/
def leave (s : Session) (path : Path) : Session :=
  { s with inProgress := s.inProgress.tail }.markLoaded path

/-- The number of documents that were loaded. -/
def loadedCount (s : Session) : Nat := s.loaded.length

end Session

/-- A computation that changes a session and may fail; what it changed before it failed stays. -/
abbrev Loading (m : Type → Type) := ExceptT Failure (StateT Session m)

/-- One entry of the imports of a document. -/
structure Import where
  resource : String
  /-- Whether a resource that cannot be found or read is left out. -/
  ignoreErrors : Bool
  deriving DecidableEq, Repr, Inhabited

namespace Import

/-- Reads an entry of the imports. -/
def read (file : String) : Json → Except Failure Import
  | .object members =>
    match Json.member? "resource" members with
    | some (.string resource) =>
      match Json.member? "ignore_errors" members with
      | none => .ok ⟨resource, false⟩
      | some .null => .ok ⟨resource, false⟩
      | some (.bool b) => .ok ⟨resource, b⟩
      | some _ => .error (.invalidImport file .ignoreErrorsNotBoolean)
    | _ => .error (.invalidImport file .withoutResource)
  | _ => .error (.invalidImport file .notObject)

end Import

namespace Graph

/-- A graph with the parameters of a document. -/
def addParameters (g : Graph) (parameters : List (String × Json)) : Graph :=
  parameters.foldl (fun g p => g.setParameter p.1 (Value.ofJson p.2)) g

/-- A graph with the extension blocks of a document. -/
def addBlocks (g : Graph) (blocks : List (String × Json)) : Graph :=
  blocks.foldl (fun g b => g.addBlock b.1 (Document.block b.2)) g

/-- Adds the services of a document one by one; an id that is taken is a failure. -/
def addServices (file : String) : List (String × Json) → Building Unit
  | [] => pure ()
  | (id, value) :: rest => do
    if (← get).has id then throw (.duplicateId id file)
    let entry ← liftExcept (Entry.read ⟨id, file⟩ value)
    modify fun g => g.setEntry id entry
    addServices file rest

end Graph

/-- Loads documents. -/
structure Loader (m : Type → Type) where
  locator : Locator m
  extensions : ExtensionRegistry := .empty
  /-- How deep imports may nest. -/
  maxDepth : Nat := 32

namespace Loader

variable {m : Type → Type} [Monad m]

/-- A result of the locator as a step of loading. -/
def ask {α : Type} (x : m (Except Failure α)) : Loading m α := ExceptT.mk (StateT.lift x)

/-- A change of the graph as a step of loading. -/
def build {α : Type} (x : Building α) : Loading m α :=
  ExceptT.mk fun s =>
    let (outcome, graph) := x.runOn s.graph
    pure (outcome, { s with graph })

/-- The outcome of a step that may fail, as a value. -/
def attempt {α : Type} (x : Loading m α) : Loading m (Except Failure α) :=
  ExceptT.mk (Except.ok <$> x.run)

/-- Refuses a document that writes under a name without extension. -/
def checkExtensions (registry : ExtensionRegistry) (d : Document) : Except Failure Unit :=
  d.extensions.forM fun part =>
    if registry.has part.1 then .ok () else .error (.unknownExtension part.1 d.file registry.names)

/-- Loads the imports of a document in order, each by `load`. -/
def loadImports (load : String → Loading m Unit) (file : String) : List Json → Loading m Unit
  | [] => pure ()
  | value :: rest => do
    let entry ← liftExcept (Import.read file value)
    match ← attempt (load entry.resource) with
    | .ok () => pure ()
    | .error e => if entry.ignoreErrors && e.kind = .imports then pure () else throw e
    loadImports load file rest

/-- Merges a document, its imports loaded by `load`. -/
def mergeDocument (l : Loader m) (load : String → Loading m Unit) (d : Document) :
    Loading m Unit := do
  liftExcept d.checkParts
  liftExcept (checkExtensions l.extensions d)
  loadImports load d.file d.imports
  build (modify fun g => (g.addParameters d.parameters).addBlocks d.extensions)
  build (Graph.addServices d.file d.services)

/-- The path of a resource, which must not be one of the documents being loaded. -/
def locateNew (l : Loader m) (resource : String) (dir : Option Path) : Loading m Path := do
  let path ← ask (l.locator.locate resource dir)
  let inProgress := (← get).inProgress
  if path ∈ inProgress then throw (.importCycle (path :: inProgress).reverse)
  return path

/-- Loads a resource with room for `room` more documents in progress. -/
def loadWithin (l : Loader m) : Nat → String → Option Path → Loading m Unit
  | 0, resource, dir => do
    let _ ← l.locateNew resource dir
    throw (.importDepthExceeded resource l.maxDepth)
  | room + 1, resource, dir => do
    let path ← l.locateNew resource dir
    if path ∈ (← get).loaded then return
    let text ← ask (l.locator.read path)
    modify fun s => { s with graph := s.graph.addResource path }
    match ← liftExcept (Document.parse text path.text) with
    | none => modify fun s => s.markLoaded path
    | some d =>
      modify fun s => s.enter path
      let outcome ← attempt
        (l.mergeDocument (fun resource => loadWithin l room resource path.parent?) d)
      modify fun s => s.leave path
      liftExcept outcome

/-- Loads a resource and everything it imports. A relative resource is taken from `dir`, or from
where the locator starts by itself when there is none. -/
def load (l : Loader m) (resource : String) (dir : Option Path) : Loading m Unit := do
  l.loadWithin (l.maxDepth - (← get).inProgress.length) resource dir

/-- Loads several resources in order. -/
def loadAll (l : Loader m) : List String → Loading m Unit
  | [] => pure ()
  | resource :: rest => do
    l.load resource none
    l.loadAll rest

end Loader

end ServiceGraph
