import ServiceGraph.Capability.Basic
import ServiceGraph.Disk.Basic
import ServiceGraph.Failure
import ServiceGraph.Json.Reader

/-!
# Capability manifests

A manifest lists classes with the names of their capabilities. It is a JSON object whose only
member may be `classes`, written once, or an array holding at most the value of that member. A
class listed twice keeps its first place and its last list.
-/

set_option autoImplicit false

namespace ServiceGraph

/-- The capability names listed for each class. -/
structure Manifest where
  classes : OrderedMap String (List String)
  deriving Inhabited

namespace Manifest

/-- The texts of an array of texts. -/
def names? : Json → Option (List String)
  | .array items =>
    items.mapM fun item =>
      match item with
      | .string s => some s
      | _ => none
  | _ => none

/-- The lists of an object of classes. -/
def classes? : Json → Option (OrderedMap String (List String))
  | .object members =>
    (members.mapM fun member => (names? member.2).map fun names => (member.1, names)).map
      OrderedMap.ofList
  | _ => none

/-- The manifest in a JSON value as it is written. -/
def ofJson? : Json → Option Manifest
  | .object [] => some ⟨∅⟩
  | .object [(key, value)] => if key = "classes" then (classes? value).map Manifest.mk else none
  | .array [] => some ⟨∅⟩
  | .array [value] => (classes? value).map Manifest.mk
  | _ => none

/-- Reads the text of a manifest. -/
def parse (text source : String) : Except Failure Manifest :=
  match Json.readWritten text with
  | .error e => .error (.malformedManifest source e.message)
  | .ok value =>
    match ofJson? value with
    | none => .error (.malformedManifest source "it is not a list of classes")
    | some manifest => .ok manifest

/-- The capability of a listed name. -/
def readCapability (name : String) : Except Failure Capability :=
  match Capability.ofName? name with
  | some c => .ok c
  | none => .error (.unknownCapability name)

/-- The descriptor of a class with listed names. -/
def descriptor (className : String) (names : List String) : Except Failure ClassDescriptor :=
  (names.mapM readCapability).map (ClassDescriptor.ofList className)

/-- The registry of the listed classes. -/
def registry (m : Manifest) : Except Failure CapabilityRegistry := do
  let descriptors ← m.classes.entries.mapM fun e => descriptor e.1 e.2
  return descriptors.foldl CapabilityRegistry.register .empty

end Manifest

namespace CapabilityRegistry

/-- The registry written in the text of a manifest; `source` names the text in failures. -/
def ofManifestText (text source : String) : Except Failure CapabilityRegistry := do
  let manifest ← Manifest.parse text source
  manifest.registry

/-- The registry written in a manifest file. -/
def ofManifestFile {m : Type → Type} [Monad m] (disk : Disk m) (p : Path) :
    m (Except Failure CapabilityRegistry) := do
  match ← disk.readText p with
  | .error e => return .error (.unreadableManifest p e.message)
  | .ok text => return ofManifestText text p.text

end CapabilityRegistry

end ServiceGraph
