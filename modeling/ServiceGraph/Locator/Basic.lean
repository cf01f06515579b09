import ServiceGraph.Failure

/-!
# Locators

A `Locator` finds the file that a resource names and reads it. The path that it finds is
canonical, so a file reached in two ways has one path. `localPath` tells which resources name
local files at all.
-/

set_option autoImplicit false

namespace ServiceGraph

/-- A way to find and read resources. -/
structure Locator (m : Type → Type) where
  /-- The canonical path of a resource, looked for from a directory or, when there is none, from
  where the locator starts by itself. -/
  locate : String → Option Path → m (Except Failure Path)
  /-- The text of a file. -/
  read : Path → m (Except Failure String)

/-- What follows the first `://` of a text and what stands before it. -/
def splitScheme? : List Char → Option (List Char × List Char)
  | [] => none
  | ':' :: '/' :: '/' :: rest => some ([], rest)
  | c :: rest => (splitScheme? rest).map fun r => (c :: r.1, r.2)

/-- Whether a character can stand in the name of a scheme. -/
def isSchemeChar (c : Char) : Bool := c.isAlphanum || c ∈ ['+', '-', '.']

/-- The path of a resource that names a local file: what follows `file://`, or the resource itself
when no scheme stands in front. -/
def localPath (resource : String) : Except Failure Path :=
  match splitScheme? resource.toList with
  | none => .ok ⟨resource⟩
  | some (scheme, rest) =>
    if scheme = ['f', 'i', 'l', 'e'] then .ok ⟨String.ofList rest⟩
    else if !scheme.isEmpty && scheme.all isSchemeChar then .error (.notLocal resource)
    else .ok ⟨resource⟩

end ServiceGraph
