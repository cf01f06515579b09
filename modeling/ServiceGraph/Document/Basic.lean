import ServiceGraph.Failure
import ServiceGraph.Json.Reader
import ServiceGraph.Text.Blank

/-!
# Documents

A `Document` is one decoded service file: its top-level parts in written order. A text that is
blank, or just `null`, is no document and no failure either (`Document.parse`).
-/

set_option autoImplicit false

namespace ServiceGraph

/-- A decoded service file. -/
structure Document where
  /-- The name of the file, for messages. -/
  file : String
  /-- The top-level parts in written order. -/
  parts : List (String × Json)
  deriving Repr, Inhabited

namespace Document

/-- Reads the text of a service file; `none` when it is empty. -/
def parse (text file : String) : Except Failure (Option Document) :=
  if Text.isBlankText text then .ok none
  else
    match Json.read text with
    | .error e => .error (.malformedDocument file e.message)
    | .ok .null => .ok none
    | .ok (.object parts) => .ok (some ⟨file, parts⟩)
    | .ok _ => .error (.documentNotObject file)

/-- The value of a reserved part. -/
def part? (d : Document) (part : DocumentPart) : Option Json := Json.member? part.key d.parts

/-- The imports, none when the part is missing. -/
def imports (d : Document) : List Json :=
  match d.part? .imports with
  | some (.array items) => items
  | _ => []

/-- The parameters, none when the part is missing. -/
def parameters (d : Document) : List (String × Json) :=
  match d.part? .parameters with
  | some (.object members) => members
  | _ => []

/-- The service entries, none when the part is missing. -/
def services (d : Document) : List (String × Json) :=
  match d.part? .services with
  | some (.object members) => members
  | _ => []

/-- The parts that belong to extensions, in written order. -/
def extensions (d : Document) : List (String × Json) :=
  d.parts.filter fun part => (DocumentPart.ofKey? part.1).isNone

/-- The configuration block written for an extension; a value that is no object counts as an empty
block. -/
def block : Json → List (String × Json)
  | .object members => members
  | _ => []

/-- Checks that a top-level key, if it is reserved, holds a container of the right shape. -/
def checkPart (key : String) (value : Json) (file : String) : Except Failure Unit :=
  match DocumentPart.ofKey? key with
  | none => .ok ()
  | some part => if part.accepts value then .ok () else .error (.wrongPart part file)

/-- Checks the reserved parts of a document. -/
def checkParts (d : Document) : Except Failure Unit :=
  DocumentPart.all.forM fun part =>
    match d.part? part with
    | none => .ok ()
    | some value => checkPart part.key value d.file

end Document

end ServiceGraph
