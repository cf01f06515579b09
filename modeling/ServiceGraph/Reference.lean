/-!
# References

A text that starts with `@` refers to something: `@id` to a service that must exist, `@?id` to one
that may be missing, `@=source` to an expression that the host evaluates, and `@@text` to the
literal text `@text`. A final `=` is dropped; on a service reference it makes the reference
non-strict.

`Reference.read?` reads a text and `Reference.render` writes a reference.
-/

set_option autoImplicit false

namespace ServiceGraph

/-- A text read as a reference. -/
inductive Reference where
  /-- A service that must exist. -/
  | required (id : String) (strict : Bool)
  /-- A service that is null when it is missing. -/
  | optional (id : String) (strict : Bool)
  /-- An expression for the host. -/
  | expression (source : String)
  /-- A text that starts with `@`, used as it stands. -/
  | literal (value : String)
  deriving DecidableEq, Repr, Inhabited

namespace Reference

/-- A text without a final `=`, and whether it had none. -/
def splitMark (s : List Char) : List Char × Bool :=
  if s.getLast? = some '=' then (s.dropLast, false) else (s, true)

/-- The reference written in a text, if the text starts with `@`. -/
def readChars? : List Char → Option Reference
  | '@' :: '=' :: source => some (.expression (String.ofList source))
  | '@' :: '@' :: rest => some (.literal (String.ofList ('@' :: (splitMark rest).1)))
  | '@' :: '?' :: rest => some (.optional (String.ofList (splitMark rest).1) (splitMark rest).2)
  | '@' :: rest => some (.required (String.ofList (splitMark rest).1) (splitMark rest).2)
  | _ => none

/-- The reference written in a text, if the text starts with `@`. -/
def read? (s : String) : Option Reference := readChars? s.toList

/-- The mark of a non-strict reference. -/
def mark (strict : Bool) : String := if strict then "" else "="

/-- The text of a reference. -/
def render : Reference → String
  | .required id strict => "@" ++ id ++ mark strict
  | .optional id strict => "@?" ++ id ++ mark strict
  | .expression source => "@=" ++ source
  | .literal value => "@" ++ value

/-- Whether a reference is to a service and strict. -/
def isStrict : Reference → Bool
  | .required _ strict => strict
  | .optional _ strict => strict
  | _ => false

/-- A service reference made non-strict; expressions and literals have no strictness. -/
def nonStrict : Reference → Reference
  | .required id _ => .required id false
  | .optional id _ => .optional id false
  | other => other

end Reference

end ServiceGraph
