import ServiceGraph.Json.Token

/-!
# Reading JSON texts

`Json.readWritten` reads a text as it is written, repeated keys included; `Json.read` then leaves
each key once. The reader keeps the arrays and objects that are open on a stack of frames, and
each token either completes a value or opens one. At most 127 arrays and objects are open at a
time.
-/

set_option autoImplicit false

namespace ServiceGraph.Json

/-- An array or object that is still open, with what has been read of it, latest first. -/
inductive Frame where
  | items (read : List Json)
  /-- An object waiting for the value of `key`. -/
  | members (read : List (String × Json)) (key : String)

/-- The greatest number of arrays and objects that may be open at a time. -/
def maxNesting : Nat := 127

mutual

/-- Reads the tokens from a place where a value must start. -/
def readValue (frames : List Frame) : List Token → Except SyntaxError Json
  | [] => .error .unexpectedEnd
  | .text s :: rest => readNext frames (.string s) rest
  | .literal value :: rest => readNext frames value rest
  | .openArray :: rest =>
    if maxNesting ≤ frames.length then .error .nestedTooDeep
    else
      match rest with
      | .closeArray :: rest => readNext frames (.array []) rest
      | rest => readValue (.items [] :: frames) rest
  | .openObject :: rest =>
    if maxNesting ≤ frames.length then .error .nestedTooDeep
    else
      match rest with
      | .closeObject :: rest => readNext frames (.object []) rest
      | .text key :: .colon :: rest => readValue (.members [] key :: frames) rest
      | _ => .error .unexpectedToken
  | _ :: _ => .error .unexpectedToken

/-- Reads the tokens that follow the complete value `value`. -/
def readNext (frames : List Frame) (value : Json) : List Token → Except SyntaxError Json
  | [] =>
    match frames with
    | [] => .ok value
    | _ :: _ => .error .unexpectedEnd
  | token :: rest =>
    match frames, token with
    | .items read :: outer, .comma => readValue (.items (value :: read) :: outer) rest
    | .items read :: outer, .closeArray =>
      readNext outer (.array (value :: read).reverse) rest
    | .members read key :: outer, .comma =>
      match rest with
      | .text next :: .colon :: rest =>
        readValue (.members ((key, value) :: read) next :: outer) rest
      | _ => .error .unexpectedToken
    | .members read key :: outer, .closeObject =>
      readNext outer (.object ((key, value) :: read).reverse) rest
    | _, _ => .error .unexpectedToken

end

/-- Reads a text, keeping repeated keys. -/
def readWritten (s : String) : Except SyntaxError Json := do
  let tokens ← scan s.toList
  readValue [] tokens

/-- Reads a text; a repeated key keeps its first place and takes its last value. -/
def read (s : String) : Except SyntaxError Json := (readWritten s).map mergeMembers

/-- What is read repeats no key. -/
theorem distinctKeys_of_read {s : String} {value : Json} (h : read s = .ok value) :
    DistinctKeys value := by
  unfold read at h
  cases hw : readWritten s with
  | error e => simp [hw, Except.map] at h
  | ok written =>
    simp only [hw, Except.map, Except.ok.injEq] at h
    subst h
    exact distinctKeys_mergeMembers written

end ServiceGraph.Json
