import ServiceGraph.Failure
import ServiceGraph.Text.Blank
import ServiceGraph.Value

/-!
# Placeholders

A text may name parameters as `%name%`; `%%` stands for a percent sign, and a percent sign that
opens no placeholder stands for itself. `Placeholder.pieces` cuts a text into its pieces, and
`Placeholder.expand` puts the text of the named parameters in their places. The text of a
parameter is expanded in turn, along a path of names that may not repeat; the number of names off
the path bounds the depth.
-/

set_option autoImplicit false

namespace ServiceGraph

/-- The parameters by name. -/
abbrev Parameters := OrderedMap String Value

namespace Placeholder

/-- A piece of a text: a character, or the name of a parameter. -/
inductive Piece where
  | char (c : Char)
  | parameter (name : String)
  deriving DecidableEq, Repr

/-- Whether characters can be the name of a parameter: there is one, and none is blank. -/
def isName (s : List Char) : Bool := !s.isEmpty && s.all fun c => !Text.isBlank c

/-- The name that an opened placeholder closes on, and what follows it. -/
def closeName? (s : List Char) : Option (List Char × List Char) :=
  match s.dropWhile (· ≠ '%') with
  | [] => none
  | _ :: rest =>
    let name := s.takeWhile (· ≠ '%')
    if isName name then some (name, rest) else none

theorem length_closeName? {s name rest : List Char} (h : closeName? s = some (name, rest)) :
    rest.length < s.length := by
  unfold closeName? at h
  split at h
  · simp at h
  · rename_i c tail hd
    have hle : (s.dropWhile (· ≠ '%')).length ≤ s.length := (List.dropWhile_sublist _).length_le
    rw [hd, List.length_cons] at hle
    dsimp only at h
    split at h
    · simp only [Option.some.injEq, Prod.mk.injEq] at h
      obtain ⟨_, rfl⟩ := h
      omega
    · simp at h

/-- The pieces of a text, read from left to right. -/
def pieces (s : List Char) : List Piece :=
  match s with
  | [] => []
  | '%' :: '%' :: rest => .char '%' :: pieces rest
  | '%' :: rest =>
    match _h : closeName? rest with
    | some (name, rest') => .parameter (String.ofList name) :: pieces rest'
    | none => .char '%' :: pieces rest
  | c :: rest => .char c :: pieces rest
termination_by s.length
decreasing_by
  · simp only [List.length_cons]
    omega
  · have := length_closeName? _h
    simp only [List.length_cons]
    omega
  · simp only [List.length_cons]
    omega
  · simp only [List.length_cons]
    omega

/-- A text with every placeholder replaced, inside the parameters named by `path`. -/
def expandWithin (parameters : Parameters) (path : List String) (s : String) :
    Except Failure String := do
  let texts ← (pieces s.toList).mapM fun piece =>
    match piece with
    | .char c => .ok (String.singleton c)
    | .parameter name =>
      if _hp : name ∈ path then .error (.parameterCycle name)
      else
        match _h : parameters.get? name with
        | none => .error (.unknownParameter name)
        | some (.scalar (.string inner)) => expandWithin parameters (name :: path) inner
        | some (.scalar value) => .ok value.text
        | some value => .error (.structuredParameter name s value.typeName)
  return "".intercalate texts
termination_by parameters.unvisited path
decreasing_by exact OrderedMap.unvisited_cons_lt (OrderedMap.mem_keys_of_get? _h) _hp

/-- A text with every placeholder replaced. -/
def expand (parameters : Parameters) (s : String) : Except Failure String :=
  expandWithin parameters [] s

end Placeholder

end ServiceGraph
