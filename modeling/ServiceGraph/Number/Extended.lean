import ServiceGraph.Number.Digits
import ServiceGraph.Number.Shortest
import ServiceGraph.Text.Case

/-!
# Binary64 numbers with infinities

An `Extended` is a finite binary64 number, one of the two infinities, or no number. It is what a
decimal text denotes when nothing is out of range (`Extended.read?`): the value is the number
nearest to the text, and an infinity past the range.
-/

set_option autoImplicit false

namespace ServiceGraph

/-- A binary64 number, an infinity, or no number. -/
inductive Extended where
  | finite (value : Binary64)
  | infinite (negative : Bool)
  | notNumber
  deriving DecidableEq, Repr, Inhabited

namespace Extended

/-- Decimals with this many more digits on either side of the point than written are out of range,
or too small to differ from zero. -/
def reach : Int := 400

/-- The number nearest to `coefficient · 10 ^ scale`. -/
def ofDecimal (coefficient : Nat) (scale : Int) : Extended :=
  let place := ((toString coefficient).length : Int) + scale
  if coefficient = 0 ∨ place < -reach then .finite .zero
  else
    let nearest? :=
      if reach < place then none
      else if 0 ≤ scale then Binary64.nearest? (coefficient * Nat.pow 10 scale.toNat) 1
      else Binary64.nearest? coefficient (Nat.pow 10 (-scale).toNat)
    match nearest? with
    | some x => .finite x
    | none => .infinite false

/-- The number with the other sign. -/
def negate : Extended → Extended
  | .finite x => .finite x.negate
  | .infinite negative => .infinite !negative
  | .notNumber => .notNumber

/-- The magnitude written in a text: digits with at most one point among or beside them, then
perhaps an exponent; or a name. -/
def readMagnitude? (s : List Char) : Option Extended :=
  let name := Text.lowerCase (String.ofList s)
  if name = "inf" ∨ name = "infinity" then some (.infinite false)
  else if name = "nan" then some .notNumber
  else
    let (whole, rest) := Digits.split s
    let (fraction, rest) :=
      match rest with
      | '.' :: rest => Digits.split rest
      | rest => ([], rest)
    if whole.isEmpty && fraction.isEmpty then none
    else
      (Digits.splitExponent? rest).map fun exponent =>
        ofDecimal (Digits.value (whole ++ fraction))
          (Digits.exponentValue exponent - fraction.length)

/-- The number written in a text, a sign in front of it or not. -/
def read? : List Char → Option Extended
  | '+' :: rest => readMagnitude? rest
  | '-' :: rest => (readMagnitude? rest).map negate
  | rest => readMagnitude? rest

/-- A number as plain text. -/
def text : Extended → String
  | .finite x => DecimalLayout.plain.write x
  | .infinite negative => if negative then "-inf" else "inf"
  | .notNumber => "NaN"

/-- Whether the number differs from zero. -/
def isNonzero : Extended → Bool
  | .finite x => !x.isZero
  | .infinite _ => true
  | .notNumber => true

/-- The natural number up to `greatest` that is nearest, a half going up; below zero it is zero,
and so it is when there is no number. -/
def toNat (greatest : Nat) : Extended → Nat
  | .finite x =>
    if x.negative then 0
    else min greatest ((2 * x.units + Binary64.unitsInOne) / (2 * Binary64.unitsInOne))
  | .infinite negative => if negative then 0 else greatest
  | .notNumber => 0

end Extended

end ServiceGraph
