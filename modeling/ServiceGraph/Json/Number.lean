import ServiceGraph.Json.Basic
import ServiceGraph.Number.Digits

/-!
# Numbers in JSON texts

A number text is split by the grammar (`NumberText.split?`) and then evaluated
(`NumberText.value?`). An integer that fits is exact. Any other number has a significand, the
longest run of leading digits below `2 ^ 64`; a digit left out of the whole part raises the
exponent, one left out of the fraction vanishes. The significand is rounded to binary64, then
multiplied or divided by a power of ten, rounding again (`Binary64.scaleTen?`).
-/

set_option autoImplicit false

namespace ServiceGraph

namespace Binary64

/-- The number nearest to `10 ^ e`. -/
def powerOfTen (e : Nat) : Binary64 := ofNat (Nat.pow 10 e)

/-- The exponent of the largest power of ten in range. -/
def largestPower : Nat := 308

/-- The magnitude of `x` divided `count` times by `step`; a zero stays zero. -/
def divideBy? (step : Binary64) : Nat → Binary64 → Option Binary64
  | 0, x => some x
  | count + 1, x => if x.isZero then some x else (x.div? step).bind (divideBy? step count)

/-- The magnitude of `x` divided by `10 ^ e`: first by the largest power of ten until the rest of
the exponent is in range, then by the rest. -/
def shrinkTen? (x : Binary64) (e : Nat) : Option Binary64 :=
  let steps := (e - 1) / largestPower
  (divideBy? (powerOfTen largestPower) steps x).bind fun y =>
    y.div? (powerOfTen (e - steps * largestPower))

/-- The magnitude of `x` times `10 ^ e`, or `none` when it leaves the range. -/
def scaleTen? (x : Binary64) (e : Int) : Option Binary64 :=
  if e < 0 then x.shrinkTen? e.natAbs
  else if e ≤ largestPower then x.mul? (powerOfTen e.toNat)
  else if x.isZero then some x
  else none

end Binary64

namespace Json

/-- The parts of a number text. -/
structure NumberText where
  negative : Bool
  /-- The digits before the decimal point. -/
  whole : List Nat
  /-- The digits after the decimal point, if there is one. -/
  fraction : Option (List Nat)
  /-- The exponent, if there is one. -/
  exponent : Option Digits.Exponent
  deriving Repr

namespace NumberText

/-- The parts of a text that is a number by the grammar: no leading zero before another digit, and
digits on both sides of a decimal point. -/
def split? (s : List Char) : Option NumberText :=
  let (negative, s) :=
    match s with
    | '-' :: r => (true, r)
    | r => (false, r)
  match Digits.split s with
  | ([], _) => none
  | (0 :: _ :: _, _) => none
  | (whole, '.' :: rest) =>
    match Digits.split rest with
    | ([], _) => none
    | (fraction, rest) =>
      (Digits.splitExponent? rest).map fun exponent => ⟨negative, whole, some fraction, exponent⟩
  | (whole, rest) =>
    (Digits.splitExponent? rest).map fun exponent => ⟨negative, whole, none, exponent⟩

/-- Appends digits to a significand while it stays below `2 ^ 64`; the second part is the digits
left out. -/
def extend (significand : Nat) : List Nat → Nat × List Nat
  | [] => (significand, [])
  | d :: rest =>
    if Integer64.FitsUnsigned (significand * 10 + d) then extend (significand * 10 + d) rest
    else (significand, d :: rest)

/-- The value of a number text, or `none` when its magnitude is out of range. -/
def value? (t : NumberText) : Option Number :=
  let (significand, dropped) := extend 0 t.whole
  match t.fraction, t.exponent, dropped with
  | none, none, [] =>
    if t.negative then
      if significand = 0 then some (.float Binary64.zero.negate)
      else some (.integer (-significand))
    else some (.integer significand)
  | fraction, exponent, dropped =>
    let digits := fraction.getD []
    let (significand, leftOut) := extend significand digits
    let places : Int := (dropped.length : Int) - ((digits.length - leftOut.length : Nat) : Int)
    let places := places + Digits.exponentValue exponent
    let magnitude? := (Binary64.ofNat significand).scaleTen? places
    magnitude?.map fun x => .float (if t.negative then x.negate else x)

end NumberText

end Json

end ServiceGraph
