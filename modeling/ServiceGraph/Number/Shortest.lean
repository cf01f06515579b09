import ServiceGraph.Number.Binary64

/-!
# Shortest decimal texts

The shortest decimal that reads back as a binary64 number is searched among decimals of 1, 2, …
17 digits (`Binary64.shortest`). For each digit count the two neighbours of the value on that
decimal grid are tested in exact arithmetic against the interval of reals that round to the
value: the first grid with a hit wins, and of two hits the nearer.

A `DecimalLayout` says how the digits become text (`DecimalLayout.write`).
-/

set_option autoImplicit false

namespace ServiceGraph

/-- Which neighbour a value exactly halfway between two decimals goes to. -/
inductive HalfwayRule where
  | even
  | up
  deriving DecidableEq, Repr

/-- The decimal `coefficient · 10 ^ scale`. -/
structure Decimal where
  coefficient : Nat
  scale : Int
  deriving DecidableEq, Repr

namespace Decimal

/-- The same decimal without trailing zeros in the coefficient; `fuel` bounds their number. -/
def strip : Nat → Decimal → Decimal
  | 0, d => d
  | fuel + 1, d =>
    if d.coefficient % 10 = 0 then strip fuel ⟨d.coefficient / 10, d.scale + 1⟩ else d

/-- The digits of the coefficient. -/
def digits (d : Decimal) : List Char := (toString d.coefficient).toList

/-- The place of the decimal point counted from the first digit: the value is
`0.d₁d₂… · 10 ^ point`. -/
def point (d : Decimal) : Int := d.digits.length + d.scale

end Decimal

namespace Binary64

/-- `num · 10 ^ (-scale) / den` as a fraction of natural numbers. -/
def scaleBy (num den : Nat) (scale : Int) : Nat × Nat :=
  if 0 ≤ scale then (num, den * Nat.pow 10 scale.toNat) else (num * Nat.pow 10 (-scale).toNat, den)

/-- The largest `e` with `10 ^ e` at most the magnitude, for a number that is not zero. -/
def decimalExponent (x : Binary64) : Int :=
  let scaled := x.units * Nat.pow 10 400 / unitsInOne
  ((toString scaled).length : Int) - 1 - 400

/-- Whether `c · 10 ^ scale` lies in the interval of reals that round to `x`. The ends belong to
the interval when the significand is even; the lower half of the interval is half as wide below a
power of two. -/
def readsBack (x : Binary64) (c : Nat) (scale : Int) : Bool :=
  let lower := if x.significand = leastNormal && x.exponent ≠ 0 then 1 else 2
  let unit := Nat.pow 2 x.exponent
  let low := (4 * x.significand - lower) * unit
  let high := (4 * x.significand + 2) * unit
  let (num, den) :=
    if 0 ≤ scale then (c * Nat.pow 10 scale.toNat, 1) else (c, Nat.pow 10 (-scale).toNat)
  let value := num * 4 * unitsInOne
  if x.significand % 2 = 0 then low * den ≤ value && value ≤ high * den
  else low * den < value && value < high * den

/-- The decimal of `count` digits nearest to `x` that reads back as `x`. -/
def withDigits? (rule : HalfwayRule) (x : Binary64) (count : Nat) : Option Decimal :=
  let scale := x.decimalExponent - count + 1
  let (num, den) := scaleBy x.units unitsInOne scale
  let below := num / den
  let nearest : Nat :=
    match compare (2 * (num % den)) den with
    | .lt => below
    | .gt => below + 1
    | .eq => if rule = .even ∧ below % 2 = 0 then below else below + 1
  match x.readsBack below scale, x.readsBack (below + 1) scale with
  | true, true => some ⟨nearest, scale⟩
  | true, false => some ⟨below, scale⟩
  | false, true => some ⟨below + 1, scale⟩
  | false, false => none

/-- The shortest decimal that reads back as the magnitude of `x`, for a number that is not
zero. -/
def shortest (rule : HalfwayRule) (x : Binary64) : Decimal :=
  let found := (List.range 17).findSome? fun i => x.withDigits? rule (i + 1)
  (found.getD ⟨0, 0⟩).strip 17

end Binary64

/-- How the digits of a binary64 number are laid out. -/
structure DecimalLayout where
  /-- Which digits a halfway value gets. -/
  halfway : HalfwayRule
  /-- The places of the decimal point written without an exponent; all of them when `none`. -/
  positional : Option (Int × Int)
  /-- Whether a whole number written without an exponent ends in `.0`. -/
  keepsPoint : Bool
  deriving Repr

namespace DecimalLayout

/-- Plain text: never an exponent, and no point in a whole number. -/
def plain : DecimalLayout := ⟨.up, none, false⟩

/-- Digits with a decimal point at its place. -/
def writePositional (layout : DecimalLayout) (digits : List Char) (point : Int) : List Char :=
  let whole := if layout.keepsPoint then ['.', '0'] else []
  if point ≤ 0 then '0' :: '.' :: List.replicate (-point).toNat '0' ++ digits
  else if digits.length ≤ point then
    digits ++ List.replicate (point - digits.length).toNat '0' ++ whole
  else digits.take point.toNat ++ '.' :: digits.drop point.toNat

/-- One digit before the decimal point, and a signed exponent. -/
def writeScientific (digits : List Char) (point : Int) : List Char :=
  let fraction := if digits.length ≤ 1 then [] else '.' :: digits.drop 1
  let sign := if point ≤ 0 then '-' else '+'
  digits.take 1 ++ fraction ++ 'e' :: sign :: (toString (point - 1).natAbs).toList

/-- The text of a binary64 number. -/
def write (layout : DecimalLayout) (x : Binary64) : String :=
  let sign := if x.negative then ['-'] else []
  let magnitude :=
    if x.isZero then (if layout.keepsPoint then ['0', '.', '0'] else ['0'])
    else
      let decimal := x.shortest layout.halfway
      let point := decimal.point
      let positional :=
        match layout.positional with
        | none => true
        | some (first, last) => first ≤ point && point ≤ last
      if positional then layout.writePositional decimal.digits point
      else writeScientific decimal.digits point
  String.ofList (sign ++ magnitude)

end DecimalLayout

end ServiceGraph
