/-!
# Finite binary64 numbers

A `Binary64` is a sign, a significand and an exponent; its value is
`± significand · 2 ^ (exponent - 1074)`. Every result is the number nearest to the exact one, a
tie going to the even significand (`Binary64.nearest?`), and there is no result past the range.
-/

set_option autoImplicit false

namespace ServiceGraph

/-- The least significand of a number whose exponent is not 0, `2 ^ 52`. -/
def Binary64.leastNormal : Nat := 4503599627370496

/-- The exponent of the greatest numbers. -/
def Binary64.greatestExponent : Nat := 2045

/-- A finite binary64 number, with value `± significand · 2 ^ (exponent - 1074)`. -/
structure Binary64 where
  negative : Bool
  significand : Nat
  exponent : Nat
  bounded : significand < 2 * Binary64.leastNormal
  /-- The significand has all of its 53 binary digits unless the exponent is 0. -/
  normal : exponent = 0 ∨ Binary64.leastNormal ≤ significand
  inRange : exponent ≤ Binary64.greatestExponent
  deriving DecidableEq, Repr

namespace Binary64

/-- Positive zero. -/
def zero : Binary64 := ⟨false, 0, 0, by decide, .inl rfl, by decide⟩

instance : Inhabited Binary64 := ⟨zero⟩

/-- The magnitude is `significand · 2 ^ exponent` units of `1 / 2 ^ 1074`. -/
def units (x : Binary64) : Nat := x.significand * Nat.pow 2 x.exponent

/-- The units in one. -/
def unitsInOne : Nat := Nat.pow 2 1074

/-- Whether the value is zero, of either sign. -/
def isZero (x : Binary64) : Bool := x.significand = 0

/-- The natural number nearest to `num / den`, a tie going to the even one. -/
def roundHalfEven (num den : Nat) : Nat :=
  let q := num / den
  match compare (2 * (num % den)) den with
  | .lt => q
  | .eq => if q % 2 = 0 then q else q + 1
  | .gt => q + 1

/-- Rounding goes to one of the two neighbours. -/
theorem roundHalfEven_bounds (num den : Nat) :
    num / den ≤ roundHalfEven num den ∧ roundHalfEven num den ≤ num / den + 1 := by
  rw [roundHalfEven]
  cases compare (2 * (num % den)) den with
  | lt => exact ⟨Nat.le_refl _, Nat.le_succ _⟩
  | gt => exact ⟨Nat.le_succ _, Nat.le_refl _⟩
  | eq =>
      by_cases heven : num / den % 2 = 0
      · simp only [if_pos heven]
        exact ⟨Nat.le_refl _, Nat.le_succ _⟩
      · simp only [if_neg heven]
        exact ⟨Nat.le_succ _, Nat.le_refl _⟩

/-- The exponent at which `num / den` units have 53 binary digits before the point, or 0 when
there are not so many. -/
def exponentOf (num den : Nat) : Nat := (num / den).log2 - 52

theorem div_exponentOf_lt (num den : Nat) :
    num / (den * Nat.pow 2 (exponentOf num den)) < 2 * leastNormal := by
  rw [exponentOf, ← Nat.div_div_eq_div_mul]
  generalize num / den = units
  refine (Nat.div_lt_iff_lt_mul (Nat.two_pow_pos _)).2 ?_
  calc
    units < 2 ^ (units.log2 + 1) := Nat.lt_log2_self
    _ ≤ 2 ^ (53 + (units.log2 - 52)) := Nat.pow_le_pow_right (by decide) (by omega)
    _ = 2 * leastNormal * Nat.pow 2 (units.log2 - 52) := Nat.pow_add 2 53 _

theorem le_div_exponentOf {num den : Nat} (h : exponentOf num den ≠ 0) :
    leastNormal ≤ num / (den * Nat.pow 2 (exponentOf num den)) := by
  rw [exponentOf] at h
  rw [exponentOf, ← Nat.div_div_eq_div_mul]
  generalize num / den = units at h ⊢
  have hunits : units ≠ 0 := by
    rintro rfl
    exact h rfl
  refine (Nat.le_div_iff_mul_le (Nat.two_pow_pos _)).2 ?_
  calc
    leastNormal * Nat.pow 2 (units.log2 - 52) = 2 ^ (52 + (units.log2 - 52)) :=
      (Nat.pow_add 2 52 _).symm
    _ = 2 ^ units.log2 := by rw [Nat.add_sub_cancel' (by omega)]
    _ ≤ units := Nat.log2_self_le hunits

/-- The number nearest to `num / den`, or `none` when that is `2 ^ 1024` or more. -/
def nearest? (num den : Nat) : Option Binary64 :=
  let scaled := num * unitsInOne
  let exponent := exponentOf scaled den
  let significand := roundHalfEven scaled (den * Nat.pow 2 exponent)
  have hbounds := roundHalfEven_bounds scaled (den * Nat.pow 2 exponent)
  if hcarry : significand = 2 * leastNormal then
    if hrange : exponent + 1 ≤ greatestExponent then
      some ⟨false, leastNormal, exponent + 1, by decide, .inr (Nat.le_refl _), hrange⟩
    else none
  else
    if hrange : exponent ≤ greatestExponent then
      have hbounded : significand < 2 * leastNormal :=
        Nat.lt_of_le_of_ne (Nat.le_trans hbounds.2 (div_exponentOf_lt scaled den)) hcarry
      have hnormal : exponent = 0 ∨ leastNormal ≤ significand :=
        (Decidable.em (exponent = 0)).imp_right fun h =>
          Nat.le_trans (le_div_exponentOf h) hbounds.1
      some ⟨false, significand, exponent, hbounded, hnormal, hrange⟩
    else none

/-- The number nearest to a natural number below `2 ^ 1024`. -/
def ofNat (n : Nat) : Binary64 := (nearest? n 1).getD zero

/-- The number with the other sign. -/
def negate (x : Binary64) : Binary64 := { x with negative := !x.negative }

/-- The number nearest to an integer. -/
def ofInt (n : Int) : Binary64 :=
  if n < 0 then (ofNat n.natAbs).negate else ofNat n.natAbs

/-- The rounded product of two magnitudes. -/
def mul? (x y : Binary64) : Option Binary64 :=
  nearest? (x.units * y.units) (unitsInOne * unitsInOne)

/-- The rounded quotient of two magnitudes, for a divisor that is not zero. -/
def div? (x y : Binary64) : Option Binary64 := nearest? x.units y.units

end Binary64

end ServiceGraph
