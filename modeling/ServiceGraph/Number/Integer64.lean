/-!
# Integers of 64 bits

Integers in documents and settings are kept when they fit in 64 bits, with a sign
(`Integer64.FitsSigned`) or without one (`Integer64.FitsUnsigned`). A `BoundedInt` carries the
bounds of its range: an `Integer64` fits in one of the two ways, and an `Integer64.Signed` in the
first.
-/

set_option autoImplicit false

namespace ServiceGraph

/-- An integer from `least` to `greatest`. -/
structure BoundedInt (least greatest : Int) where
  value : Int
  inRange : least ≤ value ∧ value ≤ greatest
  deriving DecidableEq, Repr

namespace BoundedInt

variable {least greatest : Int}

instance : ToString (BoundedInt least greatest) := ⟨fun i => toString i.value⟩

/-- An integer, if it is in the range. -/
def ofInt? (n : Int) : Option (BoundedInt least greatest) :=
  if h : least ≤ n ∧ n ≤ greatest then some ⟨n, h⟩ else none

/-- The natural number that it is, 0 below zero. -/
def toNat (i : BoundedInt least greatest) : Nat := i.value.toNat

theorem ext {i j : BoundedInt least greatest} (h : i.value = j.value) : i = j := by
  cases i
  cases j
  cases h
  rfl

theorem ofInt?_eq_some_iff {n : Int} {i : BoundedInt least greatest} :
    ofInt? n = some i ↔ i.value = n := by
  rw [ofInt?]
  constructor
  · intro h
    split at h
    · exact congrArg value (Option.some.inj h).symm
    · cases h
  · rintro rfl
    exact dif_pos i.inRange

theorem ofInt?_eq_none_iff {n : Int} :
    (ofInt? n : Option (BoundedInt least greatest)) = none ↔ ¬ (least ≤ n ∧ n ≤ greatest) := by
  rw [ofInt?]
  by_cases h : least ≤ n ∧ n ≤ greatest
  · rw [dif_pos h]
    exact iff_of_false (Option.some_ne_none _) (not_not_intro h)
  · rw [dif_neg h]
    exact iff_of_true rfl h

end BoundedInt

namespace Integer64

/-- The least integer of 64 bits with a sign, `-2 ^ 63`. -/
def leastSigned : Int := -9223372036854775808

/-- The greatest integer of 64 bits with a sign, `2 ^ 63 - 1`. -/
def greatestSigned : Int := 9223372036854775807

/-- The greatest integer of 64 bits without a sign, `2 ^ 64 - 1`. -/
def greatestUnsigned : Nat := 18446744073709551615

/-- An integer that fits in 64 bits with a sign. -/
def FitsSigned (n : Int) : Prop := leastSigned ≤ n ∧ n ≤ greatestSigned

/-- A natural number that fits in 64 bits without a sign. -/
def FitsUnsigned (n : Nat) : Prop := n ≤ greatestUnsigned

instance (n : Int) : Decidable (FitsSigned n) :=
  inferInstanceAs (Decidable (leastSigned ≤ n ∧ n ≤ greatestSigned))

instance (n : Nat) : Decidable (FitsUnsigned n) :=
  inferInstanceAs (Decidable (n ≤ greatestUnsigned))

/-- An integer of 64 bits with a sign. -/
abbrev Signed := BoundedInt leastSigned greatestSigned

instance : OfNat Signed 0 := ⟨⟨0, by decide⟩⟩

instance : Inhabited Signed := ⟨0⟩

end Integer64

/-- An integer of 64 bits, with a sign or without one. -/
abbrev Integer64 := BoundedInt Integer64.leastSigned Integer64.greatestUnsigned

/-- A signed integer among those of 64 bits. -/
def Integer64.ofSigned (i : Integer64.Signed) : Integer64 :=
  ⟨i.value, i.inRange.1, Int.le_trans i.inRange.2 (by decide)⟩

theorem Integer64.ofSigned_inj {i j : Integer64.Signed} : ofSigned i = ofSigned j ↔ i = j := by
  refine ⟨fun h => ?_, congrArg ofSigned⟩
  have hvalue := congrArg BoundedInt.value h
  exact BoundedInt.ext hvalue

end ServiceGraph
