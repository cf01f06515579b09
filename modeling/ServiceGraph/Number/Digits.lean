/-!
# Digits in texts

What digits at the start of a text write, in decimal (`Digits.split`, `Digits.read?`) and in bases
up to 16 (`Digits.digit?`), and the exponent part that decimal numbers end in
(`Digits.splitExponent?`).
-/

set_option autoImplicit false

namespace ServiceGraph.Digits

/-- The value of a hexadecimal digit. -/
def digit? (c : Char) : Option Nat :=
  if '0' ≤ c ∧ c ≤ '9' then some (c.toNat - '0'.toNat)
  else if 'a' ≤ c ∧ c ≤ 'f' then some (c.toNat - 'a'.toNat + 10)
  else if 'A' ≤ c ∧ c ≤ 'F' then some (c.toNat - 'A'.toNat + 10)
  else none

/-- The number that the digits of a text write in a base, if there are only digits of it. -/
def readBase? (base : Nat) (s : List Char) : Option Nat :=
  s.foldlM
    (fun n c => (digit? c).bind fun d => if d < base then some (n * base + d) else none)
    0

/-- The leading decimal digits of a text, and the rest. -/
def split (s : List Char) : List Nat × List Char :=
  ((s.takeWhile Char.isDigit).map fun c => c.toNat - '0'.toNat, s.dropWhile Char.isDigit)

/-- The number that decimal digits write. -/
def value (digits : List Nat) : Nat := digits.foldl (fun n d => n * 10 + d) 0

/-- The number written in a text of decimal digits, of which there is at least one. -/
def read? (s : List Char) : Option Nat :=
  match split s with
  | ([], _) => none
  | (digits, []) => some (value digits)
  | (_, _ :: _) => none

/-- An exponent: whether it is negative, and its digits. -/
abbrev Exponent := Bool × List Nat

/-- The exponent part of a text that must end there; an empty text has none. -/
def splitExponent? : List Char → Option (Option Exponent)
  | [] => some none
  | mark :: rest =>
    if mark = 'e' ∨ mark = 'E' then
      let (negative, rest) :=
        match rest with
        | '+' :: r => (false, r)
        | '-' :: r => (true, r)
        | r => (false, r)
      match split rest with
      | ([], _) => none
      | (digits, []) => some (some (negative, digits))
      | (_, _ :: _) => none
    else none

/-- The value of an exponent, 0 when there is none. -/
def exponentValue : Option Exponent → Int
  | none => 0
  | some (true, digits) => -(value digits : Int)
  | some (false, digits) => value digits

end ServiceGraph.Digits
