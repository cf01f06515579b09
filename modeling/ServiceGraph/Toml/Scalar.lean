import ServiceGraph.Json.Number
import ServiceGraph.Toml.Basic

/-!
# Values without quotes

`Toml.readScalar?` gives the value that a text without quotes writes: a flag, a moment, or a
number. Underscores may part the digits of a number.
-/

set_option autoImplicit false

namespace ServiceGraph.Toml

/-- Digits without the underscores between them; an underscore stands between two digits. -/
def dropUnderscores? (isDigit : Char → Bool) : List Char → Option (List Char)
  | [] => some []
  | '_' :: _ => none
  | a :: '_' :: b :: rest =>
    if isDigit a ∧ isDigit b then (dropUnderscores? isDigit (b :: rest)).map (a :: ·) else none
  | c :: rest => (dropUnderscores? isDigit rest).map (c :: ·)

/-- An integer that fits in 64 signed bits. -/
def integer? (n : Int) : Option Toml :=
  if Integer64.FitsSigned n then some (.integer n) else none

/-- The integer written in digits of a base. -/
def readBased? (base : Nat) (s : List Char) : Option Toml :=
  (dropUnderscores? (fun c => (Digits.digit? c).isSome) s).bind fun digits =>
    if digits.isEmpty then none
    else (Digits.readBase? base digits).bind fun n => integer? (Int.ofNat n)

/-- A number that is not out of range. -/
def float? : Extended → Option Toml
  | .finite x => some (.float (.finite x))
  | _ => none

/-- The number written in decimal. -/
def readDecimal? (s : List Char) : Option Toml :=
  match Json.NumberText.split? s with
  | none => none
  | some ⟨negative, whole, none, none⟩ =>
    let magnitude : Int := Digits.value whole
    integer? (if negative then -magnitude else magnitude)
  | some _ => (Extended.read? s).bind float?

/-- The number written in a text. -/
def readNumber? (s : List Char) : Option Toml :=
  match s with
  | '0' :: 'x' :: digits => readBased? 16 digits
  | '0' :: 'o' :: digits => readBased? 8 digits
  | '0' :: 'b' :: digits => readBased? 2 digits
  | s =>
    (dropUnderscores? Char.isDigit s).bind fun s =>
      match s with
      | '+' :: '-' :: _ => none
      | '+' :: rest => readDecimal? rest
      | s => readDecimal? s

/-- The value written in a text without quotes. -/
def readScalar? (s : List Char) : Option Toml :=
  let word := String.ofList s
  if word = "true" then some (.boolean true)
  else if word = "false" then some (.boolean false)
  else if word ∈ ["inf", "+inf", "-inf", "nan", "+nan", "-nan"] then
    (Extended.read? s).map .float
  else
    match Moment.read? s with
    | some m => some (.moment m)
    | none => readNumber? s

end ServiceGraph.Toml
