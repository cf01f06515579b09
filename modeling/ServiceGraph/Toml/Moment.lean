import ServiceGraph.Number.Digits

/-!
# Dates and times

A `Moment` is a date, a time of day, or both, and with both it may have an offset from universal
time. `Moment.read?` reads the form `1979-05-27T07:32:00.5-07:00` and its parts, and `Moment.text`
writes it.
-/

set_option autoImplicit false

namespace ServiceGraph

/-- A day of the calendar. -/
structure Date where
  year : Nat
  month : Nat
  day : Nat
  deriving DecidableEq, Repr, Inhabited

/-- A time of day. -/
structure TimeOfDay where
  hour : Nat
  minute : Nat
  second : Option Nat
  nanosecond : Option Nat
  deriving DecidableEq, Repr, Inhabited

/-- A distance from universal time. -/
inductive Offset where
  | universal
  /-- Ahead of universal time by a number of minutes, or behind it by a negative one. -/
  | ahead (minutes : Int)
  deriving DecidableEq, Repr, Inhabited

/-- A date, a time of day, or both. -/
structure Moment where
  date : Option Date := none
  time : Option TimeOfDay := none
  offset : Option Offset := none
  deriving DecidableEq, Repr, Inhabited

/-- A number in at least `width` digits. -/
def digitsPadded (width n : Nat) : List Char :=
  let digits := (toString n).toList
  List.replicate (width - digits.length) '0' ++ digits

/-- The number that a text starts with, if it has exactly `width` digits, and the rest. -/
def digitsExactly? (width : Nat) (s : List Char) : Option (Nat × List Char) :=
  let (digits, rest) := Digits.split s
  if digits.length = width then some (Digits.value digits, rest) else none

namespace Date

/-- The days of a month. -/
def daysInMonth (year month : Nat) : Nat :=
  if month = 2 then
    if year % 4 = 0 ∧ (year % 100 ≠ 0 ∨ year % 400 = 0) then 29 else 28
  else if month ∈ [4, 6, 9, 11] then 30
  else 31

/-- The date that a text starts with, and the rest. -/
def readStart? (s : List Char) : Option (Date × List Char) := do
  let (year, s) ← digitsExactly? 4 s
  let '-' :: s := s | none
  let (month, s) ← digitsExactly? 2 s
  let '-' :: s := s | none
  let (day, s) ← digitsExactly? 2 s
  if 1 ≤ month ∧ month ≤ 12 ∧ 1 ≤ day ∧ day ≤ daysInMonth year month then
    return (⟨year, month, day⟩, s)
  else none

/-- A date as text. -/
def text (d : Date) : List Char :=
  digitsPadded 4 d.year ++ '-' :: digitsPadded 2 d.month ++ '-' :: digitsPadded 2 d.day

end Date

namespace TimeOfDay

/-- The nanoseconds that the digits of a fraction of a second write; digits past the ninth say
nothing. -/
def nanoseconds (digits : List Nat) : Nat :=
  Digits.value ((digits ++ List.replicate 9 0).take 9)

/-- The fraction of a second that a text starts with, and the rest; there need not be one. -/
def readFraction? : List Char → Option (Option Nat × List Char)
  | '.' :: s =>
    match Digits.split s with
    | ([], _) => none
    | (digits, s) => some (some (nanoseconds digits), s)
  | s => some (none, s)

/-- The second and its fraction that a text starts with, and the rest; there need not be any. -/
def readSecond? : List Char → Option ((Option Nat × Option Nat) × List Char)
  | ':' :: s => do
    let (second, s) ← digitsExactly? 2 s
    let (nanosecond, s) ← readFraction? s
    return ((some second, nanosecond), s)
  | s => some ((none, none), s)

/-- The time of day that a text starts with, and the rest. -/
def readStart? (s : List Char) : Option (TimeOfDay × List Char) := do
  let (hour, s) ← digitsExactly? 2 s
  let ':' :: s := s | none
  let (minute, s) ← digitsExactly? 2 s
  let ((second, nanosecond), s) ← readSecond? s
  if hour ≤ 23 ∧ minute ≤ 59 ∧ second.getD 0 ≤ 60 then
    return (⟨hour, minute, second, nanosecond⟩, s)
  else none

/-- A fraction of a second as text, without the zeros at its end. -/
def fractionText (nanosecond : Nat) : List Char :=
  match ((digitsPadded 9 nanosecond).reverse.dropWhile (· = '0')).reverse with
  | [] => ['0']
  | digits => digits

/-- A time of day as text. -/
def text (t : TimeOfDay) : List Char :=
  digitsPadded 2 t.hour ++ ':' :: digitsPadded 2 t.minute ++
    (match t.second with
      | none => []
      | some second => ':' :: digitsPadded 2 second) ++
    (match t.nanosecond with
      | none => []
      | some nanosecond => '.' :: fractionText nanosecond)

end TimeOfDay

namespace Offset

/-- The offset that a text is, if it is not empty. -/
def read? : List Char → Option (Option Offset)
  | [] => some none
  | c :: s =>
    if c = 'Z' ∨ c = 'z' then if s.isEmpty then some (some .universal) else none
    else if c = '+' ∨ c = '-' then do
      let (hours, s) ← digitsExactly? 2 s
      let ':' :: s := s | none
      let (minutes, s) ← digitsExactly? 2 s
      if s.isEmpty ∧ hours ≤ 23 ∧ minutes ≤ 59 then
        let distance : Int := hours * 60 + minutes
        return some (.ahead (if c = '-' then -distance else distance))
      else none
    else none

/-- An offset as text. -/
def text : Offset → List Char
  | .universal => ['Z']
  | .ahead minutes =>
    (if minutes < 0 then '-' else '+') :: digitsPadded 2 (minutes.natAbs / 60) ++
      ':' :: digitsPadded 2 (minutes.natAbs % 60)

end Offset

namespace Moment

/-- The moment that a text is. -/
def read? (s : List Char) : Option Moment :=
  match Date.readStart? s with
  | some (date, []) => some { date := some date }
  | some (date, c :: s) =>
    if c ∈ ['T', 't', ' '] then do
      let (time, s) ← TimeOfDay.readStart? s
      return ⟨some date, some time, ← Offset.read? s⟩
    else none
  | none =>
    match TimeOfDay.readStart? s with
    | some (time, []) => some { time := some time }
    | _ => none

/-- A moment as text. -/
def text (m : Moment) : String :=
  let date := (m.date.map Date.text).getD []
  let time := (m.time.map TimeOfDay.text).getD []
  let mark := if m.date.isSome && m.time.isSome then ['T'] else []
  String.ofList (date ++ mark ++ time ++ (m.offset.map Offset.text).getD [])

end Moment

end ServiceGraph
