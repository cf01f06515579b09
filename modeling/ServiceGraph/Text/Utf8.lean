/-!
# Texts from bytes

Bytes are read as UTF-8. `Text.decodeLossy` takes any bytes: a maximal part that starts a character
and does not complete one becomes a single replacement character, and so does a byte that starts
none.
-/

set_option autoImplicit false

namespace ServiceGraph.Text

/-- What may follow the first byte of a character of several bytes. -/
structure LeadByte where
  /-- The bits that the first byte adds to the code point. -/
  bits : Nat
  /-- The number of bytes that follow. -/
  count : Nat
  /-- The least second byte. -/
  low : Nat := 0x80
  /-- The greatest second byte. -/
  high : Nat := 0xBF
  deriving DecidableEq, Repr

/-- What may follow a byte that starts a character of several bytes. -/
def leadByte? (b : Nat) : Option LeadByte :=
  if 0xC2 ≤ b ∧ b ≤ 0xDF then some { bits := b - 0xC0, count := 1 }
  else if b = 0xE0 then some { bits := 0, count := 2, low := 0xA0 }
  else if b = 0xED then some { bits := b - 0xE0, count := 2, high := 0x9F }
  else if 0xE1 ≤ b ∧ b ≤ 0xEF then some { bits := b - 0xE0, count := 2 }
  else if b = 0xF0 then some { bits := 0, count := 3, low := 0x90 }
  else if b = 0xF4 then some { bits := b - 0xF0, count := 3, high := 0x8F }
  else if 0xF1 ≤ b ∧ b ≤ 0xF3 then some { bits := b - 0xF0, count := 3 }
  else none

namespace LeadByte

/-- The bytes that follow the first one and belong to the same character. -/
def following (l : LeadByte) : List UInt8 → List UInt8
  | [] => []
  | second :: rest =>
    if l.low ≤ second.toNat ∧ second.toNat ≤ l.high then
      second :: (rest.take (l.count - 1)).takeWhile fun b => 0x80 ≤ b.toNat && b.toNat ≤ 0xBF
    else []

/-- The character that complete bytes write. -/
def char (l : LeadByte) (following : List UInt8) : Char :=
  Char.ofNat (following.foldl (fun n b => n * 64 + (b.toNat - 0x80)) l.bits)

end LeadByte

/-- The character that stands for bytes that write none. -/
def replacement : Char := '\ufffd'

/-- The characters that bytes write; what writes none is replaced. -/
def decodeLossy (bytes : List UInt8) : List Char :=
  match bytes with
  | [] => []
  | b :: rest =>
    if b.toNat < 0x80 then Char.ofNat b.toNat :: decodeLossy rest
    else
      match leadByte? b.toNat with
      | none => replacement :: decodeLossy rest
      | some l =>
        let following := l.following rest
        let c := if following.length = l.count then l.char following else replacement
        c :: decodeLossy (rest.drop following.length)
termination_by bytes.length
decreasing_by
  all_goals
    simp only [List.length_drop, List.length_cons]
    omega

/-- A text without a byte order mark in front. -/
def dropByteOrderMark (s : List Char) : List Char :=
  match s with
  | c :: rest => if c = '\ufeff' then rest else s
  | [] => []

end ServiceGraph.Text
