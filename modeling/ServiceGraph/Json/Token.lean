import ServiceGraph.Json.Number

/-!
# Tokens of JSON texts

`Json.scan` cuts a text into tokens. Blanks are space, tab, line feed and carriage return; a
string token holds the text with its escapes resolved; a number token ends at the first character
that cannot continue one.
-/

set_option autoImplicit false

namespace ServiceGraph.Json

/-- Why a text is not JSON. -/
inductive SyntaxError where
  | unexpectedEnd
  | unexpectedCharacter
  | unexpectedToken
  | malformedString
  | malformedNumber
  | numberOutOfRange
  | nestedTooDeep
  deriving DecidableEq, Repr

/-- The explanation of a syntax error. -/
def SyntaxError.message : SyntaxError → String
  | .unexpectedEnd => "the text ends too early"
  | .unexpectedCharacter => "a character that starts no token"
  | .unexpectedToken => "a token in the wrong place"
  | .malformedString => "a malformed string"
  | .malformedNumber => "a malformed number"
  | .numberOutOfRange => "a number out of range"
  | .nestedTooDeep => "arrays and objects nested too deeply"

/-- One token of a JSON text. -/
inductive Token where
  | openArray
  | closeArray
  | openObject
  | closeObject
  | comma
  | colon
  /-- A string, which is a value or a key. -/
  | text (value : String)
  /-- A value written in one token that is not a string. -/
  | literal (value : Json)
  deriving Repr

/-! ## Strings -/

/-- The number written in the first four characters, and the rest. -/
def hexQuad? : List Char → Option (Nat × List Char)
  | a :: b :: c :: d :: rest => do
    let a ← Digits.digit? a
    let b ← Digits.digit? b
    let c ← Digits.digit? c
    let d ← Digits.digit? d
    return (((a * 16 + b) * 16 + c) * 16 + d, rest)
  | _ => none

/-- The character of a `\u` escape, given what follows the `u`. A high surrogate must be followed
by the escape of a low one, and a low one may not stand alone. -/
def unicodeEscape? (s : List Char) : Option (Char × List Char) :=
  match hexQuad? s with
  | none => none
  | some (high, rest) =>
    if 0xD800 ≤ high ∧ high < 0xDC00 then
      match rest with
      | '\\' :: 'u' :: rest =>
        match hexQuad? rest with
        | none => none
        | some (low, rest) =>
          if 0xDC00 ≤ low ∧ low < 0xE000 then
            some (Char.ofNat (0x10000 + (high - 0xD800) * 0x400 + (low - 0xDC00)), rest)
          else none
      | _ => none
    else if 0xDC00 ≤ high ∧ high < 0xE000 then none
    else some (Char.ofNat high, rest)

/-- The character of an escape, given what follows the backslash. -/
def escape? : List Char → Option (Char × List Char)
  | '"' :: rest => some ('"', rest)
  | '\\' :: rest => some ('\\', rest)
  | '/' :: rest => some ('/', rest)
  | 'b' :: rest => some ('\x08', rest)
  | 'f' :: rest => some ('\x0c', rest)
  | 'n' :: rest => some ('\n', rest)
  | 'r' :: rest => some ('\r', rest)
  | 't' :: rest => some ('\t', rest)
  | 'u' :: rest => unicodeEscape? rest
  | _ => none

theorem length_hexQuad? {s r : List Char} {n : Nat} (h : hexQuad? s = some (n, r)) :
    r.length < s.length := by
  unfold hexQuad? at h
  split at h
  · simp only [Option.bind_eq_bind, Option.bind_eq_some_iff, Option.pure_def,
      Option.some.injEq, Prod.mk.injEq] at h
    obtain ⟨_, _, _, _, _, _, _, _, _, rfl⟩ := h
    simp only [List.length_cons]
    omega
  · simp at h

theorem length_unicodeEscape? {s r : List Char} {c : Char}
    (h : unicodeEscape? s = some (c, r)) : r.length < s.length := by
  unfold unicodeEscape? at h
  split at h
  · simp at h
  · rename_i high rest hq
    have hlt := length_hexQuad? hq
    split at h
    · split at h
      · split at h
        · simp at h
        · rename_i hq'
          have hlt' := length_hexQuad? hq'
          split at h
          · simp only [Option.some.injEq, Prod.mk.injEq] at h
            obtain ⟨_, rfl⟩ := h
            simp only [List.length_cons] at hlt
            omega
          · simp at h
      · simp at h
    · split at h
      · simp at h
      · simp only [Option.some.injEq, Prod.mk.injEq] at h
        obtain ⟨_, rfl⟩ := h
        exact hlt

/-- An escape takes at least one character. -/
theorem length_escape? {s r : List Char} {c : Char} (h : escape? s = some (c, r)) :
    r.length < s.length := by
  unfold escape? at h
  split at h
  case h_9 =>
    have := length_unicodeEscape? h
    simp only [List.length_cons]
    omega
  case h_10 => simp at h
  all_goals
    simp only [Option.some.injEq, Prod.mk.injEq] at h
    obtain ⟨_, rfl⟩ := h
    simp

/-- The characters of a string up to its closing quote, and the rest. A control character must be
escaped. -/
def scanString (s : List Char) : Except SyntaxError (List Char × List Char) :=
  match s with
  | [] => .error .unexpectedEnd
  | '"' :: rest => .ok ([], rest)
  | '\\' :: rest =>
    match _h : escape? rest with
    | none => .error .malformedString
    | some (c, rest') => (scanString rest').map fun r => (c :: r.1, r.2)
  | c :: rest =>
    if c.toNat < 0x20 then .error .malformedString
    else (scanString rest).map fun r => (c :: r.1, r.2)
termination_by s.length
decreasing_by
  · have := length_escape? _h
    simp only [List.length_cons]
    omega
  · simp

theorem length_scanString {s : List Char} {r : List Char × List Char}
    (h : scanString s = .ok r) : r.2.length < s.length := by
  fun_induction scanString s generalizing r with
  | case1 => simp at h
  | case2 rest =>
    simp only [Except.ok.injEq] at h
    subst h
    simp
  | case3 => simp at h
  | case4 rest c rest' hesc ih =>
    have hlt := length_escape? hesc
    cases hs : scanString rest' with
    | error e => simp [hs, Except.map] at h
    | ok p =>
      simp only [hs, Except.map, Except.ok.injEq] at h
      subst h
      have := ih hs
      simp only [List.length_cons]
      omega
  | case5 => simp at h
  | case6 c rest _ _ _ ih =>
    cases hs : scanString rest with
    | error e => simp [hs, Except.map] at h
    | ok p =>
      simp only [hs, Except.map, Except.ok.injEq] at h
      subst h
      have := ih hs
      simp only [List.length_cons]
      omega

/-! ## Words and numbers -/

/-- Whether a character can stand in a number. -/
def isNumberChar (c : Char) : Bool := c.isDigit || c ∈ ['+', '-', '.', 'e', 'E']

/-- The value of a number text. -/
def readNumber (s : List Char) : Except SyntaxError Json :=
  match NumberText.split? s with
  | none => .error .malformedNumber
  | some parts =>
    match parts.value? with
    | none => .error .numberOutOfRange
    | some n => .ok (.number n)

/-- The value of a word. -/
def readWord (s : List Char) : Except SyntaxError Json :=
  if s = ['n', 'u', 'l', 'l'] then .ok .null
  else if s = ['t', 'r', 'u', 'e'] then .ok (.bool true)
  else if s = ['f', 'a', 'l', 's', 'e'] then .ok (.bool false)
  else .error .unexpectedCharacter

/-- The token of a punctuation character. -/
def punctuation? (c : Char) : Option Token :=
  match c with
  | '[' => some .openArray
  | ']' => some .closeArray
  | '{' => some .openObject
  | '}' => some .closeObject
  | ',' => some .comma
  | ':' => some .colon
  | _ => none

/-- Whether a character may stand between tokens. -/
def isGap (c : Char) : Bool := c ∈ [' ', '\t', '\n', '\r']

/-- The tokens of a text. -/
def scan (s : List Char) : Except SyntaxError (List Token) :=
  match s with
  | [] => .ok []
  | c :: rest =>
    if isGap c then scan rest
    else
      match punctuation? c with
      | some token => (scan rest).map (token :: ·)
      | none =>
        if c = '"' then
          match _h : scanString rest with
          | .error e => .error e
          | .ok (value, rest') => (scan rest').map (.text (String.ofList value) :: ·)
        else if c.isDigit || c = '-' then
          match readNumber (c :: rest.takeWhile isNumberChar) with
          | .error e => .error e
          | .ok value => (scan (rest.dropWhile isNumberChar)).map (.literal value :: ·)
        else if c.isAlpha then
          match readWord (c :: rest.takeWhile Char.isAlpha) with
          | .error e => .error e
          | .ok value => (scan (rest.dropWhile Char.isAlpha)).map (.literal value :: ·)
        else .error .unexpectedCharacter
termination_by s.length
decreasing_by
  · simp
  · simp
  · have : rest'.length < rest.length := length_scanString _h
    simp only [List.length_cons]
    omega
  · have := (List.dropWhile_sublist isNumberChar (l := rest)).length_le
    simp only [List.length_cons]
    omega
  · have := (List.dropWhile_sublist Char.isAlpha (l := rest)).length_le
    simp only [List.length_cons]
    omega

end ServiceGraph.Json
