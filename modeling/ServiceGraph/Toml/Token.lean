import ServiceGraph.Toml.Basic

/-!
# Tokens of TOML texts

`Toml.scan` cuts a text into tokens. Comments vanish; gaps and line ends stay, since they part
words and statements. A word is any run of characters that is no other token; whether it is part of
a key or of a value is decided later. A text token holds a string with its escapes resolved.
-/

set_option autoImplicit false

namespace ServiceGraph.Toml

/-- Why a text is not TOML. -/
inductive SyntaxError where
  | unexpectedEnd
  | unexpectedCharacter
  | unexpectedToken
  | malformedString
  | malformedWord
  | repeatedKey
  | tooDeep
  deriving DecidableEq, Repr

/-- The explanation of a syntax error. -/
def SyntaxError.message : SyntaxError → String
  | .unexpectedEnd => "the text ends too early"
  | .unexpectedCharacter => "a character that starts no token"
  | .unexpectedToken => "a token in the wrong place"
  | .malformedString => "a malformed string"
  | .malformedWord => "a word that is no value"
  | .repeatedKey => "a key that is taken"
  | .tooDeep => "a value or a key with too many levels"

/-- One token of a TOML text. -/
inductive Token where
  /-- A run of spaces and tabs. -/
  | gap (blanks : List Char)
  | lineEnd
  | equals
  | dot
  | comma
  | openBracket
  | closeBracket
  | openBrace
  | closeBrace
  | word (value : List Char)
  /-- A string; one that may span lines cannot be a key. -/
  | text (value : String) (spansLines : Bool)
  deriving DecidableEq, Repr

/-! ## Strings -/

/-- How a string is quoted. -/
structure Quotes where
  /-- The quote character. -/
  mark : Char
  /-- Whether three quotes stand at either end, so that the string may span lines. -/
  spansLines : Bool
  deriving DecidableEq, Repr

namespace Quotes

/-- Whether a backslash starts an escape. -/
def hasEscapes (q : Quotes) : Bool := q.mark = '"'

end Quotes

/-- The character with the code point written in the first `count` characters, which must be
hexadecimal digits, and the rest. -/
def codePoint? (count : Nat) (s : List Char) : Option (Char × List Char) :=
  if count ≤ s.length then
    (Digits.readBase? 16 (s.take count)).bind fun n =>
      if n.isValidChar then some (Char.ofNat n, s.drop count) else none
  else none

theorem length_codePoint? {count : Nat} {s r : List Char} {c : Char}
    (h : codePoint? count s = some (c, r)) : r.length ≤ s.length := by
  unfold codePoint? at h
  split at h
  · simp only [Option.bind_eq_some_iff] at h
    obtain ⟨_, _, h⟩ := h
    split at h
    · simp only [Option.some.injEq, Prod.mk.injEq] at h
      obtain ⟨_, rfl⟩ := h
      simp only [List.length_drop]
      omega
    · simp at h
  · simp at h

/-- The character that a letter after a backslash stands for. -/
def escapedChar? (letter : Char) : Option Char :=
  match letter with
  | '"' => some '"'
  | '\\' => some '\\'
  | 'b' => some '\x08'
  | 'e' => some '\x1b'
  | 'f' => some '\x0c'
  | 'n' => some '\n'
  | 'r' => some '\r'
  | 't' => some '\t'
  | _ => none

/-- The character of an escape, given what follows the backslash, and the rest. -/
def escape? : List Char → Option (Char × List Char)
  | [] => none
  | 'x' :: rest => codePoint? 2 rest
  | 'u' :: rest => codePoint? 4 rest
  | 'U' :: rest => codePoint? 8 rest
  | letter :: rest => (escapedChar? letter).map fun c => (c, rest)

/-- An escape takes at least one character. -/
theorem length_escape? {s r : List Char} {c : Char} (h : escape? s = some (c, r)) :
    r.length < s.length := by
  unfold escape? at h
  split at h
  case h_1 => simp at h
  case h_5 =>
    simp only [Option.map_eq_some_iff, Prod.mk.injEq] at h
    obtain ⟨_, _, _, rfl⟩ := h
    simp
  all_goals
    have := length_codePoint? h
    simp only [List.length_cons]
    omega

/-- Whether a character only parts words. -/
def isGap (c : Char) : Bool := c = ' ' || c = '\t'

/-- Whether a character can stand in a string or comment as it is. -/
def isPlain (c : Char) : Bool := c = '\t' || (0x20 ≤ c.toNat && c ≠ '\x7f')

/-- What follows the line end that a text starts with after gaps, if it does. -/
def skipLine? (s : List Char) : Option (List Char) :=
  match s.dropWhile isGap with
  | '\n' :: rest => some rest
  | '\r' :: '\n' :: rest => some rest
  | _ => none

theorem length_skipLine? {s r : List Char} (h : skipLine? s = some r) : r.length < s.length := by
  have hle := (List.dropWhile_sublist isGap (l := s)).length_le
  unfold skipLine? at h
  split at h
  · rename_i rest hd
    simp only [Option.some.injEq] at h
    subst h
    simp only [hd, List.length_cons] at hle
    omega
  · rename_i rest hd
    simp only [Option.some.injEq] at h
    subst h
    simp only [hd, List.length_cons] at hle
    omega
  · simp at h

/-- What follows the gaps and line ends that a text starts with. -/
def skipLines (s : List Char) : List Char :=
  match s with
  | [] => []
  | c :: rest =>
    if isGap c ∨ c = '\n' then skipLines rest
    else if c = '\r' ∧ rest.head? = some '\n' then skipLines rest
    else s

theorem length_skipLines_le (s : List Char) : (skipLines s).length ≤ s.length := by
  induction s with
  | nil => simp [skipLines]
  | cons c rest ih =>
      unfold skipLines
      split
      · simp only [List.length_cons]
        omega
      · split
        · simp only [List.length_cons]
          omega
        · exact Nat.le_refl _

/-- What follows the line end that a backslash takes away, given what follows the backslash. -/
def skipEscapedLine? (q : Quotes) (s : List Char) : Option (List Char) :=
  if q.spansLines then (skipLine? s).map skipLines else none

theorem length_skipEscapedLine? {q : Quotes} {s r : List Char}
    (h : skipEscapedLine? q s = some r) : r.length < s.length := by
  unfold skipEscapedLine? at h
  split at h
  · simp only [Option.map_eq_some_iff] at h
    obtain ⟨rest, hs, rfl⟩ := h
    exact Nat.lt_of_le_of_lt (length_skipLines_le rest) (length_skipLine? hs)
  · simp at h

/-- The quotes that a text starts with just before its closing quotes, and what follows them all,
if the closing quotes are there. Three quotes close a string that may span lines, and up to two
more in front of them belong to the string. -/
def close? (q : Quotes) (s : List Char) : Option (List Char × List Char) :=
  let marks := s.takeWhile (· = q.mark)
  if q.spansLines then
    if 3 ≤ marks.length then some ((marks.drop 3).take 2, s.drop (min marks.length 5)) else none
  else if marks.isEmpty then none
  else some ([], s.drop 1)

theorem length_close? {q : Quotes} {s : List Char} {r : List Char × List Char}
    (h : close? q s = some r) : r.2.length < s.length := by
  have hle : (s.takeWhile (· = q.mark)).length ≤ s.length := (List.takeWhile_sublist _).length_le
  unfold close? at h
  dsimp only at h
  split at h
  · split at h
    · simp only [Option.some.injEq] at h
      subst h
      simp only [List.length_drop]
      omega
    · simp at h
  · split at h
    · simp at h
    · rename_i hne
      simp only [Option.some.injEq] at h
      subst h
      cases s with
      | nil => simp at hne
      | cons c rest => simp

/-- The characters of a string up to its closing quotes, and the rest. A backslash at the end of a
line takes the line end and the gaps and line ends after it away. -/
def scanString (q : Quotes) (s : List Char) : Except SyntaxError (List Char × List Char) :=
  match close? q s with
  | some r => .ok r
  | none =>
    match s with
    | [] => .error .unexpectedEnd
    | c :: rest =>
      if c = '\\' ∧ q.hasEscapes then
        match _hl : skipEscapedLine? q rest with
        | some rest' => scanString q rest'
        | none =>
          match _he : escape? rest with
          | none => .error .malformedString
          | some (c, rest') => (scanString q rest').map fun r => (c :: r.1, r.2)
      else if c = '\r' ∧ q.spansLines then
        match rest with
        | '\n' :: rest' => (scanString q rest').map fun r => ('\r' :: '\n' :: r.1, r.2)
        | _ => .error .malformedString
      else if isPlain c ∨ (c = '\n' ∧ q.spansLines) then
        (scanString q rest).map fun r => (c :: r.1, r.2)
      else .error .malformedString
termination_by s.length
decreasing_by
  · have := length_skipEscapedLine? _hl
    simp only [List.length_cons]
    omega
  · have := length_escape? _he
    simp only [List.length_cons]
    omega
  · simp only [List.length_cons]
    omega
  · simp

theorem map_eq_ok {ε α β : Type} {f : α → β} {x : Except ε α} {b : β} (h : x.map f = .ok b) :
    ∃ a, x = .ok a ∧ f a = b := by
  cases x with
  | error e => simp [Except.map] at h
  | ok a =>
    simp only [Except.map, Except.ok.injEq] at h
    exact ⟨a, rfl, h⟩

theorem length_scanString {q : Quotes} {s : List Char} {r : List Char × List Char}
    (h : scanString q s = .ok r) : r.2.length < s.length := by
  fun_induction scanString q s generalizing r with
  | case1 s r' hc =>
    simp only [Except.ok.injEq] at h
    subst h
    exact length_close? hc
  | case2 => simp at h
  | case3 c rest _ rest' hl _ ih =>
    have := length_skipEscapedLine? hl
    have := ih h
    simp only [List.length_cons]
    omega
  | case4 => simp at h
  | case5 _ rest _ _ c rest' he _ ih =>
    have := length_escape? he
    obtain ⟨p, hp, rfl⟩ := map_eq_ok h
    have := ih hp
    simp only [List.length_cons]
    omega
  | case6 _ _ _ _ rest' ih =>
    obtain ⟨p, hp, rfl⟩ := map_eq_ok h
    have := ih hp
    simp only [List.length_cons]
    omega
  | case7 => simp at h
  | case8 _ rest _ _ _ _ ih =>
    obtain ⟨p, hp, rfl⟩ := map_eq_ok h
    have := ih hp
    simp only [List.length_cons]
    omega
  | case9 => simp at h

/-- The quotes that open a string whose first character is `mark`, and what follows them. A line
end right after three quotes does not count. -/
def openQuotes (mark : Char) (rest : List Char) : Quotes × List Char :=
  match rest with
  | a :: b :: rest' =>
    if a = mark ∧ b = mark then
      (⟨mark, true⟩,
        match rest' with
        | '\n' :: r => r
        | '\r' :: '\n' :: r => r
        | r => r)
    else (⟨mark, false⟩, rest)
  | _ => (⟨mark, false⟩, rest)

theorem length_openQuotes (mark : Char) (rest : List Char) :
    (openQuotes mark rest).2.length ≤ rest.length := by
  unfold openQuotes
  split
  · split
    · dsimp only
      split <;> simp only [List.length_cons] <;> omega
    · simp
  · simp

/-! ## Words and punctuation -/

/-- Whether a character can stand in a word after its first one. -/
def isWordChar (c : Char) : Bool :=
  c ∉ ['.', '=', ',', '[', ']', '\x7b', '\x7d', ' ', '\t', '#', '\r', '\n']

/-- The token of a punctuation character. -/
def punctuation? (c : Char) : Option Token :=
  match c with
  | '=' => some .equals
  | '.' => some .dot
  | ',' => some .comma
  | '[' => some .openBracket
  | ']' => some .closeBracket
  | '{' => some .openBrace
  | '}' => some .closeBrace
  | '\n' => some .lineEnd
  | _ => none

/-- The tokens of a text. -/
def scan (s : List Char) : Except SyntaxError (List Token) :=
  match s with
  | [] => .ok []
  | c :: rest =>
    match punctuation? c with
    | some token => (scan rest).map (token :: ·)
    | none =>
      if isGap c then
        (scan (rest.dropWhile isGap)).map (.gap (c :: rest.takeWhile isGap) :: ·)
      else if c = '\r' then
        if rest.head? = some '\n' then scan rest else .error .unexpectedCharacter
      else if c = '#' then scan (rest.dropWhile isPlain)
      else if c = '"' ∨ c = '\x27' then
        match _h : scanString (openQuotes c rest).1 (openQuotes c rest).2 with
        | .error e => .error e
        | .ok (value, rest') =>
          (scan rest').map (.text (String.ofList value) (openQuotes c rest).1.spansLines :: ·)
      else (scan (rest.dropWhile isWordChar)).map (.word (c :: rest.takeWhile isWordChar) :: ·)
termination_by s.length
decreasing_by
  · simp
  · have := (List.dropWhile_sublist isGap (l := rest)).length_le
    simp only [List.length_cons]
    omega
  · simp
  · have := (List.dropWhile_sublist isPlain (l := rest)).length_le
    simp only [List.length_cons]
    omega
  · have : rest'.length < (openQuotes c rest).2.length := length_scanString _h
    have := length_openQuotes c rest
    simp only [List.length_cons]
    omega
  · have := (List.dropWhile_sublist isWordChar (l := rest)).length_le
    simp only [List.length_cons]
    omega

end ServiceGraph.Toml
