import ServiceGraph.Text.Hidden

/-!
# Quoted texts

A text between double quotes in which every character shows: quotes and backslashes are escaped,
and a character that does not show is written as its code point.
-/

set_option autoImplicit false

namespace ServiceGraph.Text

/-- A code point as an escape. -/
def codePointEscape (c : Char) : List Char :=
  '\\' :: 'u' :: '\x7b' :: (Nat.toDigits 16 c.toNat ++ ['\x7d'])

/-- A character as it stands between quotes. -/
def quotedChar (c : Char) : List Char :=
  if c = '"' then ['\\', '"']
  else if c = '\\' then ['\\', '\\']
  else if c = '\x00' then ['\\', '0']
  else if c = '\t' then ['\\', 't']
  else if c = '\n' then ['\\', 'n']
  else if c = '\r' then ['\\', 'r']
  else if isHidden c then codePointEscape c
  else [c]

/-- A text between quotes. -/
def quoted (s : String) : String :=
  String.ofList ('"' :: (s.toList.flatMap quotedChar ++ ['"']))

/-- Texts between quotes in brackets. -/
def quotedList (l : List String) : String := "[" ++ ", ".intercalate (l.map quoted) ++ "]"

end ServiceGraph.Text
