/-!
# Letter case

`Text.lowerCase` writes a text with its ASCII letters in lower case; every other character stays.
`Text.foldCase` also takes the characters outside ASCII that stand for an ASCII letter when case is
left out of account.
-/

set_option autoImplicit false

namespace ServiceGraph.Text

/-- A text with its ASCII letters in lower case. -/
def lowerCase (s : String) : String := String.ofList (s.toList.map Char.toLower)

/-- The ASCII letter in lower case that a character stands for, if it stands for one: the long s
and the sign of the kelvin do too. -/
def foldChar (c : Char) : Char :=
  if c = '\u017f' then 's' else if c = '\u212a' then 'k' else c.toLower

/-- A text without the case of its ASCII letters. -/
def foldCase (s : String) : String := String.ofList (s.toList.map foldChar)

end ServiceGraph.Text
