import ApiDocs.Text.Classes
import ApiDocs.Text.Decimal

/-!
# Quoted texts for diagnostics

A quoted text shows exactly what a string holds: the quote, the backslash and the common controls
are escaped by a letter, every other character that is not plain by its code point in braces.
`quotedList` writes a list of quoted texts in brackets.
-/

namespace ApiDocs.Text

/-- How one character is written between quotes. -/
def quotedChar (c : Char) : List Char :=
  if c = '\x00' then ['\\', '0']
  else if c = '\t' then ['\\', 't']
  else if c = '\n' then ['\\', 'n']
  else if c = '\r' then ['\\', 'r']
  else if c = '"' then ['\\', '"']
  else if c = '\\' then ['\\', '\\']
  else if isPlain c then [c]
  else ['\\', 'u', '\x7b'] ++ hex c.toNat ++ ['\x7d']

/-- A string between quotes. -/
def quoted (s : String) : String :=
  .ofList (['"'] ++ s.toList.flatMap quotedChar ++ ['"'])

/-- A list of strings, each between quotes, in brackets. -/
def quotedList (items : List String) : String :=
  "[" ++ ", ".intercalate (items.map quoted) ++ "]"

end ApiDocs.Text
