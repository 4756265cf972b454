import ApiDocs.Text.Decimal
import ApiDocs.Text.Lines

/-!
# Highlighted sources

A source file can be copied as markup: one anchored span per line inside a `pre` element, with the
characters that mean something in markup replaced by references. A text with a NUL is taken for a
binary file and is not shown.
-/

namespace ApiDocs.Highlight

open Text

/-- Replaces every occurrence of a character by a text. -/
def replaceChar (c : Char) (text : List Char) (cs : List Char) : List Char :=
  cs.flatMap fun d => if d = c then text else [d]

/-- Replaces the characters that mean something in markup. The ampersand comes first, since the
other replacements bring new ones. -/
def escapeMarkup (cs : List Char) : List Char :=
  replaceChar '"' "&quot;".toList <| replaceChar '>' "&gt;".toList <|
    replaceChar '<' "&lt;".toList <| replaceChar '&' "&amp;".toList cs

/-- The span of the line with the given number. -/
def span (number : Nat) (line : List Char) : List Char :=
  "<span class=\"line\" id=\"l".toList ++ decimal number ++ "\">".toList ++ escapeMarkup line
    ++ "</span>\n".toList

/-- The spans of lines, numbered from `number` on. -/
def spans (number : Nat) : List (List Char) → List Char
  | [] => []
  | line :: rest => span number line ++ spans (number + 1) rest

/-- Why a file is not shown. -/
def binaryMessage (path : String) : String := path ++ " looks like a binary file"

/-- A source text as markup, or the reason why there is none. -/
def markup (path source : String) : Except String String :=
  if '\x00' ∈ source.toList then .error (binaryMessage path)
  else
    .ok (.ofList ("<div class=\"highlight\"><pre>".toList ++ spans 1 (lines source.toList)
      ++ "</pre></div>\n".toList))

/-- A source text as markup, or a fixed text in its place. -/
def page (path source : String) : String :=
  match markup path source with
  | .ok text => text
  | .error _ => "File could not be highlighted"

end ApiDocs.Highlight
