import ApiDocs.Text.Classes
import ApiDocs.Text.Decimal

/-!
# Masking literals

Comment marks inside a literal of the program text are no comment marks. Before comments are
looked for, pattern literals such as `/\*+/` and then string literals are replaced by numbered
placeholders; `Masked.restore` puts the literals back. A string literal may hold the placeholder
of a pattern literal, so that a text is restored by two rounds.

A **pattern literal** stands on one line: a slash, a character that is neither blank nor slash nor
star, and everything up to the last slash that can be reached without crossing a comment end. A
**string literal** stands on one line between two equal quotes, with a backslash protecting the
character after it.
-/

namespace ApiDocs.Comment

open Text

/-- The number of characters up to and including the last slash that can close a pattern literal.
A star goes together with the character after it, which must not be a slash. -/
def patternEnd : List Char → Option Nat
  | [] => none
  | '*' :: c :: rest => if c = '/' ∨ c = '\n' then none else (patternEnd rest).map (· + 2)
  | c :: rest =>
    if c = '*' ∨ c = '\n' then none
    else
      match patternEnd rest with
      | some n => some (n + 1)
      | none => if c = '/' then some 1 else none

/-- The number of characters after the first of a pattern literal at the start of the text. -/
def patternLiteral : List Char → Option Nat
  | '/' :: c :: rest =>
    if isBlank c || c == '/' || c == '*' then none else (patternEnd rest).map (· + 1)
  | _ => none

/-- The number of characters up to and including the quote that closes a string literal. -/
def stringEnd (quote : Char) : List Char → Option Nat
  | [] => none
  | '\\' :: c :: rest => if c = '\n' then none else (stringEnd quote rest).map (· + 2)
  | c :: rest =>
    if c = quote then some 1
    else if c = '\\' ∨ c = '\n' then none
    else (stringEnd quote rest).map (· + 1)

/-- The number of characters after the first of a string literal at the start of the text. -/
def stringLiteral : List Char → Option Nat
  | c :: rest => if c = '\'' ∨ c = '"' then stringEnd c rest else none
  | [] => none

/-- What stands for the literal with a given number. -/
def placeholder (index : Nat) : List Char := ['~', '~', '~'] ++ decimal index ++ ['~', '~', '~']

/-- A text with its literals taken out. -/
structure Masked where
  /-- The text, with placeholders. -/
  text : List Char
  /-- The literals, by number. -/
  literals : List (List Char)
  deriving DecidableEq, Repr

/-- Replaces the literals of one kind from left to right, numbering them from `index` on. -/
def maskFrom (literal : List Char → Option Nat) (index : Nat) : List Char → Masked
  | [] => ⟨[], []⟩
  | c :: rest =>
    match literal (c :: rest) with
    | some n =>
      let tail := maskFrom literal (index + 1) (rest.drop n)
      ⟨placeholder index ++ tail.text, (c :: rest.take n) :: tail.literals⟩
    | none =>
      let tail := maskFrom literal index rest
      ⟨c :: tail.text, tail.literals⟩
termination_by cs => cs.length
decreasing_by all_goals simp only [List.length_cons, List.length_drop]; omega

/-- Takes the pattern literals and then the string literals out of a text. -/
def mask (source : List Char) : Masked :=
  let patterns := maskFrom patternLiteral 0 source
  let strings := maskFrom stringLiteral patterns.literals.length patterns.text
  ⟨strings.text, patterns.literals ++ strings.literals⟩

/-- The digits of a placeholder at the start of the text; digits of every script count. -/
def placeholderDigits : List Char → Option (List Char)
  | '~' :: '~' :: '~' :: rest =>
    let digits := rest.takeWhile isDigit
    if digits.isEmpty then none
    else if ['~', '~', '~'].isPrefixOf (rest.drop digits.length) then some digits
    else none
  | _ => none

/-- The literal that a placeholder's digits name, if there is one. -/
def literalAt (literals : List (List Char)) (digits : List Char) : Option (List Char) :=
  if digits.all isAsciiDigit then literals[ofDecimal digits]? else none

/-- One round of putting literals back. A placeholder that names no literal stays. -/
def restoreOnce (literals : List (List Char)) : List Char → List Char
  | [] => []
  | c :: rest =>
    match placeholderDigits (c :: rest) with
    | some digits =>
      let whole := ['~', '~', '~'] ++ digits ++ ['~', '~', '~']
      (literalAt literals digits).getD whole ++ restoreOnce literals (rest.drop (digits.length + 5))
    | none => c :: restoreOnce literals rest
termination_by cs => cs.length
decreasing_by all_goals simp only [List.length_cons, List.length_drop]; omega

/-- Puts the literals of a masked text back into a part of it. -/
def Masked.restore (m : Masked) (part : List Char) : List Char :=
  restoreOnce m.literals (restoreOnce m.literals part)

end ApiDocs.Comment
