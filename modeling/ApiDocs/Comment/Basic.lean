import ApiDocs.Comment.Literal
import ApiDocs.Text.Trim

/-!
# Documentation comments

A documentation comment begins with a slash and two stars and ends at the next star and slash.
`extract` finds the comments of a source text together with the line of code that follows each.
Literals are masked while comments are looked for; a text between double quotes that remains
is passed over whole.
-/

namespace ApiDocs

/-- A documentation comment. -/
structure Comment where
  /-- The text of the comment, without the decoration at the start of its lines. -/
  body : String
  /-- The code that follows the comment on its line or on the next one that is not blank. -/
  following : Option String
  deriving DecidableEq, Repr

namespace Comment

open Text

/-- The number of characters before the first comment end. -/
def bodyLength : List Char → Option Nat
  | [] => none
  | c :: rest =>
    if c = '*' ∧ rest.head? = some '/' then some 0 else (bodyLength rest).map (· + 1)

/-- The code right after a comment: blanks and line ends, then everything up to the next slash or
line end. -/
def codeAfter (cs : List Char) : List Char :=
  cs.takeWhile isBlank ++ (cs.dropWhile isBlank).takeWhile (fun c => c ≠ '/' ∧ c ≠ '\n')

/-- The comments of a masked text: the text between the marks, and the code after it. The search
goes on after that code; no comment follows one that does not end. -/
def rawComments : List Char → List (List Char × List Char)
  | [] => []
  | '/' :: '*' :: '*' :: rest =>
    match bodyLength rest with
    | some n =>
      let after := rest.drop (n + 2)
      (rest.take n, codeAfter after) :: rawComments (after.drop (codeAfter after).length)
    | none => []
  | '"' :: rest =>
    match rest.findIdx? (· = '"') with
    | some n => rawComments (rest.drop (n + 1))
    | none => rawComments rest
  | _ :: rest => rawComments rest
termination_by cs => cs.length
decreasing_by all_goals simp only [List.length_cons, List.length_drop]; omega

/-- Decoration at the start of a line: blanks, bars and stars. -/
def isDecoration (c : Char) : Bool := isBlank c || c == '|' || c == '*'

/-- Drops the decoration at the start of every line. A line of decoration only vanishes together
with its line end. -/
def undecorate (lineStart : Bool) : List Char → List Char
  | [] => []
  | c :: rest =>
    if lineStart && isDecoration c then undecorate true rest
    else c :: undecorate (c == '\n') rest

/-- The comment read from its raw parts; `none` if nothing but blanks is left of its text. -/
def ofRaw (m : Masked) (raw : List Char × List Char) : Option Comment :=
  let body := m.restore (undecorate true raw.1)
  if (strip body).isEmpty then none
  else
    let following := m.restore (strip raw.2)
    some ⟨.ofList body, if following.isEmpty then none else some (.ofList following)⟩

/-- The documentation comments of a source text, in order, without the blank ones. -/
def extract (source : String) : List Comment :=
  let m := mask source.toList
  (rawComments m.text).filterMap (ofRaw m)

end Comment

end ApiDocs
