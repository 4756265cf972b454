/-!
# Lines of a text

`lines` cuts a text at its line feeds. A carriage return right before a line feed belongs to the
line end, and a text that ends with a line feed has no further empty line.
-/

namespace ApiDocs.Text

/-- The text of a line that ended with a line feed: one carriage return at its end is dropped. -/
def dropReturn (line : List Char) : List Char :=
  if line.getLast? = some '\r' then line.dropLast else line

/-- The lines of a text. -/
def lines : List Char → List (List Char)
  | [] => []
  | c :: rest =>
    let line := (c :: rest).takeWhile (· ≠ '\n')
    if '\n' ∈ c :: rest then dropReturn line :: lines (rest.drop line.length) else [line]
termination_by text => text.length
decreasing_by simp only [List.length_cons, List.length_drop]; omega

end ApiDocs.Text
