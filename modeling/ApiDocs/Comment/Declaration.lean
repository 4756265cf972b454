import ApiDocs.Text.Trim

/-!
# Guessing a declaration from code

A comment without a naming tag documents what the code after it declares. `guess` looks for the
first name that an equals sign or a colon follows: it is a method if the word `function` comes
anywhere after the name, and a property otherwise.
-/

namespace ApiDocs.Comment

open Text

/-- What a line of code looks like it declares. -/
inductive Declaration where
  | method (name : String)
  | property (name : String)
  deriving DecidableEq, Repr

/-- The first name followed by an equals sign or a colon, blanks aside, and the text after the
name. -/
def assignedName : List Char → Option (List Char × List Char)
  | [] => none
  | c :: rest =>
    if isWord c then
      match dropBlanks (rest.dropWhile isWord) with
      | '=' :: _ => some (c :: rest.takeWhile isWord, rest.dropWhile isWord)
      | ':' :: _ => some (c :: rest.takeWhile isWord, rest.dropWhile isWord)
      | _ => assignedName (rest.dropWhile isWord)
    else assignedName rest
termination_by cs => cs.length
decreasing_by
  · have := (List.dropWhile_suffix isWord (l := rest)).length_le
    simp only [List.length_cons]
    omega
  · simp

/-- Whether a text occurs in another. -/
def occurs (part : List Char) : List Char → Bool
  | [] => part.isEmpty
  | c :: rest => part.isPrefixOf (c :: rest) || occurs part rest

/-- The declaration that a line of code looks like. -/
def guess (line : String) : Option Declaration :=
  (assignedName line.toList).map fun (name, after) =>
    if occurs "function".toList after then .method (.ofList name) else .property (.ofList name)

end ApiDocs.Comment
