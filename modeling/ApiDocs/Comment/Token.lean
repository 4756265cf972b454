import ApiDocs.Text.Trim

/-!
# Tokens of a comment

`tokenize` cuts the text of a comment at its tags. A tag is an at sign and a word at the start of
a line; one blank before it is tolerated and dropped. The tokens alternate: text, tag, text, tag,
text, and so on, where a text may be empty. An at sign elsewhere stays part of the text.
-/

namespace ApiDocs.Comment

open Text

/-- The word of a tag that begins right here. -/
def tagWord : List Char → Option (List Char)
  | '@' :: rest => if (rest.takeWhile isWord).isEmpty then none else some (rest.takeWhile isWord)
  | _ => none

/-- The word of a tag at the start of a line and the number of characters up to the tag's end: the
tag may follow one blank. -/
def lineTag : List Char → Option (List Char × Nat)
  | [] => none
  | c :: rest =>
    if isBlank c then (tagWord rest).map fun word => (word, word.length + 2)
    else (tagWord (c :: rest)).map fun word => (word, word.length + 1)

/-- The text before the first tag, and the tokens from that tag on. -/
def tokensFrom (lineStart : Bool) : List Char → List Char × List (List Char)
  | [] => ([], [])
  | c :: rest =>
    match if lineStart then lineTag (c :: rest) else none with
    | some (word, length) =>
      let tail := tokensFrom false (rest.drop (length - 1))
      ([], ('@' :: word) :: tail.1 :: tail.2)
    | none =>
      let tail := tokensFrom (c == '\n') rest
      (c :: tail.1, tail.2)
termination_by cs => cs.length
decreasing_by all_goals simp only [List.length_cons, List.length_drop]; omega

/-- The tokens of a comment's text. -/
def tokenize (body : String) : List String :=
  let parts := tokensFrom true body.toList
  (parts.1 :: parts.2).map String.ofList

/-- Whether a token is a tag: its first character that is not blank is an at sign. -/
def isTag (token : String) : Bool := (dropBlanks token.toList).head? == some '@'

end ApiDocs.Comment
