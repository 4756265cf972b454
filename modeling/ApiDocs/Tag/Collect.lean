import ApiDocs.Comment.Token
import ApiDocs.Diagnostic
import ApiDocs.Text.Case
import ApiDocs.Text.Trim

/-!
# Collecting the tags of a comment

`collect` goes through the tokens of a comment and gathers its tags. A tag without a value of its
own takes the text after it, unless it is one of the `singleTags`, which never take one. The first
text that no tag takes is the description. Module tags are remembered, since they also say where
the following comments belong.
-/

namespace ApiDocs

open Text

/-- Tags that stand alone, so that text after them is not theirs. -/
def singleTags : List String :=
  ["constructor", "public", "private", "protected", "static", "final", "beta", "experimental",
    "writeonce", "global", "chainable"]

/-- The name of a tag token, in lower case, and its value: at signs and blanks before the name are
dropped, and the value begins after the first blank. -/
def splitTag (token : String) : String × String :=
  let parts := cutAtBlank ((dropBlanks token.toList).dropWhile (· = '@'))
  (lower (.ofList parts.1), .ofList (strip parts.2))

/-- What is gathered from the tokens of a comment. -/
structure Collected where
  tags : TagMap := ∅
  warnings : List Warning := []
  /-- The last module named. -/
  inModule : Option String := none
  deriving DecidableEq, Repr

namespace Collected

/-- Adds a warning. -/
def warn (c : Collected) (w : Warning) : Collected := { c with warnings := c.warnings ++ [w] }

/-- Adds a tag with its value. A module tag without a name is warned about. -/
def add (c : Collected) (tag value : String) : Collected :=
  if tag = "module" then
    if value.isEmpty then { c.warn .unnamedModule with tags := c.tags.push tag value }
    else { c with tags := c.tags.push tag value, inModule := some value }
  else { c with tags := c.tags.push tag value }

/-- Adds a text that belongs to no tag: the first one is the description. -/
def describe (c : Collected) (text : String) : Collected :=
  if text.isEmpty || c.tags.contains "description" then c else c.add "description" text

end Collected

/-- Gathers the tags of trimmed tokens. -/
def collectFrom (c : Collected) : List String → Collected
  | [] => c
  | token :: rest =>
    if !Comment.isTag token then collectFrom (c.describe token) rest
    else
      let (tag, value) := splitTag token
      if !value.isEmpty || tag ∈ singleTags then collectFrom (c.add tag value) rest
      else
        match rest with
        | [] => (c.warn (.emptyDescription tag)).add tag ""
        | next :: rest' =>
          if Comment.isTag next then
            collectFrom ((c.warn (.descriptionIsTag tag (splitTag next).1)).add tag "")
              (next :: rest')
          else if next.isEmpty then
            collectFrom ((c.warn (.emptyDescription tag)).add tag "") rest'
          else collectFrom (c.add tag next) rest'

/-- Gathers the tags of a comment's tokens. -/
def collect (tokens : List String) : Collected := collectFrom {} (tokens.map trim)

end ApiDocs
