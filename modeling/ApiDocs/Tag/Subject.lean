import ApiDocs.Tag.Map

/-!
# What a comment is about

A comment may carry several tags that say what it documents. Its `Subject` is decided by the first
of them in a fixed order of precedence.
-/

namespace ApiDocs

/-- What a comment documents. -/
inductive Subject where
  /-- The start of a source file. -/
  | file
  | cls
  | method
  | event
  | property
  /-- A config that is called an attribute. -/
  | attr
  | config
  | mod
  | nothing
  deriving DecidableEq, Repr

namespace Subject

/-- The subjects and their tags, by precedence. -/
def precedence : List (String × Subject) := [
  ("filemarker", file), ("class", cls), ("method", method), ("event", event),
  ("property", property), ("attribute", attr), ("config", config), ("module", mod)]

/-- The word for a subject. -/
def word : Subject → String
  | file => "filemarker"
  | cls => "class"
  | method => "method"
  | event => "event"
  | property => "property"
  | attr => "attribute"
  | config => "config"
  | mod => "module"
  | nothing => "none"

/-- The subject of a comment with the given tags. -/
def ofTags (tags : TagMap) : Subject :=
  match precedence.find? fun e => tags.contains e.1 with
  | some e => e.2
  | none => nothing

end Subject

/-- The tags that say what a comment documents. Without any of them the code after the comment
is looked at. -/
def structuralTags : List String :=
  ["filemarker", "class", "method", "property", "constructor", "event", "config", "attribute",
    "module"]

end ApiDocs
