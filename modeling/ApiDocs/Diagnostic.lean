import ApiDocs.Comment.Declaration
import ApiDocs.Model.Basic
import ApiDocs.Tag.Map

/-!
# Diagnostics

Three kinds of messages come out of a run. A `Warning` is recorded and the run goes on; a `Fault`
ends it; a `Note` is a line of the log. Each is a value that says what happened, and its wording
is given once, by `Warning.message`, `Fault.message` and `Note.line`.
-/

namespace ApiDocs

/-! ### Warnings -/

/-- Something in a comment that is probably not meant. -/
inductive Warning where
  | classRedefined (name : String)
  | memberRedefined (kind : MemberKind) (name cls : String)
  /-- A member before any class, which went to the global class. -/
  | outOfPosition (tag name fallback : String)
  /-- A tag without a value, with another tag right after it. -/
  | descriptionIsTag (tag found : String)
  | emptyDescription (tag : String)
  | unnamedModule
  | missingModuleDescription (name : String)
  /-- Nothing says what the comment documents. -/
  | ambiguousBlock
  deriving DecidableEq, Repr

/-- The wording of a warning. -/
def Warning.message : Warning → String
  | classRedefined name => s!"class {name} was redefined"
  | memberRedefined kind name cls => s!"{kind.word} {name} was redefined in class {cls}"
  | outOfPosition tag name fallback =>
    s!"@{tag} {name} found before any @class, making global {fallback} the current class"
  | descriptionIsTag tag found =>
    s!"expected a description for tag @{tag} but found another tag @{found}"
  | emptyDescription tag => s!"expected a description for tag @{tag} but it was empty"
  | unnamedModule => "no name for module"
  | missingModuleDescription name => s!"module {name} has no description"
  | ambiguousBlock =>
    "doc block type ambiguous, no @class, @module, @method, @event, @property, or @config tag "
      ++ "found; this block may be skipped"

/-! ### Faults -/

/-- Why a comment cannot be placed. -/
inductive Fault.Cause where
  /-- The value of a tag for a parameter or a return value has no readable form. -/
  | malformed (tag body : String)
  /-- A member or a constructor without a class that it could belong to. -/
  | noClass (tag : String)
  deriving DecidableEq, Repr

/-- A comment that cannot be placed, with the file it stands in and its tags. -/
structure Fault where
  file : String
  cause : Fault.Cause
  tags : TagMap
  deriving DecidableEq, Repr

/-- The wording of a fault; the tags of the comment follow on lines of their own. -/
def Fault.message (f : Fault) : String :=
  match f.cause with
  | .malformed tag body =>
    s!"{f.file}: a @{tag} entry could not be parsed: `{body}`\n" ++ f.tags.dump
  | .noClass tag => s!"{f.file}: @{tag} tag found before any @class was declared\n" ++ f.tags.dump

/-! ### Notes -/

/-- The levels of the log, the gravest first. -/
inductive Level where
  | error
  | warn
  | info
  | debug
  | trace
  deriving DecidableEq, Repr

/-- The word for a level, five characters wide. -/
def Level.word : Level → String
  | error => "ERROR"
  | warn => " WARN"
  | info => " INFO"
  | debug => "DEBUG"
  | trace => "TRACE"

/-- The rank of a level; more is less grave. -/
def Level.rank : Level → Nat
  | error => 1
  | warn => 2
  | info => 3
  | debug => 4
  | trace => 5

/-- An entry of the log. -/
inductive Note where
  /-- A warning about the comment with the given tokens. -/
  | warning (w : Warning) (file : String) (tokens : List String)
  /-- A parameter without a name, which is left out. -/
  | paramSkipped (typeName text : String)
  /-- The subject of a comment was taken from the code after it. -/
  | guessed (d : Comment.Declaration)
  | fileDeferred (name : String)
  | classDeferred (name : String)
  | fileLinked (name mod : String)
  | classLinked (name mod : String)
  /-- A derived event that is declared already. -/
  | eventKept (name : String)
  /-- A member that takes the place of a derived event. -/
  | eventReplaced (kind : MemberKind) (name cls : String)
  | reading (path : String)
  | comment (tokens : List String)
  | unknownAncestor (name : String)
  | viewing (cls : String)
  | noModule (cls : String)
  | notHighlighted (reason : String)
  | noInputs (pattern : String)
  | noSources (extension root : String)
  | warningCount (count : Nat)
  deriving DecidableEq, Repr

namespace Note

/-- The level of a note. -/
def level : Note → Level
  | warning .. | noModule _ | notHighlighted _ | noInputs _ | noSources .. => .warn
  | paramSkipped .. => .error
  | fileDeferred _ | classDeferred _ | reading _ | warningCount _ => .info
  | guessed _ | fileLinked .. | classLinked .. | eventKept _ | eventReplaced .. => .debug
  | unknownAncestor _ | viewing _ => .debug
  | comment _ => .trace

/-- The wording of a note. -/
def message : Note → String
  | warning w _ _ => w.message
  | paramSkipped typeName text => s!"could not parse param -- {typeName}, {text} --"
  | guessed _ => "guessed block kind from following line"
  | fileDeferred name => s!"deferred module file: {name}"
  | classDeferred name => s!"deferred module class: {name}"
  | fileLinked name mod => s!"linking deferred file {name} to module {mod}"
  | classLinked name mod => s!"linking deferred class {name} to module {mod}"
  | eventKept name => s!"event {name} already declared, not generating it"
  | eventReplaced kind name cls => s!"{kind.word} {name} replaces a generated event in {cls}"
  | reading path => s!"parsing {path}"
  | comment _ => "block"
  | unknownAncestor name => s!"unknown ancestor {name}, nothing inherited from it"
  | viewing cls => s!"building view for {cls}"
  | noModule cls => s!"class {cls} has no module, left out of the class map"
  | notHighlighted reason => reason
  | noInputs pattern => s!"no inputs matched: {pattern}"
  | noSources extension root => s!"no {extension} files under {root}"
  | warningCount count => s!"{count} warning(s)"

/-- The details that follow the wording, each as a name and a value. -/
def details : Note → List (String × String)
  | warning _ file tokens =>
    [("file", Text.quoted file), ("tokens", Text.quotedList tokens)]
  | guessed (.method name) => [("name", name), ("kind", "Method")]
  | guessed (.property name) => [("name", name), ("kind", "Property")]
  | comment tokens => [("tokens", Text.quotedList tokens)]
  | _ => []

/-- A character of the wording as the log shows it: characters that steer a terminal are written
out. -/
def shownChar (c : Char) : List Char :=
  if c = '\x1b' then ['\\', 'x', '1', 'b']
  else if c = '\x07' then ['\\', 'x', '0', '7']
  else if c = '\x08' then ['\\', 'x', '0', '8']
  else if c = '\x0c' then ['\\', 'x', '0', 'c']
  else if c = '\x7f' then ['\\', 'x', '7', 'f']
  else if 0x80 ≤ c.toNat && c.toNat ≤ 0x9F then
    ['\\', 'u', '\x7b'] ++ Text.hex c.toNat ++ ['\x7d']
  else [c]

/-- The line of the log. -/
def line (n : Note) : String :=
  n.level.word ++ " " ++ .ofList (n.message.toList.flatMap shownChar)
    ++ String.join (n.details.map fun d => " " ++ d.1 ++ "=" ++ d.2) ++ "\n"

end Note

end ApiDocs
