import ApiDocs.Comment.Basic
import ApiDocs.Comment.Token
import ApiDocs.Session.Block

/-!
# Reading sources

A source text is read comment by comment, up to the first one that cannot be placed. The files of
a source tree are joined into one text, each after a marker comment that names it, so that what
one file opens is still open in the next.
-/

namespace ApiDocs

/-- A source file. -/
structure Source where
  /-- The name of the file without its directory. -/
  name : String
  /-- The path as it is shown. -/
  path : String
  text : String
  deriving DecidableEq, Repr

/-- The text of a file after the comment that marks its start. -/
def Source.marked (f : Source) : String := "\n/** @filemarker " ++ f.name ++ " \n*/" ++ f.text

namespace Session

/-- Reads comments up to the first one that cannot be placed. -/
def readComments (s : Session) : List Comment → Session × Except Fault Unit
  | [] => (s, .ok ())
  | c :: rest =>
    let tokens := Comment.tokenize c.body
    match (s.log [.comment tokens]).readComment tokens c.following with
    | (s, .ok ()) => s.readComments rest
    | (s, .error fault) => (s, .error fault)

/-- Reads a source text. -/
def readScript (s : Session) (script : String) : Session × Except Fault Unit :=
  s.readComments (Comment.extract script)

/-- Reads the files of a source tree. -/
def readRoot (s : Session) (files : List Source) : Session × Except Fault Unit :=
  (s.beginRoot.log (files.map fun f => .reading f.path)).readScript
    (String.join (files.map Source.marked))

end Session

/-- The model of a single source text. -/
def Model.ofScript (script version : String) (majorVersion : UInt32) : Except Fault Model :=
  match (Session.start version majorVersion).readScript script with
  | (s, .ok ()) => .ok s.model
  | (_, .error fault) => .error fault

end ApiDocs
