import ApiDocs.Diagnostic
import ApiDocs.Model.Link

/-!
# Sessions

Comments are read one after the other, and most of them say only half of where they belong: the
module, the namespace, the class and the file of a comment are those that an earlier comment
opened. A `Session` is the model read so far together with this `Context` and the log. This
module holds the small changes of a session out of which the placing of a comment is made.
-/

namespace ApiDocs

/-- What is carried from one comment to the next. -/
structure Context where
  inModule : Option String := none
  inNamespace : Option String := none
  inClass : Option String := none
  inFile : Option String := none
  /-- The last class marked as global; it takes the members found before any class. -/
  globalClass : Option String := none
  /-- The submodule declared last, until a class claims it. -/
  openSubmodule : Option String := none
  /-- The classes and files found while no module was open. -/
  pending : List Pending := []
  warnings : List Warning := []
  deriving DecidableEq, Repr

/-- A reading in progress. -/
structure Session where
  model : Model := {}
  context : Context := {}
  /-- The log, oldest entry first. -/
  notes : List Note := []
  deriving DecidableEq, Repr

/-- The text without the occurrences of a part, looked for from left to right. -/
def removeAll (part : List Char) : List Char → List Char
  | [] => []
  | c :: rest =>
    if part.isPrefixOf (c :: rest) then removeAll part (rest.drop (part.length - 1))
    else c :: removeAll part rest
termination_by cs => cs.length
decreasing_by all_goals simp only [List.length_cons, List.length_drop]; omega

/-- The short and the full name of a class named under a namespace. Every occurrence of the
namespace and a dot is taken out of the name, and one is put in front. -/
def qualify (ns name : String) : String × String :=
  if ns.isEmpty then (name, name)
  else
    let short := String.ofList (removeAll (ns ++ ".").toList name.toList)
    (short, ns ++ "." ++ short)

namespace Session

/-- A session that has read nothing. -/
def start (version : String) (majorVersion : UInt32) : Session :=
  { model := { version, majorVersion } }

/-- Starts a new source tree. The global class, what waits for a module and the open submodule
stay. -/
def beginRoot (s : Session) : Session :=
  { s with context :=
    { s.context with inModule := none, inNamespace := none, inClass := none, inFile := none } }

/-! ### Diagnostics -/

/-- Adds entries to the log. -/
def log (s : Session) (notes : List Note) : Session := { s with notes := s.notes ++ notes }

/-- The name of the current file; empty if there is none. -/
def fileName (s : Session) : String := s.context.inFile.getD ""

/-- Records a warning about the comment with the given tokens. -/
def warn (s : Session) (tokens : List String) (w : Warning) : Session :=
  { s with
    context := { s.context with warnings := s.context.warnings ++ [w] }
    notes := s.notes ++ [.warning w s.fileName tokens] }

/-- Records several warnings. -/
def warnAll (s : Session) (tokens : List String) (ws : List Warning) : Session :=
  ws.foldl (fun s w => s.warn tokens w) s

/-! ### Names and places -/

/-- The current namespace; empty if there is none. -/
def namespaceName (s : Session) : String := s.context.inNamespace.getD ""

/-- The full name of a class named in the current namespace. -/
def fullName (s : Session) (name : String) : String := (qualify s.namespaceName name).2

/-- Makes a namespace the current one. -/
def enterNamespace (s : Session) (name : String) : Session :=
  { s with
    model := s.model.addNamespace name
    context := { s.context with inNamespace := some name } }

/-- Makes a module the current one. -/
def enterModule (s : Session) (name : Option String) : Session :=
  match name with
  | none => s
  | some name => { s with context := { s.context with inModule := some name } }

/-- Makes a class the current one. -/
def enterClass (s : Session) (name : String) : Session :=
  { s with context := { s.context with inClass := some name } }

/-- Makes a file the current one. -/
def enterFile (s : Session) (name : String) : Session :=
  { s with
    model := s.model.addFile name
    context := { s.context with inFile := some name } }

/-- Makes sure that modules exist. No submodule is open after that. -/
def addModules (s : Session) (names : List String) : Session :=
  { s with
    model := names.foldl Model.addModule s.model
    context := { s.context with openSubmodule := none } }

/-- Changes a class, if it exists. -/
def modifyClass (s : Session) (name : String) (f : ClassDoc → ClassDoc) : Session :=
  { s with model := s.model.modifyClass name f }

/-- Changes a module, which is created first if need be. -/
def modifyModule (s : Session) (name : String) (f : ModuleDoc → ModuleDoc) : Session :=
  { s with model := s.model.modifyModule name f }

/-- Makes the class of the given name current, and creates it unless it exists. -/
def defineClass (s : Session) (tokens : List String) (name : String) : Session :=
  let full := s.fullName name
  if s.model.classes.contains full then
    (s.enterClass full).warn tokens (.classRedefined full)
  else
    let doc : ClassDoc :=
      { shortName := (qualify s.namespaceName name).1
        name := full
        inNamespace := s.namespaceName }
    { s.enterClass full with
      model := { s.model with classes := s.model.classes.insert full doc } }

/-- Lets a class or a file wait for a module. -/
def defer (s : Session) (item : Pending) : Session :=
  { s with context := { s.context with pending := Pending.defer s.context.pending item } }

/-- Puts a class into the current module, or lets it wait for one. -/
def placeClass (s : Session) (cls : String) : Session :=
  match s.context.inModule with
  | some mod => { s with model := s.model.linkClass cls mod }
  | none => (s.log [.classDeferred cls]).defer (.cls cls)

/-- Puts a file into the current module, or lets it wait for one. -/
def placeFile (s : Session) (file : String) : Session :=
  match s.context.inModule with
  | some mod => { s with model := s.model.linkFile file mod }
  | none => (s.log [.fileDeferred file]).defer (.file file)

/-- The note about something that has found its module. -/
def linkNote (mod : String) : Pending → Note
  | .cls name => .classLinked name mod
  | .file name => .fileLinked name mod

/-- Puts everything that waits into a module. -/
def drainInto (s : Session) (mod : String) : Session :=
  { s with
    model := s.model.linkAll mod s.context.pending
    context := { s.context with pending := [] }
    notes := s.notes ++ s.context.pending.map (linkNote mod) }

end Session

end ApiDocs
