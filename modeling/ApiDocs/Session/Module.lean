import ApiDocs.Session.Target

/-!
# Comments about files, modules and classes

The placing of comments that open something: a file marker, a module, or a class. None of these
can fail. A comment about a class may carry a module tag as well.
-/

namespace ApiDocs.Session

/-- Places a file marker: the file becomes the current one. -/
def placeFileMarker (s : Session) (tags : TagMap) : Session × Placed :=
  let rest := tags.erase "filemarker"
  match tags.name? "filemarker" with
  | none => (s, { tags := rest })
  | some name =>
    ((s.enterFile name).placeFile name, { tags := rest, target := some .file })

/-- Declares a submodule of a module. It stays open until a class claims it. -/
def addSubmodule (s : Session) (mod sub : String) (description : Option String) : Session :=
  let data : Submodule := { name := s.context.inClass.getD "", description }
  let s := s.modifyModule mod fun m =>
    { m with submodules := pushNew m.submodules sub, subData := m.subData.insert sub data }
  { s with context := { s.context with openSubmodule := some sub } }

/-- Describes a module. A description that is there already stays; a module without any is warned
about. -/
def describeModule (s : Session) (tokens : List String) (mod : String)
    (description : Option String) : Session :=
  let old := ((s.model.modules.get? mod).map (·.description)).getD ""
  match description with
  | some text =>
    if old.isEmpty then s.modifyModule mod fun m => { m with description := text } else s
  | none => if old.isEmpty then s.warn tokens (.missingModuleDescription mod) else s

/-- Gives the description of a comment to a submodule, if the tags declare one, or else to the
module. If `alone` is false the description is that of a class: the module gets none. -/
def describePart (s : Session) (tokens : List String) (mod : String) (tags : TagMap)
    (alone : Bool) : Session × TagMap :=
  match tags.first "submodule" with
  | some sub =>
    let rest := tags.erase "submodule"
    (s.addSubmodule mod sub (tags.first "description"),
      if alone then rest.erase "description" else rest)
  | none =>
    (s.describeModule tokens mod (if alone then tags.first "description" else none), tags)

/-- Places the module tags of a comment. All modules named are created, the last one is meant.
What was waiting goes into the current module. If `alone` is false the tags stand in a comment
about a class, whose description is not the module's. -/
def placeModule (s : Session) (tokens : List String) (tags : TagMap) (alone : Bool) :
    Session × Placed :=
  let names := (tags.all "module").filter (!·.isEmpty)
  let rest : TagMap := tags.erase "module"
  let s := s.addModules names
  match names.getLast? with
  | none => (s, { tags := rest })
  | some mod =>
    let described := s.describePart tokens mod rest alone
    (described.1.drainInto (described.1.context.inModule.getD mod),
      { tags := described.2, target := some (.mod mod) })

/-- Lets a class claim the open submodule for the current module. -/
def claimSubmodule (s : Session) (cls : String) (description : Option String) : Session :=
  let claimed := { s with context := { s.context with openSubmodule := none } }
  match s.context.openSubmodule, s.context.inModule with
  | some sub, some mod =>
    claimed.modifyModule mod fun m =>
      let old := (m.subData.get? sub).bind (·.description)
      let data : Submodule := { name := cls, description := description <|> old }
      { m with subData := m.subData.insert sub data }
  | _, _ => claimed

/-- Remembers a class as the global one if its comment says so. -/
def markGlobal (s : Session) (tags : TagMap) (cls : String) : Session :=
  if tags.contains "global" then { s with context := { s.context with globalClass := some cls } }
  else s

/-- Adds what the tags of a class say about other classes: the first superclass stays, the inner
classes and the classes used add up. -/
def relateClass (tags : TagMap) (inner : Option String) (c : ClassDoc) : ClassDoc :=
  { c with
    innerClasses := inner.toList.foldl pushNew c.innerClasses
    superclass := c.superclass <|> tags.first "extends"
    uses := (tags.all "uses").foldl pushNew c.uses }

/-- Lists a class in the current file. -/
def listInFile (s : Session) (cls : String) : Session :=
  match s.context.inFile with
  | none => s
  | some file =>
    let m := (s.model.modifyClass cls fun c => { c with inFile := some file }).addFile file
    { s with model := m.modifyFile file fun f =>
        { f with classList := pushNew f.classList cls } }

/-- Places the module tags of a comment about a class, if there are any. -/
def placeOwnModule (s : Session) (tokens : List String) (tags : TagMap) : Session × TagMap :=
  if tags.contains "module" then
    let placed := s.placeModule tokens tags false
    (placed.1, placed.2.tags)
  else (s, tags)

/-- Places a comment about a class. A class that the comment is written for as well becomes an
inner class. -/
def placeClassComment (s : Session) (tokens : List String) (tags : TagMap)
    (inner : Option String) : Session × Placed :=
  let rest : TagMap := tags.erase "class"
  match tags.name? "class" with
  | none => (s, { tags := rest })
  | some name =>
    let cls := s.fullName name
    let (s, rest) := (s.defineClass tokens name).placeOwnModule tokens rest
    let s := (s.claimSubmodule cls (rest.first "description")).markGlobal rest cls
    let s := s.modifyClass cls (relateClass rest (inner.filter (· ≠ cls)))
    let s := (s.placeClass cls).listInFile cls
    (s, { tags := (rest.erase "extends").erase "uses", target := some (.cls cls) })

end ApiDocs.Session
