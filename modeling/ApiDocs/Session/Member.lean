import ApiDocs.Model.ChangeEvent
import ApiDocs.Session.Target
import ApiDocs.Tag.Signature

/-!
# Comments about members

The placing of comments about methods, events, properties, configs and constructors. A member goes
to the current class, or to the global class if there is none; without either the comment cannot
be placed. The first definition of a member stays, except that a written event takes the place of
a derived one.
-/

namespace ApiDocs.Session

/-- The class that a member or a constructor belongs to. -/
def currentClass (s : Session) (tokens : List String) (tag name : String) : Outcome String :=
  match s.context.inClass with
  | some cls =>
    if s.model.classes.contains cls then (s, .ok cls) else (s, .error (.noClass tag))
  | none =>
    match s.context.globalClass with
    | none => (s, .error (.noClass tag))
    | some cls =>
      let s := (s.warn tokens (.outOfPosition tag name cls)).enterClass cls
      if s.model.classes.contains cls then (s, .ok cls) else (s, .error (.noClass tag))

/-- The parameters that the tags give. -/
def readParams (s : Session) (tags : TagMap) : Outcome (List Param) :=
  let s := s.log (Signature.paramNotes (tags.all "param"))
  match Signature.params (tags.all "param") with
  | .ok ps => (s, .ok ps)
  | .error body => (s, .error (.malformed "param" body))

/-- The return value that the tags give. -/
def readReturn (tags : TagMap) : Except Fault.Cause (Option Return) :=
  match tags.first "return" with
  | none => .ok none
  | some body =>
    match Signature.returns body with
    | .ok r => .ok (some r)
    | .error body => .error (.malformed "return" body)

/-- Adds a member to a class, unless the class has one of its kind and name that is not derived. -/
def insertMember (s : Session) (tokens : List String) (cls : String) (kind : MemberKind)
    (doc : MemberDoc) : Session :=
  match s.model.classes.get? cls with
  | none => s
  | some c =>
    let added := s.modifyClass cls fun c => c.setMembers kind ((c.members kind).insert doc.name doc)
    match (c.members kind).get? doc.name with
    | none => added
    | some old =>
      if old.synthetic then added.log [.eventReplaced kind doc.name cls]
      else s.warn tokens (.memberRedefined kind doc.name cls)

/-- Adds a derived event to a class, unless the class has an event of its name. -/
def addDerivedEvent (cls : String) (s : Session) (event : MemberDoc) : Session :=
  match s.model.classes.get? cls with
  | none => s
  | some c =>
    if c.events.contains event.name then s.log [.eventKept event.name]
    else s.modifyClass cls fun c => { c with events := c.events.insert event.name event }

/-- Adds a config to a class, together with the events derived from it. -/
def insertConfig (s : Session) (tokens : List String) (cls name : String) : Session :=
  let s := s.insertMember tokens cls .config { name }
  (changeEvents name s.model.majorVersion).foldl (addDerivedEvent cls) s

/-- Places a comment about a method. -/
def placeMethod (s : Session) (tokens : List String) (tags : TagMap) : Outcome Placed :=
  let rest := tags.erase "method"
  match tags.name? "method" with
  | none => (s, .ok { tags := rest })
  | some name =>
    match s.currentClass tokens "method" name with
    | (s, .error e) => (s, .error e)
    | (s, .ok cls) =>
      match s.readParams rest with
      | (s, .error e) => (s, .error e)
      | (s, .ok params) =>
        match readReturn rest with
        | .error e => (s, .error e)
        | .ok returns =>
          (s.insertMember tokens cls .method { name, params, returns },
            .ok { tags := (rest.erase "param").erase "return"
                  target := some (.member cls .method name) })

/-- Places a comment about an event. -/
def placeEvent (s : Session) (tokens : List String) (tags : TagMap) : Outcome Placed :=
  let rest := tags.erase "event"
  match tags.name? "event" with
  | none => (s, .ok { tags := rest })
  | some name =>
    match s.currentClass tokens "event" name with
    | (s, .error e) => (s, .error e)
    | (s, .ok cls) =>
      match s.readParams rest with
      | (s, .error e) => (s, .error e)
      | (s, .ok params) =>
        (s.insertMember tokens cls .event { name, params },
          .ok { tags := rest.erase "param", target := some (.member cls .event name) })

/-- Places a comment about a property. -/
def placeProperty (s : Session) (tokens : List String) (tags : TagMap) : Outcome Placed :=
  let rest := tags.erase "property"
  match tags.name? "property" with
  | none => (s, .ok { tags := rest })
  | some name =>
    match s.currentClass tokens "property" name with
    | (s, .error e) => (s, .error e)
    | (s, .ok cls) =>
      (s.insertMember tokens cls .property { name },
        .ok { tags := rest, target := some (.member cls .property name) })

/-- Places a comment about a config, which may be called an attribute, and derives its events. -/
def placeConfig (s : Session) (tokens : List String) (tags : TagMap) (tag : String) :
    Outcome Placed :=
  let rest := (tags.erase "config").erase "attribute"
  match tags.name? tag with
  | none => (s, .ok { tags := rest })
  | some name =>
    match s.currentClass tokens tag name with
    | (s, .error e) => (s, .error e)
    | (s, .ok cls) =>
      (s.insertConfig tokens cls name,
        .ok { tags := rest, target := some (.member cls .config name) })

/-- Adds the constructor that a comment describes to the current class. -/
def placeConstructor (s : Session) (tokens : List String) (tags : TagMap) : Outcome TagMap :=
  match s.currentClass tokens "constructor" "" with
  | (s, .error e) => (s, .error e)
  | (s, .ok cls) =>
    match s.readParams tags with
    | (s, .error e) => (s, .error e)
    | (s, .ok params) =>
      match readReturn tags with
      | .error e => (s, .error e)
      | .ok returns =>
        let doc : Constructor :=
          { description := (tags.first "description").getD "", params, returns }
        (s.modifyClass cls fun c => { c with constructors := c.constructors ++ [doc] },
          .ok ((tags.erase "param").erase "return"))

end ApiDocs.Session
