import ApiDocs.Comment.Declaration
import ApiDocs.Session.Member
import ApiDocs.Session.Module
import ApiDocs.Tag.Collect
import ApiDocs.Tag.Subject

/-!
# Placing a comment

`Session.readComment` takes the tokens of a comment and the code after it, and adds what the
comment says to the model. The namespace and the class it is written for come first; then its
subject decides where it goes, a constructor is added, and the remaining tags are copied to what
it documents. A comment that cannot be placed gives a `Fault`, and the session is kept as far as
it had come.
-/

namespace ApiDocs.Session

/-- Takes the namespace of a comment. -/
def applyNamespace (s : Session) (tags : TagMap) : Session :=
  match tags.name? "namespace" with
  | some name => s.enterNamespace name
  | none => s

/-- Goes to the class that a comment is written for: one that exists under the name as given or
under its full name, or else a new inner class of the current one. -/
def enterFor (s : Session) (tokens : List String) (name : String) : Session :=
  let full := s.fullName name
  match [name, full].find? s.model.classes.contains with
  | some known => s.enterClass known
  | none =>
    let defined := s.defineClass tokens name
    match s.context.inClass with
    | none => defined
    | some outer =>
      if outer = full then defined
      else defined.modifyClass outer fun c => { c with innerClasses := pushNew c.innerClasses full }

/-- Adds the tag for what the following code declares. -/
def tagDeclaration (tags : TagMap) : Comment.Declaration → TagMap
  | .method name => tags.push "method" name
  | .property name => tags.push "property" name

/-- Looks at the following code if no tag says what a comment documents. -/
def guessSubject (s : Session) (tags : TagMap) (following : Option String) : Session × TagMap :=
  if structuralTags.any tags.contains then (s, tags)
  else
    match following.bind Comment.guess with
    | none => (s, tags)
    | some d => (s.log [.guessed d], tagDeclaration tags d)

/-- Handles the subject of a comment. -/
def placeSubject (s : Session) (tokens : List String) (tags : TagMap) (outer : Option String) :
    Outcome Placed :=
  match Subject.ofTags tags with
  | .file => let (s, p) := s.placeFileMarker tags; (s, .ok p)
  | .cls => let (s, p) := s.placeClassComment tokens tags outer; (s, .ok p)
  | .method => s.placeMethod tokens tags
  | .event => s.placeEvent tokens tags
  | .property => s.placeProperty tokens tags
  | .attr => s.placeConfig tokens tags "attribute"
  | .config => s.placeConfig tokens tags "config"
  | .mod => let (s, p) := s.placeModule tokens tags true; (s, .ok p)
  | .nothing =>
    if tags.contains "constructor" then (s, .ok { tags })
    else (s.warn tokens .ambiguousBlock, .ok { tags })

/-- Handles the subject, the constructor and the remaining tags of a comment. -/
def place (s : Session) (tokens : List String) (tags : TagMap) (outer : Option String) :
    Outcome Unit :=
  match s.placeSubject tokens tags outer with
  | (s, .error e) => (s, .error e)
  | (s, .ok p) =>
    if p.tags.contains "constructor" then
      match s.placeConstructor tokens (p.tags.erase "constructor") with
      | (s, .error e) => (s, .error e)
      | (s, .ok tags) => (s.applyLeftovers { p with tags }, .ok ())
    else (s.applyLeftovers p, .ok ())

/-- What is done before a comment is placed: its tags are collected, and its namespace, the class
it is written for and the following code are taken into account. -/
def prepare (s : Session) (tokens : List String) (following : Option String) : Session × TagMap :=
  let c := collect tokens
  let s := ((s.warnAll tokens c.warnings).enterModule c.inModule).applyNamespace c.tags
  let tags : TagMap := c.tags.erase "namespace"
  match tags.first "for" with
  | some name =>
    if tags.contains "class" then s.guessSubject tags following
    else (s.enterFor tokens name).guessSubject (tags.erase "for") following
  | none => s.guessSubject tags following

/-- Reads one comment. -/
def readComment (s : Session) (tokens : List String) (following : Option String) :
    Session × Except Fault Unit :=
  let (s, tags) := s.prepare tokens following
  match s.place tokens tags (tags.first "for") with
  | (s, .ok ()) => (s, .ok ())
  | (s, .error cause) => (s, .error ⟨s.fileName, cause, tags⟩)

end ApiDocs.Session
