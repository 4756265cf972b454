import ApiDocs.Model.Encode
import ApiDocs.Page.Inherited

/-!
# Class views

A `ClassView` is what the page of a class shows: the class with its members in name order, its
direct subclasses, and what it inherits. Here gaps are filled for display and nowhere else: a
property or config without a type shows as `Object`, a parameter without a name as `unknown`, and
a method without a return value returns `void`.
-/

namespace ApiDocs

open Json

/-- A member as a page shows it. -/
structure MemberView where
  name : String
  /-- The class that declares the member. -/
  host : String
  url : String
  description : String
  access : Access
  isStatic : Bool
  isFinal : Bool
  deprecated : Option String
  see : Option String
  typeName : Option String
  defaultValue : Option String
  writeOnce : Bool
  params : List Param
  returns : Option Return
  attributes : Dict String
  deriving DecidableEq, Repr

/-- A class as its page shows it. -/
structure ClassView where
  name : String
  shortName : String
  inNamespace : String
  inModule : Option String
  inFile : Option String
  description : String
  access : Access
  deprecated : Option String
  superclass : Option String
  uses : List String
  innerClasses : List String
  subclasses : List String
  constructors : List Constructor
  properties : List MemberView
  methods : List MemberView
  events : List MemberView
  configs : List MemberView
  inherited : Inherited
  attributes : Dict String
  deriving DecidableEq, Repr

/-! ### Filling gaps -/

/-- A text, or another one in its place if it is empty. -/
def orElseText (text fallback : String) : String := if text.isEmpty then fallback else text

/-- A parameter with its gaps filled. -/
def Param.view (p : Param) : Param :=
  { p with name := orElseText p.name "unknown", typeName := orElseText p.typeName "Object" }

/-- A return value with its gaps filled. -/
def Return.view (r : Return) : Return := { r with typeName := orElseText r.typeName "void" }

/-- A constructor with the gaps of its parameters and return value filled. -/
def Constructor.view (c : Constructor) : Constructor :=
  { c with params := c.params.map Param.view, returns := c.returns.map Return.view }

/-- A member as the page of its class shows it. Types are shown for properties and configs, return
values for methods. -/
def MemberDoc.view (host : String) (kind : MemberKind) (m : MemberDoc) : MemberView where
  name := m.name
  host := host
  url := host ++ ".html#" ++ kind.word ++ "_" ++ m.name
  description := m.description
  access := m.access
  isStatic := m.isStatic
  isFinal := m.isFinal
  deprecated := m.deprecated
  see := m.see
  typeName :=
    match kind with
    | .property | .config => some (m.typeName.getD "Object")
    | .method | .event => none
  defaultValue := m.defaultValue
  writeOnce := m.writeOnce
  params := m.params.map Param.view
  returns :=
    match kind with
    | .method => some (m.returns.getD {}).view
    | .event | .property | .config => none
  attributes := m.attributes

/-- The shown members of one kind, by name. -/
def ClassDoc.memberViews (c : ClassDoc) (showPrivate : Bool) (kind : MemberKind) :
    List MemberView :=
  Text.sortByName (·.name) <|
    ((c.members kind).values.filter (·.access.shown showPrivate)).map (MemberDoc.view c.name kind)

/-- The classes of the model with a given superclass. -/
def Model.subclasses (m : Model) (name : String) : List String :=
  (m.classes.values.filter fun c => c.superclass = some name).map (·.name)

/-- The view of a class. -/
def ClassView.ofClass (m : Model) (showPrivate : Bool) (c : ClassDoc) : ClassView where
  name := c.name
  shortName := c.shortName
  inNamespace := c.inNamespace
  inModule := c.inModule
  inFile := c.inFile
  description := c.description
  access := c.access
  deprecated := c.deprecated
  superclass := c.superclass
  uses := c.uses
  innerClasses := c.innerClasses
  subclasses := m.subclasses c.name
  constructors := c.constructors.map Constructor.view
  properties := c.memberViews showPrivate .property
  methods := c.memberViews showPrivate .method
  events := c.memberViews showPrivate .event
  configs := c.memberViews showPrivate .config
  inherited := .ofClass c m.classes showPrivate
  attributes := c.attributes

/-! ### As JSON -/

def InheritedMember.toJson (m : InheritedMember) : Json :=
  obj (member "name" (str m.name) ++ member "access" (str m.access.word)
    ++ member "deprecated" (bool m.deprecated))

/-- The contributions of the ancestors as an object. -/
def contributionsJson (d : Dict (List InheritedMember)) : Json :=
  d.toJson fun ms => arr (ms.map InheritedMember.toJson)

def Inherited.toJson (i : Inherited) : Json :=
  obj (member "properties" (contributionsJson i.properties)
    ++ member "methods" (contributionsJson i.methods)
    ++ member "events" (contributionsJson i.events)
    ++ member "configs" (contributionsJson i.configs)
    ++ member "superclassChain" (strs i.superclassChain))

def MemberView.toJson (v : MemberView) : Json :=
  obj (member "name" (str v.name) ++ member "host" (str v.host) ++ member "url" (str v.url)
    ++ member "description" (str v.description) ++ v.access.toMember
    ++ flag "static" v.isStatic ++ flag "final" v.isFinal ++ text? "deprecated" v.deprecated
    ++ text? "see" v.see ++ text? "type" v.typeName ++ text? "default" v.defaultValue
    ++ flag "writeonce" v.writeOnce ++ memberList "params" (v.params.map Param.toJson)
    ++ member? "return" (v.returns.map Return.toJson) ++ attributeMembers v.attributes)

/-- A constructor on a page: its parameters are listed even if there are none. -/
def Constructor.viewJson (c : Constructor) : Json :=
  obj (member "description" (str c.description)
    ++ member "params" (arr (c.params.map Param.toJson))
    ++ member? "return" (c.returns.map Return.toJson))

def ClassView.toJson (v : ClassView) : Json :=
  obj (member "name" (str v.name) ++ member "shortName" (str v.shortName)
    ++ member "namespace" (str v.inNamespace) ++ text? "module" v.inModule
    ++ text? "file" v.inFile ++ member "description" (str v.description) ++ v.access.toMember
    ++ text? "deprecated" v.deprecated ++ text? "extends" v.superclass
    ++ member "uses" (strs v.uses) ++ member "innerClasses" (strs v.innerClasses)
    ++ member "subclasses" (strs v.subclasses)
    ++ member "constructors" (arr (v.constructors.map Constructor.viewJson))
    ++ member "properties" (arr (v.properties.map MemberView.toJson))
    ++ member "methods" (arr (v.methods.map MemberView.toJson))
    ++ member "events" (arr (v.events.map MemberView.toJson))
    ++ member "configs" (arr (v.configs.map MemberView.toJson))
    ++ member "inherited" v.inherited.toJson ++ attributeMembers v.attributes)

end ApiDocs
