import ApiDocs.Json.Printer
import ApiDocs.Model.Basic

/-!
# The model as JSON

The written form of the model and its parts. Fields stand in a fixed order; what is missing, empty
or at its usual value is left out where the reader can supply it. The attributes of a class, a
member or a module follow its fields as further members of the same object.
-/

namespace ApiDocs

open Json

/-- A member with a text that is left out if it is missing. -/
def Json.text? (name : String) (s : Option String) : List (String × Json) :=
  member? name (s.map str)

/-- A member with an access that is left out if it is public. -/
def Access.toMember (access : Access) : List (String × Json) :=
  if access = .pub then [] else member "access" (str access.word)

/-- Attributes as members, in order of their names. -/
def attributeMembers (attributes : Dict String) : List (String × Json) :=
  attributes.entries.map fun e => (e.1, str e.2)

/-- A dictionary as an object. -/
def Dict.toJson {α : Type} (value : α → Json) (d : Dict α) : Json :=
  obj (d.entries.map fun e => (e.1, value e.2))

def Param.toJson (p : Param) : Json :=
  obj (member "name" (str p.name) ++ member "type" (str p.typeName)
    ++ member "description" (str p.description))

def Return.toJson (r : Return) : Json :=
  obj (member "type" (str r.typeName) ++ member "description" (str r.description))

def Constructor.toJson (c : Constructor) : Json :=
  obj (member "description" (str c.description) ++ memberList "params" (c.params.map Param.toJson)
    ++ member? "return" (c.returns.map Return.toJson))

/-- The fields of a member. -/
def MemberDoc.fieldMembers (m : MemberDoc) : List (String × Json) :=
  member "name" (str m.name) ++ member "description" (str m.description) ++ m.access.toMember
    ++ flag "static" m.isStatic ++ flag "final" m.isFinal ++ text? "deprecated" m.deprecated
    ++ text? "see" m.see ++ text? "type" m.typeName
    ++ memberList "params" (m.params.map Param.toJson)
    ++ member? "return" (m.returns.map Return.toJson) ++ text? "default" m.defaultValue
    ++ flag "writeonce" m.writeOnce ++ flag "synthetic" m.synthetic

def MemberDoc.toJson (m : MemberDoc) : Json :=
  obj (m.fieldMembers ++ attributeMembers m.attributes)

/-- The fields of a class. -/
def ClassDoc.fieldMembers (c : ClassDoc) : List (String × Json) :=
  member "shortName" (str c.shortName) ++ member "name" (str c.name)
    ++ member "namespace" (str c.inNamespace) ++ text? "module" c.inModule
    ++ text? "file" c.inFile ++ text? "superclass" c.superclass
    ++ memberList "uses" (c.uses.map str) ++ memberList "innerClasses" (c.innerClasses.map str)
    ++ member "description" (str c.description) ++ c.access.toMember
    ++ text? "deprecated" c.deprecated
    ++ member "methods" (c.methods.toJson MemberDoc.toJson)
    ++ member "events" (c.events.toJson MemberDoc.toJson)
    ++ member "properties" (c.properties.toJson MemberDoc.toJson)
    ++ member "configs" (c.configs.toJson MemberDoc.toJson)
    ++ memberList "constructors" (c.constructors.map Constructor.toJson)

def ClassDoc.toJson (c : ClassDoc) : Json :=
  obj (c.fieldMembers ++ attributeMembers c.attributes)

def Submodule.toJson (s : Submodule) : Json :=
  obj (member "name" (str s.name) ++ text? "description" s.description)

/-- The fields of a module. -/
def ModuleDoc.fieldMembers (m : ModuleDoc) : List (String × Json) :=
  member "name" (str m.name) ++ text? "title" m.title
    ++ member "description" (str m.description) ++ member "classList" (strs m.classList)
    ++ member "fileList" (strs m.fileList) ++ member "submodules" (strs m.submodules)
    ++ member "subData" (m.subData.toJson Submodule.toJson)

def ModuleDoc.toJson (m : ModuleDoc) : Json :=
  obj (m.fieldMembers ++ attributeMembers m.attributes)

def FileDoc.toJson (f : FileDoc) : Json :=
  obj (member "name" (str f.name) ++ text? "module" f.inModule
    ++ member "classList" (strs f.classList))

def Model.toJson (m : Model) : Json :=
  obj (member "version" (str m.version) ++ member "majorVersion" (num m.majorVersion.toNat)
    ++ member "classMap" (m.classes.toJson ClassDoc.toJson)
    ++ member "modules" (m.modules.toJson ModuleDoc.toJson)
    ++ member "fileMap" (m.files.toJson FileDoc.toJson)
    ++ member "namespaces" (strs m.namespaces))

/-- The model as a document. -/
def Model.document (m : Model) : String := m.toJson.document ++ "\n"

end ApiDocs
