import ApiDocs.Json.Reader
import ApiDocs.Model.Basic

/-!
# Reading a model back

Readers for the model and its parts, one field list for each record. Members, classes and modules
are open records, whose unknown members are their attributes; all other records are closed. Every
field may be missing. The nesting bounds are what is left of 127 open brackets at the place where
an unknown member stands.
-/

namespace ApiDocs

open Json

/-- An access, by its word. -/
def Access.read : Reader Access :=
  readWord ([.pub, .priv, .prot].map fun a : Access => (a.word, a))

def Param.fields : List (RecordField Param) := [
  field "name" readText fun p v => { p with name := v },
  field "type" readText fun p v => { p with typeName := v },
  field "description" readText fun p v => { p with description := v }]

def Param.read : Reader Param := readClosed Param.fields {}

def Return.fields : List (RecordField Return) := [
  field "type" readText fun r v => { r with typeName := v },
  field "description" readText fun r v => { r with description := v }]

def Return.read : Reader Return := readClosed Return.fields {}

def Constructor.fields : List (RecordField Constructor) := [
  field "description" readText fun c v => { c with description := v },
  field "params" (readList Param.read) fun c v => { c with params := v },
  field "return" (readOption Return.read) fun c v => { c with returns := v }]

def Constructor.read : Reader Constructor := readClosed Constructor.fields {}

def MemberDoc.fields : List (RecordField MemberDoc) := [
  field "name" readText fun m v => { m with name := v },
  field "description" readText fun m v => { m with description := v },
  field "access" Access.read fun m v => { m with access := v },
  field "static" readBool fun m v => { m with isStatic := v },
  field "final" readBool fun m v => { m with isFinal := v },
  field "deprecated" (readOption readText) fun m v => { m with deprecated := v },
  field "see" (readOption readText) fun m v => { m with see := v },
  field "type" (readOption readText) fun m v => { m with typeName := v },
  field "params" (readList Param.read) fun m v => { m with params := v },
  field "return" (readOption Return.read) fun m v => { m with returns := v },
  field "default" (readOption readText) fun m v => { m with defaultValue := v },
  field "writeonce" readBool fun m v => { m with writeOnce := v },
  field "synthetic" readBool fun m v => { m with synthetic := v }]

def MemberDoc.read : Reader MemberDoc :=
  readOpen 122 MemberDoc.fields {} fun m v => { m with attributes := v }

def ClassDoc.fields : List (RecordField ClassDoc) := [
  field "shortName" readText fun c v => { c with shortName := v },
  field "name" readText fun c v => { c with name := v },
  field "namespace" readText fun c v => { c with inNamespace := v },
  field "module" (readOption readText) fun c v => { c with inModule := v },
  field "file" (readOption readText) fun c v => { c with inFile := v },
  field "superclass" (readOption readText) fun c v => { c with superclass := v },
  field "uses" (readList readText) fun c v => { c with uses := v },
  field "innerClasses" (readList readText) fun c v => { c with innerClasses := v },
  field "description" readText fun c v => { c with description := v },
  field "access" Access.read fun c v => { c with access := v },
  field "deprecated" (readOption readText) fun c v => { c with deprecated := v },
  field "methods" (readDict MemberDoc.read) fun c v => { c with methods := v },
  field "events" (readDict MemberDoc.read) fun c v => { c with events := v },
  field "properties" (readDict MemberDoc.read) fun c v => { c with properties := v },
  field "configs" (readDict MemberDoc.read) fun c v => { c with configs := v },
  field "constructors" (readList Constructor.read) fun c v => { c with constructors := v }]

def ClassDoc.read : Reader ClassDoc :=
  readOpen 124 ClassDoc.fields {} fun c v => { c with attributes := v }

def Submodule.fields : List (RecordField Submodule) := [
  field "name" readText fun s v => { s with name := v },
  field "description" (readOption readText) fun s v => { s with description := v }]

def Submodule.read : Reader Submodule := readClosed Submodule.fields {}

def ModuleDoc.fields : List (RecordField ModuleDoc) := [
  field "name" readText fun m v => { m with name := v },
  field "title" (readOption readText) fun m v => { m with title := v },
  field "description" readText fun m v => { m with description := v },
  field "classList" (readList readText) fun m v => { m with classList := v },
  field "fileList" (readList readText) fun m v => { m with fileList := v },
  field "submodules" (readList readText) fun m v => { m with submodules := v },
  field "subData" (readDict Submodule.read) fun m v => { m with subData := v }]

def ModuleDoc.read : Reader ModuleDoc :=
  readOpen 124 ModuleDoc.fields {} fun m v => { m with attributes := v }

def FileDoc.fields : List (RecordField FileDoc) := [
  field "name" readText fun f v => { f with name := v },
  field "module" (readOption readText) fun f v => { f with inModule := v },
  field "classList" (readList readText) fun f v => { f with classList := v }]

def FileDoc.read : Reader FileDoc := readClosed FileDoc.fields {}

def Model.fields : List (RecordField Model) := [
  field "version" readText fun m v => { m with version := v },
  field "majorVersion" readUInt32 fun m v => { m with majorVersion := v },
  field "classMap" (readDict ClassDoc.read) fun m v => { m with classes := v },
  field "modules" (readDict ModuleDoc.read) fun m v => { m with modules := v },
  field "fileMap" (readDict FileDoc.read) fun m v => { m with files := v },
  field "namespaces" (readList readText) fun m v => { m with namespaces := v }]

def Model.read : Reader Model := readClosed Model.fields {}

/-- The model that a document holds. -/
def Model.ofDocument (document : String) : Except Json.Fault Model :=
  readDocument Model.read document

end ApiDocs
