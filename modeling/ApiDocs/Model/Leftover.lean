import ApiDocs.Model.Basic

/-!
# Tags copied to what they document

Tags that the placing of a comment does not use up are copied to the documented class, member or
module, one at a time and with their first value. The first value stays: a slot that is filled
already is never overwritten, and a tag without a slot becomes an attribute.
-/

namespace ApiDocs

/-- A slot for a text that may be missing takes the first value given. -/
def fillSlot (slot : Option String) (value : String) : Option String :=
  match slot with
  | some old => some old
  | none => some value

/-- A description takes the first value that is not empty. -/
def fillText (text value : String) : String := if text.isEmpty then value else text

/-- An access that is not public stays. -/
def Access.narrow (old new : Access) : Access := if old = .pub then new else old

/-- Copies one tag to a member. -/
def MemberDoc.applyTag (m : MemberDoc) (tag value : String) : MemberDoc :=
  match Access.ofTag? tag with
  | some access => { m with access := m.access.narrow access }
  | none =>
    match tag with
    | "description" => { m with description := fillText m.description value }
    | "static" => { m with isStatic := true }
    | "final" => { m with isFinal := true }
    | "writeonce" => { m with writeOnce := true }
    | "deprecated" => { m with deprecated := fillSlot m.deprecated value }
    | "see" => { m with see := fillSlot m.see value }
    | "type" => { m with typeName := fillSlot m.typeName value }
    | "default" => { m with defaultValue := fillSlot m.defaultValue value }
    | _ => { m with attributes := m.attributes.insertNew tag value }

/-- Copies one tag to a class. -/
def ClassDoc.applyTag (c : ClassDoc) (tag value : String) : ClassDoc :=
  match Access.ofTag? tag with
  | some access => { c with access := c.access.narrow access }
  | none =>
    match tag with
    | "description" => { c with description := fillText c.description value }
    | "deprecated" => { c with deprecated := fillSlot c.deprecated value }
    | _ => { c with attributes := c.attributes.insertNew tag value }

/-- Copies one tag to a module. -/
def ModuleDoc.applyTag (m : ModuleDoc) (tag value : String) : ModuleDoc :=
  match tag with
  | "description" => { m with description := fillText m.description value }
  | "title" => { m with title := fillSlot m.title value }
  | _ => { m with attributes := m.attributes.insertNew tag value }

end ApiDocs
