import ApiDocs.Model.Basic
import ApiDocs.Text.Case

/-!
# Events derived from configs

Whoever declares a config also declares that its changes are announced. `changeEvents` gives the
synthetic events of a config. Up to major version 2 these are an event after and one before the
change, both with the old and the new value; from version 3 on there is one event with a facade
object.
-/

namespace ApiDocs

/-- A synthetic event with one parameter. -/
def MemberDoc.syntheticEvent (name description : String) (param : Param) : MemberDoc :=
  { name, description, params := [param], synthetic := true }

/-- The parameter of the events up to major version 2. -/
def valueChangeParam : Param where
  name := "event"
  typeName := "\x7boldValue: any, newValue: any\x7d"
  description := "An object containing the previous attribute value and the new value."

/-- The parameter of the event from major version 3 on. -/
def facadeParam : Param where
  name := "event"
  typeName := "Event.Facade"
  description := "An Event Facade object with the following attribute specific "
    ++ "properties added: <dl>"
    ++ "<dt>prevVal</dt><dd>The value of the attribute, prior to it being set</dd>"
    ++ "<dt>newVal</dt><dd>The value the attribute is to be set to</dd>"
    ++ "<dt>attrName</dt><dd>The name of the attribute being set</dd>"
    ++ "<dt>subAttrName</dt><dd>If setting a property within the attribute's "
    ++ "value, the name of the sub-attribute property being set</dd></dl>"

/-- The events that a config derives. -/
def changeEvents (config : String) (majorVersion : UInt32) : List MemberDoc :=
  if majorVersion > 2 then
    [.syntheticEvent (config ++ "ChangeEvent")
      ("Fires when the value for the configuration attribute '" ++ config ++ "' is changed. "
        ++ "You can listen for the event using the <a href=\"Attribute.html#method_on\">on</a> "
        ++ "method if you wish to be notified before the attribute's value has changed, or "
        ++ "using the <a href=\"Event.Target.html#method_after\">after</a> method if you wish "
        ++ "to be notified after the attribute's value has changed.")
      facadeParam]
  else
    [.syntheticEvent (config ++ "ChangeEvent")
      ("Fires when the value for the configuration attribute '" ++ config ++ "' changes.")
      valueChangeParam,
     .syntheticEvent ("before" ++ Text.capitalize config ++ "ChangeEvent")
      ("Fires before the value for the configuration attribute '" ++ config ++ "' changes. "
        ++ "Return false to cancel the attribute change.")
      valueChangeParam]

section ChangeEvents

variable {config : String} {v : UInt32} {e : MemberDoc}

theorem exists_eq_of_mem_changeEvents (h : e ∈ changeEvents config v) :
    ∃ name description param, e = .syntheticEvent name description param := by
  rw [changeEvents] at h
  split at h
  · exact ⟨_, _, _, List.mem_singleton.1 h⟩
  · rcases List.mem_cons.1 h with rfl | h
    · exact ⟨_, _, _, rfl⟩
    · exact ⟨_, _, _, List.mem_singleton.1 h⟩

theorem synthetic_of_mem_changeEvents (h : e ∈ changeEvents config v) : e.synthetic = true := by
  obtain ⟨_, _, _, rfl⟩ := exists_eq_of_mem_changeEvents h
  rfl

theorem attributes_of_mem_changeEvents (h : e ∈ changeEvents config v) : e.attributes = ∅ := by
  obtain ⟨_, _, _, rfl⟩ := exists_eq_of_mem_changeEvents h
  rfl

end ChangeEvents

/-- The major version that a version text names: its first character if that is a digit, else the
latest. An own version text of the library, if not empty, goes before that of the project. -/
def majorVersion (library : Option String) (project : String) : UInt32 :=
  let hint := (library.filter (!·.isEmpty)).getD project
  match hint.toList.head? with
  | some c => if Text.isAsciiDigit c then .ofNat (c.toNat - '0'.toNat) else 3
  | none => 3

end ApiDocs
