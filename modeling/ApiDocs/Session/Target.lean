import ApiDocs.Model.Leftover
import ApiDocs.Session.Basic

/-!
# Where the remaining tags go

A comment that has been placed documents one thing, its `Target`. The tags that placing it did not
use are copied there.
-/

namespace ApiDocs

/-- What a placed comment documents. -/
inductive Target where
  | cls (name : String)
  | member (cls : String) (kind : MemberKind) (name : String)
  | mod (name : String)
  | file
  deriving DecidableEq, Repr

/-- What is known of a comment after its subject was handled: the tags not used so far, and what
the comment documents. -/
structure Placed where
  tags : TagMap
  target : Option Target := none
  deriving DecidableEq, Repr

/-- A step that may fail; the session is kept in either case. -/
abbrev Outcome (α : Type) := Session × Except Fault.Cause α

/-- Copies the first values of tags to a member. -/
def MemberDoc.applyTags (m : MemberDoc) (tags : List (String × String)) : MemberDoc :=
  tags.foldl (fun m t => m.applyTag t.1 t.2) m

/-- Copies the first values of tags to a class. -/
def ClassDoc.applyTags (c : ClassDoc) (tags : List (String × String)) : ClassDoc :=
  tags.foldl (fun c t => c.applyTag t.1 t.2) c

/-- Copies the first values of tags to a module. -/
def ModuleDoc.applyTags (m : ModuleDoc) (tags : List (String × String)) : ModuleDoc :=
  tags.foldl (fun m t => m.applyTag t.1 t.2) m

/-- Changes a member of a class. -/
def ClassDoc.modifyMember (c : ClassDoc) (kind : MemberKind) (name : String)
    (f : MemberDoc → MemberDoc) : ClassDoc :=
  c.setMembers kind ((c.members kind).modify name f)

/-- Copies the first values of the remaining tags to what a comment documents. -/
def Session.applyLeftovers (s : Session) (p : Placed) : Session :=
  match p.target with
  | some (.cls name) => s.modifyClass name (·.applyTags p.tags.leftovers)
  | some (.member cls kind name) =>
    s.modifyClass cls (·.modifyMember kind name (·.applyTags p.tags.leftovers))
  | some (.mod name) => s.modifyModule name (·.applyTags p.tags.leftovers)
  | some .file => s
  | none => s

end ApiDocs
