import ApiDocs.Dict

/-!
# The documentation model

What a run gathers from the comments of a project: classes with their members, modules, files and
namespaces. Classes, modules and files refer to each other by name, and `Model` keeps each kind in
a dictionary by name. Tags without a meaning of their own are kept as **attributes** of what they
were written for.
-/

namespace ApiDocs

/-- Who may use a class or a member. -/
inductive Access where
  /-- Everyone. -/
  | pub
  /-- The class itself only. -/
  | priv
  /-- The class and its subclasses. -/
  | prot
  deriving DecidableEq, Repr

/-- The word for an access. -/
def Access.word : Access → String
  | .pub => "public"
  | .priv => "private"
  | .prot => "protected"

/-- The access that a tag grants, if it is a tag for access. -/
def Access.ofTag? : String → Option Access
  | "public" => some .pub
  | "private" => some .priv
  | "protected" => some .prot
  | _ => none

/-- The four kinds of class members. -/
inductive MemberKind where
  | method
  | event
  | property
  | config
  deriving DecidableEq, Repr

/-- The word for a kind of member. -/
def MemberKind.word : MemberKind → String
  | .method => "method"
  | .event => "event"
  | .property => "property"
  | .config => "config"

/-- A parameter of a method, an event or a constructor. -/
structure Param where
  name : String := ""
  typeName : String := ""
  description : String := ""
  deriving DecidableEq, Repr

/-- What a method or a constructor returns. -/
structure Return where
  typeName : String := ""
  description : String := ""
  deriving DecidableEq, Repr

/-- A constructor of a class. -/
structure Constructor where
  description : String := ""
  params : List Param := []
  returns : Option Return := none
  deriving DecidableEq, Repr

/-- A member of a class. -/
structure MemberDoc where
  name : String := ""
  description : String := ""
  access : Access := .pub
  isStatic : Bool := false
  isFinal : Bool := false
  /-- Given if the member is deprecated; the explanation may be empty. -/
  deprecated : Option String := none
  see : Option String := none
  typeName : Option String := none
  params : List Param := []
  returns : Option Return := none
  defaultValue : Option String := none
  writeOnce : Bool := false
  /-- Derived from a config rather than written by an author. -/
  synthetic : Bool := false
  attributes : Dict String := ∅
  deriving DecidableEq, Repr

/-- A class. -/
structure ClassDoc where
  /-- The name without its namespace. -/
  shortName : String := ""
  /-- The full name, under which the model keeps the class. -/
  name : String := ""
  inNamespace : String := ""
  inModule : Option String := none
  inFile : Option String := none
  superclass : Option String := none
  /-- The classes mixed in. -/
  uses : List String := []
  innerClasses : List String := []
  description : String := ""
  access : Access := .pub
  deprecated : Option String := none
  methods : Dict MemberDoc := ∅
  events : Dict MemberDoc := ∅
  properties : Dict MemberDoc := ∅
  configs : Dict MemberDoc := ∅
  constructors : List Constructor := []
  attributes : Dict String := ∅
  deriving DecidableEq, Repr

namespace ClassDoc

/-- The members of one kind. -/
def members (c : ClassDoc) : MemberKind → Dict MemberDoc
  | .method => c.methods
  | .event => c.events
  | .property => c.properties
  | .config => c.configs

/-- Replaces the members of one kind. -/
def setMembers (c : ClassDoc) (kind : MemberKind) (ms : Dict MemberDoc) : ClassDoc :=
  match kind with
  | .method => { c with methods := ms }
  | .event => { c with events := ms }
  | .property => { c with properties := ms }
  | .config => { c with configs := ms }

@[simp] theorem members_setMembers (c : ClassDoc) (kind k : MemberKind) (ms : Dict MemberDoc) :
    (c.setMembers kind ms).members k = if k = kind then ms else c.members k := by
  cases kind <;> cases k <;> simp [setMembers, members]

theorem setMembers_members (c : ClassDoc) (kind : MemberKind) :
    c.setMembers kind (c.members kind) = c := by
  cases kind <;> rfl

end ClassDoc

/-- A part of a module. -/
structure Submodule where
  /-- The class that documents the part. -/
  name : String := ""
  description : Option String := none
  deriving DecidableEq, Repr

/-- A module. -/
structure ModuleDoc where
  name : String := ""
  title : Option String := none
  description : String := ""
  /-- The classes of the module, in the order in which they were found. -/
  classList : List String := []
  fileList : List String := []
  submodules : List String := []
  subData : Dict Submodule := ∅
  attributes : Dict String := ∅
  deriving DecidableEq, Repr

/-- A source file. -/
structure FileDoc where
  name : String := ""
  inModule : Option String := none
  classList : List String := []
  deriving DecidableEq, Repr

/-- The documentation of a project. -/
structure Model where
  /-- The version of the documented project. -/
  version : String := ""
  /-- The major version of the library that the project builds on; it decides which events a
  config derives. -/
  majorVersion : UInt32 := 0
  classes : Dict ClassDoc := ∅
  modules : Dict ModuleDoc := ∅
  files : Dict FileDoc := ∅
  /-- The namespaces in the order of their first declaration. -/
  namespaces : List String := []
  deriving DecidableEq, Repr

/-- Appends a text to a list that does not hold it. -/
def pushNew (list : List String) (item : String) : List String :=
  if item ∈ list then list else list ++ [item]

theorem mem_pushNew {list : List String} {item x : String} :
    x ∈ pushNew list item ↔ x ∈ list ∨ x = item := by
  rw [pushNew]
  split
  · rename_i h
    refine ⟨.inl, ?_⟩
    rintro (hx | rfl)
    · exact hx
    · exact h
  · simp

theorem nodup_pushNew {list : List String} (h : list.Nodup) (item : String) :
    (pushNew list item).Nodup := by
  rw [pushNew]
  split
  · exact h
  · rename_i hi
    refine List.nodup_append.2 ⟨h, by simp, fun a ha b hb => ?_⟩
    rw [List.mem_singleton.1 hb]
    rintro rfl
    exact hi ha

theorem mem_foldl_pushNew {items list : List String} {x : String} :
    x ∈ items.foldl pushNew list ↔ x ∈ list ∨ x ∈ items := by
  induction items generalizing list with
  | nil => simp
  | cons item rest ih => simp only [List.foldl_cons, ih, mem_pushNew, List.mem_cons, or_assoc]

theorem nodup_foldl_pushNew {list : List String} (h : list.Nodup) (items : List String) :
    (items.foldl pushNew list).Nodup := by
  induction items generalizing list with
  | nil => exact h
  | cons item rest ih => exact ih (nodup_pushNew h item)

namespace Model

/-- Makes sure that a module exists. -/
def addModule (m : Model) (name : String) : Model :=
  { m with modules := m.modules.insertNew name { name := name } }

/-- Makes sure that a file exists. -/
def addFile (m : Model) (name : String) : Model :=
  { m with files := m.files.insertNew name { name := name } }

/-- Makes sure that a namespace is listed. -/
def addNamespace (m : Model) (name : String) : Model :=
  { m with namespaces := pushNew m.namespaces name }

/-- Changes a class, if it exists. -/
def modifyClass (m : Model) (name : String) (f : ClassDoc → ClassDoc) : Model :=
  { m with classes := m.classes.modify name f }

/-- Changes a module, which is created first if need be. -/
def modifyModule (m : Model) (name : String) (f : ModuleDoc → ModuleDoc) : Model :=
  { m.addModule name with modules := (m.addModule name).modules.modify name f }

/-- Changes a file, if it exists. -/
def modifyFile (m : Model) (name : String) (f : FileDoc → FileDoc) : Model :=
  { m with files := m.files.modify name f }

/-! ### What the changes do to each dictionary -/

@[simp] theorem get?_modifyClass (m : Model) (name k : String) (f : ClassDoc → ClassDoc) :
    (m.modifyClass name f).classes.get? k =
      (m.classes.get? k).map fun c => if k = name then f c else c :=
  Dict.get?_modify m.classes name k f

@[simp] theorem get?_modifyFile (m : Model) (name k : String) (f : FileDoc → FileDoc) :
    (m.modifyFile name f).files.get? k =
      (m.files.get? k).map fun d => if k = name then f d else d :=
  Dict.get?_modify m.files name k f

@[simp] theorem get?_addFile (m : Model) (name k : String) :
    (m.addFile name).files.get? k =
      if k = name then some ((m.files.get? name).getD { name := name }) else m.files.get? k :=
  Dict.get?_insertNew m.files name k _

@[simp] theorem get?_addModule (m : Model) (name k : String) :
    (m.addModule name).modules.get? k =
      if k = name then some ((m.modules.get? name).getD { name := name })
      else m.modules.get? k :=
  Dict.get?_insertNew m.modules name k _

@[simp] theorem get?_modifyModule (m : Model) (name k : String) (f : ModuleDoc → ModuleDoc) :
    (m.modifyModule name f).modules.get? k =
      if k = name then some (f ((m.modules.get? name).getD { name := name }))
      else m.modules.get? k := by
  have h : (m.modifyModule name f).modules.get? k =
      ((m.addModule name).modules.get? k).map fun d => if k = name then f d else d :=
    Dict.get?_modify (m.addModule name).modules name k f
  rw [h, get?_addModule]
  by_cases hk : k = name
  · simp [hk]
  · simp [hk]

theorem modifyClass_modifyClass (m : Model) (name : String) (f g : ClassDoc → ClassDoc) :
    (m.modifyClass name f).modifyClass name g = m.modifyClass name (g ∘ f) := by
  simp only [modifyClass, Dict.modify_modify]

theorem modifyClass_congr {m : Model} {name : String} {f g : ClassDoc → ClassDoc}
    (h : ∀ c, m.classes.get? name = some c → f c = g c) :
    m.modifyClass name f = m.modifyClass name g := by
  simp only [modifyClass, Dict.modify_congr h]

theorem modifyClass_id (m : Model) (name : String) : m.modifyClass name id = m := by
  simp only [modifyClass, Dict.modify_id]

theorem modifyClass_of_none {m : Model} {name : String} (h : m.classes.get? name = none)
    (f : ClassDoc → ClassDoc) : m.modifyClass name f = m := by
  refine (modifyClass_congr fun c hc => ?_).trans (modifyClass_id m name)
  rw [h] at hc
  cases hc

theorem modifyModule_id (m : Model) (name : String) :
    m.modifyModule name id = m.addModule name := by
  simp only [modifyModule, Dict.modify_id]

@[simp] theorem modules_modifyClass (m : Model) (name : String) (f : ClassDoc → ClassDoc) :
    (m.modifyClass name f).modules = m.modules := rfl

@[simp] theorem files_modifyClass (m : Model) (name : String) (f : ClassDoc → ClassDoc) :
    (m.modifyClass name f).files = m.files := rfl

@[simp] theorem classes_modifyFile (m : Model) (name : String) (f : FileDoc → FileDoc) :
    (m.modifyFile name f).classes = m.classes := rfl

@[simp] theorem modules_modifyFile (m : Model) (name : String) (f : FileDoc → FileDoc) :
    (m.modifyFile name f).modules = m.modules := rfl

@[simp] theorem classes_addFile (m : Model) (name : String) :
    (m.addFile name).classes = m.classes := rfl

@[simp] theorem modules_addFile (m : Model) (name : String) :
    (m.addFile name).modules = m.modules := rfl

@[simp] theorem classes_addModule (m : Model) (name : String) :
    (m.addModule name).classes = m.classes := rfl

@[simp] theorem files_addModule (m : Model) (name : String) :
    (m.addModule name).files = m.files := rfl

@[simp] theorem classes_modifyModule (m : Model) (name : String)
    (f : ModuleDoc → ModuleDoc) : (m.modifyModule name f).classes = m.classes := rfl

@[simp] theorem files_modifyModule (m : Model) (name : String) (f : ModuleDoc → ModuleDoc) :
    (m.modifyModule name f).files = m.files := rfl

end Model

end ApiDocs
