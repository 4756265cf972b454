import ApiDocs.Proofs.Session.Congruence

/-!
# What the major version decides

The major version decides which events a config derives. **It decides nothing else**: two runs that
differ in it only have the same context and the same errors at every step, and their models are the
same but for derived events (`majorVersion_run`).

Two sessions are `Alike` if their contexts agree and their models do once the derived events and the
major version are left out (`Model.authored`). Every change of two such sessions leaves them alike
(`congruence_alike`), and so does every comment. Where a session looks at its model, a derived event
is never seen: a written event takes its place without a warning, as if it were not there, and tags
go to written members only.
-/

namespace ApiDocs

/-! ### What authors wrote -/

/-- A class without its derived events. -/
def ClassDoc.authored (c : ClassDoc) : ClassDoc := { c with events := c.events.written }

/-- **A model without its derived events** and without the major version. -/
def Model.authored (m : Model) : Model :=
  { m with majorVersion := 0, classes := m.classes.map fun _ c => c.authored }

namespace ClassDoc

variable (c : ClassDoc)

/-- A member that an author wrote is defined among the written ones. -/
private theorem authored_setMembers_define {doc : MemberDoc} (hdoc : doc.synthetic = false)
    (kind : MemberKind) :
    (c.setMembers kind ((c.members kind).define doc)).authored =
      c.authored.setMembers kind ((c.authored.members kind).define doc) := by
  cases kind with
  | event =>
    have hevents : (c.events.define doc).written = c.events.written.define doc :=
      c.events.written_define hdoc
    exact congrArg (fun events => { c with events := events }) hevents
  | method => rfl
  | property => rfl
  | config => rfl

/-- A change of members that keeps derived ones apart can be made before they are left out. -/
private theorem authored_modifyMember {f : MemberDoc → MemberDoc}
    (hf : ∀ m, (f m).synthetic = m.synthetic) (kind : MemberKind) (name : String) :
    (c.modifyMember kind name f).authored = c.authored.modifyMember kind name f := by
  cases kind with
  | event =>
    have hevents : (c.events.modify name f).written = c.events.written.modify name f :=
      c.events.written_modify name hf
    exact congrArg (fun events => { c with events := events }) hevents
  | method => rfl
  | property => rfl
  | config => rfl

/-- Derived events are left out. -/
private theorem authored_addNewEvents {events : List MemberDoc}
    (hevents : ∀ e ∈ events, e.synthetic = true) :
    (c.addNewEvents events).authored = c.authored := by
  have hwritten : (c.events.derive events).written = c.events.written :=
    c.events.written_derive hevents
  rw [addNewEvents_eq]
  exact congrArg (fun events => { c with events := events }) hwritten

/-- The tags of a class do not concern its members. -/
private theorem authored_applyTags (tags : List (String × String)) :
    (c.applyTags tags).authored = c.authored.applyTags tags := by
  induction tags generalizing c with
  | nil => rfl
  | cons t rest ih =>
    have hone : (c.applyTag t.1 t.2).authored = c.authored.applyTag t.1 t.2 := by
      unfold applyTag
      split
      · rfl
      · split <;> rfl
    refine (ih (c.applyTag t.1 t.2)).trans ?_
    rw [hone]
    rfl

/-- Derived events do not count as written. -/
private theorem hasWritten_authored {kind : MemberKind} {name : String} :
    c.authored.HasWritten kind name ↔ c.HasWritten kind name := by
  rw [hasWritten_iff, hasWritten_iff]
  cases kind with
  | event =>
    have hevents : (c.authored.members .event).written = (c.members .event).written :=
      c.events.written_written
    rw [hevents]
  | method => exact Iff.rfl
  | property => exact Iff.rfl
  | config => exact Iff.rfl

end ClassDoc

namespace Model

variable (m : Model)

/-- Leaving out derived events and the version keeps the classes. -/
private theorem get?_authored (cls : String) :
    m.authored.classes.get? cls = (m.classes.get? cls).map ClassDoc.authored :=
  Dict.get?_map _ m.classes cls

private theorem contains_authored (cls : String) :
    m.authored.classes.contains cls = m.classes.contains cls := by
  rw [Dict.contains, get?_authored, Option.isSome_map]
  rfl

/-- A change of a class is one of what authors wrote. -/
private theorem authored_modifyClass {f g : ClassDoc → ClassDoc}
    (hf : ∀ c, (f c).authored = g c.authored)
    (cls : String) : (m.modifyClass cls f).authored = m.authored.modifyClass cls g := by
  have hclasses : (m.classes.modify cls f).map (fun _ c => c.authored) =
      (m.classes.map fun _ c => c.authored).modify cls g := by
    refine Dict.ext_get? fun k => ?_
    rw [Dict.get?_map, Dict.get?_modify, Dict.get?_modify, Dict.get?_map, Option.map_map,
      Option.map_map]
    congr 1
    funext c
    by_cases hk : k = cls
    · simp [hk, hf]
    · simp [hk]
  exact congrArg (fun classes => { m with majorVersion := 0, classes := classes }) hclasses

private theorem authored_insertClass (cls : String) (c : ClassDoc) :
    Model.authored { m with classes := m.classes.insert cls c } =
      { m.authored with classes := m.authored.classes.insert cls c.authored } := by
  have hclasses : (m.classes.insert cls c).map (fun _ c => c.authored) =
      (m.classes.map fun _ c => c.authored).insert cls c.authored := by
    refine Dict.ext_get? fun k => ?_
    rw [Dict.get?_map, Dict.get?_insert, Dict.get?_insert, Dict.get?_map]
    split
    · rfl
    · rfl
  exact congrArg (fun classes => { m with majorVersion := 0, classes := classes }) hclasses

private theorem authored_linkClass (cls mod : String) :
    (m.linkClass cls mod).authored = m.authored.linkClass cls mod := by
  have hclass : (m.modifyClass cls fun c => { c with inModule := some mod }).authored =
      m.authored.modifyClass cls fun c => { c with inModule := some mod } := by
    refine m.authored_modifyClass (fun c => ?_) cls
    rfl
  exact congrArg (·.modifyModule mod fun d => { d with classList := pushNew d.classList cls })
    hclass

/-- What waits is linked in the same way without derived events. -/
private theorem authored_linkAll (mod : String) (items : List Pending) :
    (m.linkAll mod items).authored = m.authored.linkAll mod items := by
  induction items generalizing m with
  | nil => rfl
  | cons item rest ih =>
    have hone : (m.link mod item).authored = m.authored.link mod item := by
      cases item with
      | cls name => exact m.authored_linkClass name mod
      | file name => rfl
    refine (ih (m.link mod item)).trans ?_
    rw [hone]
    rfl

private theorem authored_addModules (names : List String) :
    (names.foldl addModule m).authored = names.foldl addModule m.authored := by
  induction names generalizing m with
  | nil => rfl
  | cons name rest ih => exact ih (m.addModule name)

variable {m}

/-- A change that respects what authors wrote, applied to two models alike. -/
private theorem authored_congr {m' : Model} {F : Model → Model}
    (hF : ∀ m, (F m).authored = F m.authored)
    (h : m'.authored = m.authored) : (F m').authored = (F m).authored := by
  rw [hF, hF, h]

end Model

/-! ### Sessions that differ in derived events only -/

namespace Session

/-- **Two sessions are alike** if nothing but derived events and the major version distinguishes
them; their logs may differ. -/
structure Alike (s s' : Session) : Prop where
  context : s'.context = s.context
  model : s'.model.authored = s.model.authored

/-- Alike sessions, with the same result. -/
def AlikeWith {α : Type} (o o' : Session × α) : Prop := o.1.Alike o'.1 ∧ o'.2 = o.2

theorem Alike.symm {s s' : Session} (h : s.Alike s') : s'.Alike s :=
  ⟨h.context.symm, h.model.symm⟩

theorem Alike.trans {s s' s'' : Session} (h : s.Alike s') (h' : s'.Alike s'') : s.Alike s'' :=
  ⟨h'.context.trans h.context, h'.model.trans h.model⟩

/-- Deriving events makes no difference. -/
private theorem alike_deriveEvents (s : Session) (cls name : String) (v : UInt32) :
    s.Alike ((changeEvents name v).foldl (addDerivedEvent cls) s) := by
  constructor
  · obtain ⟨classes, notes, heq⟩ := exists_foldl_addDerivedEvent_eq s cls (changeEvents name v)
    rw [heq]
  · rw [model_deriveEvents]
    refine (s.model.authored_modifyClass (g := id) (fun c => ?_) cls).trans
      (Model.modifyClass_id s.model.authored cls)
    exact c.authored_addNewEvents fun _ => synthetic_of_mem_changeEvents

/-- A member that is new is not reported. -/
private theorem context_insertMember_of_not_written {s : Session} (tokens : List String)
    {cls : String}
    {kind : MemberKind} {doc : MemberDoc} (hw : ¬s.Written cls kind doc.name) :
    (s.insertMember tokens cls kind doc).context = s.context := by
  cases hc : s.model.classes.get? cls with
  | none => rw [insertMember, hc]
  | some c => exact context_insertMember_of_free tokens hc fun hfree => hw ⟨c, hc, hfree⟩

namespace Alike

variable {s s' : Session} (h : s.Alike s')

include h

private theorem modules : s'.model.modules = s.model.modules :=
  (congrArg Model.modules h.model : s'.model.authored.modules = s.model.authored.modules)

/-- The same classes are known. -/
private theorem contains (cls : String) :
    s'.model.classes.contains cls = s.model.classes.contains cls := by
  rw [← Model.contains_authored, h.model, Model.contains_authored]

private theorem namespaceName : s'.namespaceName = s.namespaceName := by
  rw [Session.namespaceName, h.context]
  rfl

private theorem fullName (name : String) : s'.fullName name = s.fullName name := by
  rw [Session.fullName, h.namespaceName]
  rfl

variable (tokens tokens' : List String)

private theorem warn (w : Warning) : (s.warn tokens w).Alike (s'.warn tokens' w) := by
  rw [Session.warn, Session.warn, h.context]
  exact ⟨rfl, h.model⟩

private theorem enterModule (name : Option String) :
    (s.enterModule name).Alike (s'.enterModule name) := by
  cases name with
  | none => exact h
  | some name =>
    rw [Session.enterModule, Session.enterModule, h.context]
    exact ⟨rfl, h.model⟩

private theorem enterNamespace (name : String) :
    (s.enterNamespace name).Alike (s'.enterNamespace name) := by
  rw [Session.enterNamespace, Session.enterNamespace, h.context]
  exact ⟨rfl, Model.authored_congr (F := (·.addNamespace name)) (fun _ => rfl) h.model⟩

private theorem enterClass (cls : String) : (s.enterClass cls).Alike (s'.enterClass cls) := by
  rw [Session.enterClass, Session.enterClass, h.context]
  exact ⟨rfl, h.model⟩

private theorem enterFile (name : String) : (s.enterFile name).Alike (s'.enterFile name) := by
  rw [Session.enterFile, Session.enterFile, h.context]
  exact ⟨rfl, Model.authored_congr (F := (·.addFile name)) (fun _ => rfl) h.model⟩

private theorem modifyClass {f : ClassDoc → ClassDoc} (hf : ∀ c, (f c).authored = f c.authored)
    (cls : String) : (s.modifyClass cls f).Alike (s'.modifyClass cls f) :=
  ⟨h.context, Model.authored_congr (fun m => m.authored_modifyClass hf cls) h.model⟩

private theorem modifyModule (mod : String) (f : ModuleDoc → ModuleDoc) :
    (s.modifyModule mod f).Alike (s'.modifyModule mod f) :=
  ⟨h.context, Model.authored_congr (F := (·.modifyModule mod f)) (fun _ => rfl) h.model⟩

/-! #### Classes, files and modules -/

private theorem defineClass (name : String) :
    (s.defineClass tokens name).Alike (s'.defineClass tokens' name) := by
  rw [Session.defineClass, Session.defineClass, h.fullName, h.contains, h.namespaceName]
  dsimp only
  split
  · exact (h.enterClass _).warn tokens tokens' _
  · refine ⟨(h.enterClass _).context, ?_⟩
    dsimp only
    rw [Model.authored_insertClass, Model.authored_insertClass, h.model]

private theorem placeClass (cls : String) : (s.placeClass cls).Alike (s'.placeClass cls) := by
  rw [Session.placeClass, Session.placeClass, h.context]
  split
  · rename_i mod _
    exact ⟨rfl, Model.authored_congr (fun m => m.authored_linkClass cls mod) h.model⟩
  · rw [defer, defer, Session.log, Session.log, h.context]
    exact ⟨rfl, h.model⟩

private theorem placeFile (file : String) : (s.placeFile file).Alike (s'.placeFile file) := by
  rw [Session.placeFile, Session.placeFile, h.context]
  split
  · rename_i mod _
    exact ⟨rfl, Model.authored_congr (F := (·.linkFile file mod)) (fun _ => rfl) h.model⟩
  · rw [defer, defer, Session.log, Session.log, h.context]
    exact ⟨rfl, h.model⟩

private theorem drainInto (mod : String) : (s.drainInto mod).Alike (s'.drainInto mod) := by
  rw [Session.drainInto, Session.drainInto, h.context]
  exact ⟨rfl, Model.authored_congr (fun m => m.authored_linkAll mod s.context.pending) h.model⟩

private theorem addModules (names : List String) :
    (s.addModules names).Alike (s'.addModules names) := by
  rw [Session.addModules, Session.addModules, h.context]
  exact ⟨rfl, Model.authored_congr (fun m => m.authored_addModules names) h.model⟩

private theorem addSubmodule (mod sub : String) (description : Option String) :
    (s.addSubmodule mod sub description).Alike (s'.addSubmodule mod sub description) := by
  rw [Session.addSubmodule, Session.addSubmodule, h.context]
  dsimp only
  have hsub := h.modifyModule mod fun m =>
    { m with
      submodules := pushNew m.submodules sub
      subData := m.subData.insert sub
        { name := s.context.inClass.getD "", description } }
  exact ⟨congrArg (fun c => { c with openSubmodule := some sub }) hsub.context, hsub.model⟩

private theorem describeModule (mod : String) (description : Option String) :
    (s.describeModule tokens mod description).Alike
      (s'.describeModule tokens' mod description) := by
  rw [describeModule.eq_def, describeModule.eq_def, h.modules]
  dsimp only
  split
  · split
    · exact h.modifyModule mod _
    · exact h
  · split
    · exact h.warn tokens tokens' _
    · exact h

private theorem claimSubmodule (cls : String) (description : Option String) :
    (s.claimSubmodule cls description).Alike (s'.claimSubmodule cls description) := by
  have hclaimed (c : Context) : Alike { s with context := c } { s' with context := c } :=
    ⟨rfl, h.model⟩
  rw [Session.claimSubmodule, Session.claimSubmodule, h.context]
  dsimp only
  split
  · exact (hclaimed _).modifyModule _ _
  · exact hclaimed _

private theorem markGlobal (tags : TagMap) (cls : String) :
    (s.markGlobal tags cls).Alike (s'.markGlobal tags cls) := by
  rw [Session.markGlobal, Session.markGlobal, h.context]
  split
  · exact ⟨rfl, h.model⟩
  · exact h

private theorem listInFile (cls : String) : (s.listInFile cls).Alike (s'.listInFile cls) := by
  rw [Session.listInFile, Session.listInFile, h.context]
  split
  · exact h
  · rename_i file _
    have hclass := h.modifyClass (f := fun c => { c with inFile := some file }) (fun _ => rfl) cls
    refine ⟨rfl, ?_⟩
    exact Model.authored_congr (F := fun m => (m.addFile file).modifyFile file fun f =>
        { f with classList := pushNew f.classList cls }) (fun _ => rfl) hclass.model

/-! #### Members -/

private theorem written_iff (cls : String) (kind : MemberKind) (name : String) :
    s'.Written cls kind name ↔ s.Written cls kind name := by
  have hwritten (s : Session) : s.Written cls kind name ↔
      ∃ c, s.model.authored.classes.get? cls = some c ∧ c.HasWritten kind name := by
    simp [Written, Model.get?_authored, ClassDoc.hasWritten_authored]
  rw [hwritten, hwritten, h.model]

/-- A member is redefined in both sessions or in none. -/
private theorem insertMember (cls : String) (kind : MemberKind) {doc : MemberDoc}
    (hdoc : doc.synthetic = false) :
    (s.insertMember tokens cls kind doc).Alike (s'.insertMember tokens' cls kind doc) := by
  have hwritten := h.written_iff cls kind doc.name
  constructor
  -- a derived event may be replaced in one session only, but then neither of them warns
  · by_cases hw : s.Written cls kind doc.name
    · obtain ⟨c', hc', hw'⟩ := hwritten.2 hw
      obtain ⟨c, hc, hw⟩ := hw
      rw [insertMember_of_written tokens hc hw, insertMember_of_written tokens' hc' hw']
      exact (h.warn tokens tokens' _).context
    · rw [context_insertMember_of_not_written tokens hw,
        context_insertMember_of_not_written tokens' (mt hwritten.1 hw), h.context]
  · rw [model_insertMember, model_insertMember]
    exact Model.authored_congr
      (fun m => m.authored_modifyClass (fun c => c.authored_setMembers_define hdoc kind) cls)
      h.model

private theorem insertConfig (cls name : String) :
    (s.insertConfig tokens cls name).Alike (s'.insertConfig tokens' cls name) := by
  have hmember : (s.insertMember tokens cls .config { name }).Alike
      (s'.insertMember tokens' cls .config { name }) :=
    h.insertMember tokens tokens' cls .config rfl
  exact (alike_deriveEvents _ cls _ _).symm.trans (hmember.trans (alike_deriveEvents _ cls _ _))

/-- Tags that are copied to an event are copied to it among the written ones. -/
private theorem applyLeftovers (p : Placed) : (s.applyLeftovers p).Alike (s'.applyLeftovers p) := by
  rw [Session.applyLeftovers, Session.applyLeftovers]
  split
  · exact h.modifyClass (fun c => c.authored_applyTags _) _
  · refine h.modifyClass (fun c => c.authored_modifyMember (fun m => ?_) _ _) _
    exact ClassDoc.synthetic_applyTags m _
  · exact h.modifyModule _ _
  · exact h
  · exact h

end Alike

/-- **Every change leaves alike sessions alike.** -/
theorem congruence_alike : Congruence Alike where
  context h := congrArg Context.quiet h.context
  contains h := h.contains
  log h _ _ := ⟨h.context, h.model⟩
  warn h := h.warn
  enterModule h := h.enterModule
  enterNamespace h := h.enterNamespace
  enterClass h := h.enterClass
  defineClass h := h.defineClass
  modifyClass h cls f hf := by
    refine h.modifyClass (fun c => ?_) cls
    have hevents : (f c).events = c.events := (congrArg (·.events) (hf c c.events) :)
    rw [ClassDoc.authored, hevents]
    exact (hf c c.events.written).symm
  enterFile h := h.enterFile
  placeFile h := h.placeFile
  addModules h := h.addModules
  addSubmodule h := h.addSubmodule
  describeModule h := h.describeModule
  drainInto h := h.drainInto
  claimSubmodule h := h.claimSubmodule
  markGlobal h := h.markGlobal
  placeClass h := h.placeClass
  listInFile h := h.listInFile
  insertMember h tokens tokens' cls kind _ := h.insertMember tokens tokens' cls kind
  insertConfig h := h.insertConfig
  applyLeftovers h := h.applyLeftovers

namespace Alike

variable {s s' : Session} (h : s.Alike s')

include h

/-- **A comment leaves alike sessions alike** and gives the same result, also if it fails. -/
theorem readComment (tokens : List String) (following : Option String) :
    AlikeWith (s.readComment tokens following) (s'.readComment tokens following) :=
  congruence_alike.readComment h tokens following

/-- One input keeps sessions alike. -/
theorem step (i : Input) : (s.step i).Alike (s'.step i) := by
  cases i with
  | comment tokens following => exact (h.readComment tokens following).1
  | root =>
    rw [Session.step, Session.step, beginRoot, beginRoot, h.context]
    exact ⟨rfl, h.model⟩

/-- Whole runs keep sessions alike. -/
theorem run (inputs : List Input) : (s.run inputs).Alike (s'.run inputs) := by
  induction inputs generalizing s s' with
  | nil => exact h
  | cons i rest ih => exact ih (h.step i)

end Alike

/-- **The major version decides about derived events only.** Two runs that differ in it have the
same context after the same inputs, and the same model but for derived events; and every comment
that is read next gives the same result in both, success or the same fault. -/
theorem majorVersion_run (version : String) (v w : UInt32) (inputs : List Input) :
    let s := (start version v).run inputs
    let s' := (start version w).run inputs
    s'.context = s.context ∧ s'.model.authored = s.model.authored ∧
      ∀ tokens following,
        (s'.readComment tokens following).2 = (s.readComment tokens following).2 := by
  have hstart : (start version v).Alike (start version w) := ⟨rfl, rfl⟩
  have hrun := hstart.run inputs
  exact ⟨hrun.context, hrun.model, fun tokens following => (hrun.readComment tokens following).2⟩

/-- An event that one of the versions derives is written in both, and redefined in none. -/
example :
    let inputs : List Input := [.comment ["@class", "A"] none, .comment ["@config", "size"] none,
      .comment ["@event", "beforeSizeChangeEvent"] none]
    (((start "" 2).run inputs).model.classes.get? "A").map (·.events.keys) =
        some ["beforeSizeChangeEvent", "sizeChangeEvent"] ∧
      (((start "" 2).run inputs).model.authored.classes.get? "A").map (·.events.keys) =
        some ["beforeSizeChangeEvent"] ∧
      ((start "" 2).run inputs).context.warnings = [] := by
  decide +kernel

end Session

end ApiDocs
