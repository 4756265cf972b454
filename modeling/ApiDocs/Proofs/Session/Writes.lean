import ApiDocs.Proofs.Session.Links
import ApiDocs.Proofs.Session.Placing

/-!
# What placing a comment writes to

`Session.Write` lists the single writes to a session that placing a comment is made of, and each
function that places a part of a comment is a chain of them (`Session.Writes`). A few writes are to
a `Part` that only some comments write to, so a chain comes with the parts that it may write to,
and with the modules that its comment names: a write to any other module is to the open one. The
elementary changes of `Session.Change` are coarser, and tell no comment from another.

**A relation that holds of the single writes holds of all that placing a comment does**
(`Writes.rel`, `writes_place`), and so what a comment keeps has to be shown for each write only,
not for each function.
-/

namespace ApiDocs

/-- What only some comments write to. -/
inductive Session.Part where
  | innerClasses
  /-- The submodules of the modules, and the data kept for them. -/
  | submodules
  /-- The current file. With it a new file may come up. -/
  | currentFile
  /-- The members of the classes and the reports of a member that is redefined. -/
  | members
  /-- Whatever takes the tags that are left of a comment. -/
  | leftovers
  deriving DecidableEq

/-- The parts that comments about a subject write to. -/
def Subject.parts : Subject → List Session.Part
  | file => [.currentFile]
  | cls => [.innerClasses, .submodules]
  | mod => [.submodules]
  | method | event | property | attr | config => [.members]
  | nothing => []

/-- A comment about a member of any kind writes to the members. -/
private theorem Subject.parts_of_isMember {subject : Subject} (h : subject.isMember = true) :
    subject.parts = [.members] := by
  cases subject with
  | method | event | property | attr | config => rfl
  | file | cls | mod | nothing => cases h

namespace Session

/-- **A single write** of a comment that names some modules, and the part that it is to. -/
inductive Write (named : List String) : Option Part → Session → Session → Prop
  -- the record of the reading and the context
  | seek (s : Session) (inClass : Option String) (warnings : List Warning) (notes : List Note)
      (others : ∀ w ∈ warnings, w.isRedefinition = false) :
      Write named none s
        { s with
          context :=
            { s.context with inClass := inClass, warnings := s.context.warnings ++ warnings }
          notes := notes }
  | redefine (s : Session) (tokens : List String) (w : Warning) :
      Write named (some .members) s (s.warn tokens w)
  | remember (s : Session) (globalClass openSubmodule : Option String) :
      Write named none s
        { s with
          context :=
            { s.context with globalClass := globalClass, openSubmodule := openSubmodule } }
  | defer (s : Session) (item : Pending) (closed : s.context.inModule = none) :
      Write named none s (s.defer item)
  | drain (s : Session) : Write named none s { s with context := { s.context with pending := [] } }
  -- classes and their members
  | modifyClass (s : Session) (cls : String) (inModule inFile : ClassDoc → Option String)
      (constructors : ClassDoc → List Constructor) :
      Write named none s (s.modifyClass cls fun c =>
        { c with inModule := inModule c, inFile := inFile c, constructors := constructors c })
  | relateClass (s : Session) (cls : String) (tags : TagMap) (inner : Option String) :
      Write named (some .innerClasses) s (s.modifyClass cls (Session.relateClass tags inner))
  | insertMember (s : Session) (cls : String) (kind : MemberKind) (doc : MemberDoc)
      (bare : doc.attributes = ∅) :
      Write named (some .members) s (s.modifyClass cls fun c =>
        c.setMembers kind ((c.members kind).insert doc.name doc))
  | tagClass (s : Session) (cls : String) (tags : List (String × String)) :
      Write named (some .leftovers) s (s.modifyClass cls (·.applyTags tags))
  | tagMember (s : Session) (cls : String) (kind : MemberKind) (name : String)
      (tags : List (String × String)) :
      Write named (some .leftovers) s
        (s.modifyClass cls (·.modifyMember kind name (·.applyTags tags)))
  -- modules and files
  | modifyModule (s : Session) (mod : String) (classList fileList : ModuleDoc → List String)
      (description : ModuleDoc → String) (opened : s.context.inModule = some mod ∨ mod ∈ named) :
      Write named none s (s.modifyModule mod fun d =>
        { d with classList := classList d, fileList := fileList d, description := description d })
  | describePart (s : Session) (mod : String) (submodules : ModuleDoc → List String)
      (subData : ModuleDoc → Dict Submodule)
      (opened : s.context.inModule = some mod ∨ mod ∈ named) :
      Write named (some .submodules) s (s.modifyModule mod fun d =>
        { d with submodules := submodules d, subData := subData d })
  | tagModule (s : Session) (mod : String) (tags : List (String × String))
      (opened : s.context.inModule = some mod ∨ mod ∈ named) :
      Write named (some .leftovers) s (s.modifyModule mod (·.applyTags tags))
  | modifyFile (s : Session) (file : String) (f : FileDoc → FileDoc) :
      Write named none s { s with model := s.model.modifyFile file f }
  | addFile (s : Session) (file : String) (current : s.context.inFile = some file) :
      Write named none s { s with model := s.model.addFile file }
  | enterFile (s : Session) (file : String) :
      Write named (some .currentFile) s (s.enterFile file)

/-- A chain of writes, all of which may be to the given parts. -/
def Writes (named : List String) (parts : List Part) : Session → Session → Prop :=
  Relation.ReflTransGen fun s s' => ∃ part, (∀ p, part = some p → p ∈ parts) ∧ Write named part s s'

variable {named : List String} {parts : List Part}

namespace Writes

variable {s s' s'' : Session}

theorem refl (s : Session) : Writes named parts s s := Relation.ReflTransGen.refl

theorem trans (h : Writes named parts s s') (h' : Writes named parts s' s'') :
    Writes named parts s s'' :=
  Relation.ReflTransGen.trans h h'

private theorem of_write (h : Write named none s s') : Writes named parts s s' :=
  Relation.ReflTransGen.single ⟨none, nofun, h⟩

private theorem of_write_part {part : Part} (h : Write named (some part) s s')
    (hpart : part ∈ parts) :
    Writes named parts s s' :=
  Relation.ReflTransGen.single ⟨some part, fun _ hp => Option.some.inj hp ▸ hpart, h⟩

/-- **What the writes to some parts do, chains of them do.** -/
theorem rel {R : Session → Session → Prop} (h : Writes named parts s s') (refl : ∀ s, R s s)
    (trans : ∀ s s' s'', R s s' → R s' s'' → R s s'')
    (write : ∀ part s s', (∀ p, part = some p → p ∈ parts) → Write named part s s' → R s s') :
    R s s' := by
  induction h with
  | refl => exact refl s
  | tail _ h ih =>
    obtain ⟨part, hpart, hwrite⟩ := h
    exact trans _ _ _ ih (write part _ _ hpart hwrite)

/-- A chain that writes to some parts writes to more. -/
theorem mono {parts' : List Part} (h : Writes named parts s s') (hparts : parts ⊆ parts') :
    Writes named parts' s s' :=
  h.rel .refl (fun _ _ _ => .trans) fun part _ _ hpart hwrite =>
    Relation.ReflTransGen.single ⟨part, fun p hp => hparts (hpart p hp), hwrite⟩

end Writes

/-- Looking for a class writes to no part. -/
private theorem Seeks.writes {s s' : Session} (h : s.Seeks s') : Writes named parts s s' := by
  obtain ⟨inClass, ws, notes, hws, rfl⟩ := h
  exact .of_write (.seek s inClass ws notes hws)

variable (s : Session) (tokens : List String) (tags : TagMap)

/-! ### Members -/

private theorem writes_insertMember (cls : String) (kind : MemberKind) {doc : MemberDoc}
    (bare : doc.attributes = ∅) :
    Writes named [.members] s (s.insertMember tokens cls kind doc) := by
  have hadded : Writes named [.members] s (s.modifyClass cls fun c =>
      c.setMembers kind ((c.members kind).insert doc.name doc)) :=
    .of_write_part (.insertMember s cls kind doc bare) List.mem_cons_self
  unfold insertMember
  split
  · exact .refl _
  · dsimp only
    split
    · exact hadded
    · split
      · exact hadded.trans (seeks_log _ _).writes
      · exact .of_write_part (.redefine s tokens _) List.mem_cons_self

/-- Derived events are new members without attributes. -/
private theorem writes_foldl_addDerivedEvent (cls : String) {events : List MemberDoc}
    (bare : ∀ e ∈ events, e.attributes = ∅) :
    Writes named [.members] s (events.foldl (addDerivedEvent cls) s) := by
  induction events generalizing s with
  | nil => exact .refl _
  | cons e events ih =>
    obtain ⟨he, hevents⟩ := List.forall_mem_cons.1 bare
    have hevent : Writes named [.members] s (addDerivedEvent cls s e) := by
      rw [addDerivedEvent]
      split
      · exact .refl _
      · split
        · exact (s.seeks_log _).writes
        · exact .of_write_part (.insertMember s cls .event e he) List.mem_cons_self
    exact hevent.trans (ih _ hevents)

/-- The insertion of a member without attributes writes to the members only. -/
private theorem writes_insert (i : Insertion) (bare : i.doc.attributes = ∅) :
    Writes named [.members] s (s.insert tokens i) := by
  rw [insert]
  split
  · exact (s.writes_insertMember tokens i.cls .config rfl).trans
      (writes_foldl_addDerivedEvent _ _ fun _ => attributes_of_mem_changeEvents)
  · exact s.writes_insertMember tokens _ _ bare

/-- A comment about a member writes to the members only. -/
private theorem PlacesMember.writes {s : Session} {tags : TagMap} {o : Outcome Placed}
    (h : s.PlacesMember tokens tags o) : Writes named [.members] s o.1 := by
  cases h with
  | unnamed => exact .refl _
  | failed seeks => exact seeks.writes
  | inserted seeks known kind name =>
    have hbare : (describedMember tags kind name).attributes = ∅ := by cases kind <;> rfl
    exact seeks.writes.trans (writes_insert _ tokens _ hbare)

/-- A constructor is no member; it is kept with its class. -/
theorem writes_placeConstructor : Writes named parts s (s.placeConstructor tokens tags).1 := by
  obtain ⟨s₁, hseeks, heq | ⟨cls, doc, heq⟩⟩ := s.placeConstructor_cases tokens tags
  · rw [heq]
    exact hseeks.writes
  · rw [heq]
    exact hseeks.writes.trans (.of_write
      (.modifyClass s₁ cls (·.inModule) (·.inFile) (·.constructors ++ [doc])))

/-! ### Modules -/

section Modules

variable {mod : String} (hmod : s.context.inModule = some mod ∨ mod ∈ named)

include hmod

/-- A link writes to the item that is linked and to the lists of the module. -/
private theorem writes_link (item : Pending) :
    Writes named parts s { s with model := s.model.link mod item } := by
  cases item with
  | cls name =>
    have hclass :
        Writes named parts s (s.modifyClass name fun c => { c with inModule := some mod }) :=
      .of_write (.modifyClass s name (fun _ => some mod) (·.inFile) (·.constructors))
    exact hclass.trans (.of_write
      (.modifyModule _ mod (fun d => pushNew d.classList name) (·.fileList) (·.description) hmod))
  | file name =>
    have hfile : Writes named parts s { s with model := s.model.modifyFile name fun f =>
        { f with inModule := some mod } } := .of_write (.modifyFile s name _)
    exact hfile.trans (.of_write
      (.modifyModule _ mod (·.classList) (fun d => pushNew d.fileList name) (·.description) hmod))

/-- What waits is linked, item by item, and no longer waits. -/
theorem writes_drainInto : Writes named parts s (s.drainInto mod) := by
  have hlink (items : List Pending) :
      Writes named parts s { s with model := s.model.linkAll mod items } := by
    generalize hs' : s = s' at hmod ⊢
    clear hs'
    induction items generalizing s' with
    | nil => exact .refl _
    | cons item items ih =>
      exact (s'.writes_link hmod item).trans
        (ih { s' with model := s'.model.link mod item } hmod)
  exact ((hlink s.context.pending).trans (.of_write (.drain _))).trans (seeks_log _ _).writes

theorem writes_describeModule (description : Option String) :
    Writes named parts s (s.describeModule tokens mod description) := by
  unfold describeModule
  dsimp only
  split
  · split
    · rename_i text _
      exact .of_write (.modifyModule s mod (·.classList) (·.fileList) (fun _ => text) hmod)
    · exact .refl _
  · split
    · exact (s.seeks_warn tokens rfl).writes
    · exact .refl _

theorem writes_describePart (alone : Bool) :
    Writes named [.submodules] s (s.describePart tokens mod tags alone).1 := by
  rw [describePart]
  split
  · rename_i sub _
    have hpart : Writes named [.submodules] s (s.modifyModule mod fun d =>
        { d with
          submodules := pushNew d.submodules sub
          subData := d.subData.insert sub
            { name := s.context.inClass.getD "", description := tags.first "description" } }) :=
      .of_write_part (.describePart s mod (fun d => pushNew d.submodules sub) _ hmod)
        List.mem_cons_self
    exact hpart.trans (.of_write (.remember _ s.context.globalClass _))
  · exact s.writes_describeModule tokens hmod _

end Modules

/-- A module that exists is written to without a change. -/
theorem writes_addModules {names : List String} (h : ∀ mod ∈ names, mod ∈ named) :
    Writes named parts s (s.addModules names) := by
  have hadd : Writes named parts s { s with model := names.foldl Model.addModule s.model } := by
    induction names generalizing s with
    | nil => exact .refl _
    | cons name names ih =>
      obtain ⟨hname, hnames⟩ := List.forall_mem_cons.1 h
      have hfirst : Writes named parts s (s.modifyModule name id) :=
        .of_write (.modifyModule s name (·.classList) (·.fileList) (·.description) (.inr hname))
      rw [modifyModule, Model.modifyModule_id] at hfirst
      exact hfirst.trans (ih { s with model := s.model.addModule name } hnames)
  exact hadd.trans (.of_write (.remember _ s.context.globalClass none))

section PlaceModule

variable (h : ∀ mod ∈ tags.moduleNames, mod ∈ named)

include h

private theorem writes_placeModule (alone : Bool) :
    Writes named [.submodules] s (s.placeModule tokens tags alone).1 := by
  have hadd : Writes named [.submodules] s (s.addModules tags.moduleNames) :=
    s.writes_addModules h
  rw [placeModule, ← TagMap.moduleNames]
  dsimp only
  split
  · exact hadd
  · rename_i mod hlast
    have hnamed : mod ∈ named := h mod (List.mem_of_getLast? hlast)
    refine (hadd.trans (writes_describePart _ tokens _ (.inr hnamed) alone)).trans
      (writes_drainInto _ ?_)
    cases hopen : ((s.addModules tags.moduleNames).describePart tokens mod (tags.erase "module")
        alone).1.context.inModule with
    | none => exact .inr hnamed
    | some opened => exact .inl rfl

/-- The module tags of a comment about a class are placed as those of a module. -/
theorem writes_placeOwnModule :
    Writes named [.submodules] s (s.placeOwnModule tokens tags).1 := by
  rw [placeOwnModule]
  split
  · exact s.writes_placeModule tokens tags h false
  · exact .refl _

end PlaceModule

/-! ### Classes and files -/

theorem writes_claimSubmodule (cls : String) (description : Option String) :
    Writes named [.submodules] s (s.claimSubmodule cls description) := by
  have hclaimed : Writes named [.submodules] s
      { s with context := { s.context with openSubmodule := none } } :=
    .of_write (.remember s s.context.globalClass none)
  rw [claimSubmodule]
  split
  · rename_i mod _ hopen
    exact hclaimed.trans (.of_write_part (.describePart _ mod (·.submodules) _ (.inl hopen))
      List.mem_cons_self)
  · exact hclaimed

theorem writes_markGlobal (cls : String) : Writes named parts s (s.markGlobal tags cls) := by
  rw [markGlobal]
  split
  · exact .of_write (.remember s _ s.context.openSubmodule)
  · exact .refl _

private theorem writes_placeClass (cls : String) : Writes named parts s (s.placeClass cls) := by
  rw [placeClass]
  split
  · rename_i mod hopen
    exact s.writes_link (.inl hopen) (.cls cls)
  · rename_i hnone
    exact (s.seeks_log _).writes.trans (.of_write (.defer _ (.cls cls) hnone))

/-- A file without a module waits for one. -/
private theorem writes_placeFile (file : String) : Writes named parts s (s.placeFile file) := by
  rw [placeFile]
  split
  · rename_i mod hopen
    exact s.writes_link (.inl hopen) (.file file)
  · rename_i hnone
    exact (s.seeks_log _).writes.trans (.of_write (.defer _ (.file file) hnone))

private theorem writes_listInFile (cls : String) : Writes named parts s (s.listInFile cls) := by
  rw [listInFile]
  split
  · exact .refl _
  · rename_i file hfile
    have hclass :
        Writes named parts s (s.modifyClass cls fun c => { c with inFile := some file }) :=
      .of_write (.modifyClass s cls (·.inModule) (fun _ => some file) (·.constructors))
    exact (hclass.trans (.of_write (.addFile _ file hfile))).trans
      (.of_write (.modifyFile _ file _))

theorem writes_placeFileMarker :
    Writes named [.currentFile] s (s.placeFileMarker tags).1 := by
  rw [placeFileMarker]
  split
  · exact .refl _
  · rename_i name _
    exact (Writes.of_write_part (.enterFile s name) List.mem_cons_self).trans
      (writes_placeFile _ name)

variable (named) in
/-- What is done to a class after it claimed its submodule. -/
theorem writes_after_claim (cls : String) (inner : Option String) :
    Writes named [.innerClasses] s ((((s.markGlobal tags cls).modifyClass cls
      (relateClass tags inner)).placeClass cls).listInFile cls) := by
  have hrelate (s : Session) :
      Writes named [.innerClasses] s (s.modifyClass cls (relateClass tags inner)) :=
    .of_write_part (.relateClass s cls tags inner) List.mem_cons_self
  exact (((s.writes_markGlobal tags cls).trans (hrelate _)).trans (writes_placeClass _ cls)).trans
    (writes_listInFile _ cls)

variable (named) in
/-- What is done to a class after its module tags were placed. -/
theorem writes_after_modules (cls : String) (description inner : Option String) :
    Writes named [.innerClasses, .submodules] s
      (((((s.claimSubmodule cls description).markGlobal tags cls).modifyClass cls
        (relateClass tags inner)).placeClass cls).listInFile cls) :=
  ((s.writes_claimSubmodule cls description).mono (by decide)).trans
    ((writes_after_claim named _ tags cls inner).mono (by decide))

/-- A comment about a class writes to the submodules for its module tags and to the inner
classes. -/
private theorem writes_placeClassComment {name : String} (hname : tags.name? "class" = some name)
    (h : ∀ mod ∈ tags.moduleNames, mod ∈ named) (inner : Option String) :
    Writes named [.innerClasses, .submodules] (s.defineClass tokens name)
      (s.placeClassComment tokens tags inner).1 := by
  have hnames : ∀ mod ∈ TagMap.moduleNames (tags.erase "class"), mod ∈ named := by
    rwa [TagMap.moduleNames_erase_of_ne tags (by decide)]
  have hown := (s.defineClass tokens name).writes_placeOwnModule tokens _ hnames
  rw [placeClassComment, hname]
  exact (hown.mono (by decide)).trans (writes_after_modules named _ _ _ _ _)

/-! ### Whole comments -/

/-- A module that a comment documents is named by it. -/
private theorem mem_moduleNames_of_target {outer : Option String} {mod : String}
    (h : (s.placeSubject tokens tags outer).2.toOption.bind Placed.target = some (.mod mod)) :
    mod ∈ tags.moduleNames := by
  revert h
  refine s.placeSubject_cases tokens tags outer
    (P := fun o => o.2.toOption.bind Placed.target = some (.mod mod) → mod ∈ tags.moduleNames)
    (fun _ o hplaces h => absurd h (hplaces.target_ne_mod tokens mod)) (fun _ => ?_) (fun _ => ?_)
    (fun _ => ?_) fun _ s' _ h => ?_
  · rw [placeFileMarker]
    split <;> intro h <;> cases h
  · rw [placeClassComment]
    split <;> intro h <;> cases h
  · rw [placeModule, ← TagMap.moduleNames]
    dsimp only
    split
    · intro h
      cases h
    · rename_i last hlast
      intro h
      cases h
      exact List.mem_of_getLast? hlast
  · cases h

/-- The remaining tags go to what the comment documents, which is a module only if it is named. -/
private theorem writes_applyLeftovers {p : Placed}
    (h : ∀ mod, p.target = some (.mod mod) → mod ∈ named) :
    Writes named [.leftovers] s (s.applyLeftovers p) := by
  rw [applyLeftovers]
  split
  · exact .of_write_part (.tagClass s _ _) List.mem_cons_self
  · exact .of_write_part (.tagMember s _ _ _ _) List.mem_cons_self
  · rename_i mod hmod
    exact .of_write_part (.tagModule s mod _ (.inr (h mod hmod))) List.mem_cons_self
  · exact .refl _
  · exact .refl _

/-- The session after the class that a comment declares was defined. -/
def defineDeclared : Session :=
  match Subject.ofTags tags, tags.name? "class" with
  | .cls, some name => s.defineClass tokens name
  | _, _ => s

/-- At most one class comes up when a comment declares one. -/
theorem onlyClasses_defineDeclared : s.OnlyClasses (s.defineDeclared tokens tags) := by
  rw [defineDeclared]
  split
  · exact s.onlyClasses_defineClass tokens _
  · exact .refl s

variable {tags} in
/-- Only a comment about a class declares one. -/
theorem defineDeclared_of_ne (h : Subject.ofTags tags ≠ .cls) :
    s.defineDeclared tokens tags = s := by
  rw [defineDeclared]
  cases hsubject : Subject.ofTags tags with
  | cls => exact absurd hsubject h
  | file | mod | method | event | property | attr | config | nothing => rfl

/-- **The subject of a comment writes to its own parts only**, once the class that the comment
declares was defined. -/
theorem writes_placeSubject (outer : Option String) :
    Writes tags.moduleNames (Subject.ofTags tags).parts (s.defineDeclared tokens tags)
      (s.placeSubject tokens tags outer).1 := by
  refine s.placeSubject_cases tokens tags outer
    (P := fun o => Writes tags.moduleNames (Subject.ofTags tags).parts
      (s.defineDeclared tokens tags) o.1)
    (fun hmember o h => ?_) (fun hsubject => ?_) (fun hsubject => ?_) (fun hsubject => ?_)
    fun hsubject s' h => ?_
  · rw [s.defineDeclared_of_ne tokens (by rintro hsubject; rw [hsubject] at hmember; cases hmember),
      Subject.parts_of_isMember hmember]
    exact h.writes tokens
  · rw [s.defineDeclared_of_ne tokens (by simp [hsubject]), hsubject]
    exact s.writes_placeFileMarker tags
  · rw [defineDeclared, hsubject]
    cases hname : tags.name? "class" with
    | none =>
      rw [placeClassComment, hname]
      exact .refl _
    | some name =>
      exact s.writes_placeClassComment tokens tags hname (fun _ h => h) outer
  · rw [s.defineDeclared_of_ne tokens (by simp [hsubject]), hsubject]
    exact s.writes_placeModule tokens tags (fun _ h => h) true
  · rw [s.defineDeclared_of_ne tokens (by simp [hsubject])]
    exact h.writes

/-- What follows the subject of a comment writes to nothing but what takes the remaining tags. -/
theorem writes_after_subject (outer : Option String) :
    Writes tags.moduleNames [.leftovers] (s.placeSubject tokens tags outer).1
      (s.place tokens tags outer).1 :=
  s.after_subject tokens tags outer (fun s => .refl s) (fun _ _ _ => .trans)
    (fun s tags => s.writes_placeConstructor tokens tags) fun s' _ htarget =>
      s'.writes_applyLeftovers fun _ hmod =>
        s.mem_moduleNames_of_target tokens tags (htarget.trans hmod)

/-- **Placing a comment writes to the parts of its subject**, and to what takes the tags that are
left, once the class that it declares was defined. -/
theorem writes_place (outer : Option String) :
    Writes tags.moduleNames (.leftovers :: (Subject.ofTags tags).parts)
      (s.defineDeclared tokens tags) (s.place tokens tags outer).1 :=
  ((s.writes_placeSubject tokens tags outer).mono (List.subset_cons_self _ _)).trans
    ((s.writes_after_subject tokens tags outer).mono (by simp))

end Session

end ApiDocs
