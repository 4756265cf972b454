import ApiDocs.Proofs.Session.ClassEdit
import ApiDocs.Session.Block

/-!
# The elementary changes of a session

Reading one comment is a long composition, and it may stop half-way with a fault.
`Session.Change` says once what it is made of: each constructor is one elementary change together
with what is known when it happens, such as that the class it is about exists.

What a change does to the classes of the model is said by `Change.classesEvolve`. It has two
consequences that the later changes of one comment rely on: a class that exists stays
(`Changes.knows`), and a member that an author wrote stays a written one (`Changes.written`).
-/

namespace ApiDocs

namespace Session

/-- A class exists. -/
def Knows (s : Session) (cls : String) : Prop := s.model.classes.contains cls = true

/-- A class has a written member of the given kind and name. -/
def Written (s : Session) (cls : String) (kind : MemberKind) (name : String) : Prop :=
  ∃ c, s.model.classes.get? cls = some c ∧ c.HasWritten kind name

/-- What a comment documents is there to take its remaining tags: a member is a written one. -/
def Ready (s : Session) (target : Option Target) : Prop :=
  ∀ cls kind name, target = some (.member cls kind name) → s.Written cls kind name

/-- **The elementary changes** that the reading of comments is made of. -/
inductive Change : Session → Session → Prop
  -- the record of the reading and the context
  | warn (s : Session) (tokens : List String) (w : Warning) : Change s (s.warn tokens w)
  | log (s : Session) (notes : List Note) : Change s (s.log notes)
  | enterModule (s : Session) (name : Option String) : Change s (s.enterModule name)
  | enterNamespace (s : Session) (name : String) : Change s (s.enterNamespace name)
  | enterClass (s : Session) (cls : String) (known : s.Knows cls) : Change s (s.enterClass cls)
  -- a class may be defined or entered by any comment, before its subject is placed
  | defineClass (s : Session) (tokens : List String) (name : String) :
      Change s (s.defineClass tokens name)
  | addInner (s : Session) (outer inner : String) (other : outer ≠ inner) :
      Change s (s.modifyClass outer fun c =>
        { c with innerClasses := pushNew c.innerClasses inner })
  -- files and modules
  | enterFile (s : Session) (name : String) : Change s (s.enterFile name)
  | placeFile (s : Session) (file : String) (known : s.model.files.contains file = true) :
      Change s (s.placeFile file)
  | addModules (s : Session) (names : List String) : Change s (s.addModules names)
  | addSubmodule (s : Session) (mod sub : String) (description : Option String) :
      Change s (s.addSubmodule mod sub description)
  | describeModule (s : Session) (tokens : List String) (mod : String)
      (description : Option String) : Change s (s.describeModule tokens mod description)
  | drainInto (s : Session) (mod : String) : Change s (s.drainInto mod)
  -- the comment of a class
  | claimSubmodule (s : Session) (cls : String) (description : Option String) :
      Change s (s.claimSubmodule cls description)
  | markGlobal (s : Session) (tags : TagMap) (cls : String) (known : s.Knows cls) :
      Change s (s.markGlobal tags cls)
  | relateClass (s : Session) (cls : String) (tags : TagMap) (inner : Option String)
      (other : inner ≠ some cls) : Change s (s.modifyClass cls (relateClass tags inner))
  | placeClass (s : Session) (cls : String) (known : s.Knows cls) : Change s (s.placeClass cls)
  | listInFile (s : Session) (cls : String) (known : s.Knows cls) : Change s (s.listInFile cls)
  -- members; a config brings the events that it derives
  | insertMember (s : Session) (tokens : List String) (cls : String) (kind : MemberKind)
      (doc : MemberDoc) (known : s.Knows cls) (notConfig : kind ≠ .config)
      (written : doc.synthetic = false) : Change s (s.insertMember tokens cls kind doc)
  | insertConfig (s : Session) (tokens : List String) (cls name : String)
      (known : s.Knows cls) : Change s (s.insertConfig tokens cls name)
  | addConstructor (s : Session) (cls : String) (doc : Constructor) (known : s.Knows cls) :
      Change s (s.modifyClass cls fun c => { c with constructors := c.constructors ++ [doc] })
  | applyLeftovers (s : Session) (p : Placed) (ready : s.Ready p.target) :
      Change s (s.applyLeftovers p)
  | beginRoot (s : Session) : Change s s.beginRoot

/-- A chain of elementary changes. -/
abbrev Changes : Session → Session → Prop := Relation.ReflTransGen Change

/-! ### Members and derived events -/

section Insert

variable {s : Session} {cls : String} {c : ClassDoc} {kind : MemberKind}

/-- A member that is written already is reported, and nothing else happens. -/
theorem insertMember_of_written (tokens : List String) {doc : MemberDoc}
    (hc : s.model.classes.get? cls = some c) (hw : c.HasWritten kind doc.name) :
    s.insertMember tokens cls kind doc = s.warn tokens (.memberRedefined kind doc.name cls) := by
  obtain ⟨old, hold, hs⟩ := hw
  simp only [insertMember, hc, hold, hs]
  rfl

/-- A member that is written already is not touched. -/
theorem model_insertMember_of_written (tokens : List String) (doc : MemberDoc)
    (hc : s.model.classes.get? cls = some c) (hw : c.HasWritten kind doc.name) :
    (s.insertMember tokens cls kind doc).model = s.model := by
  rw [insertMember_of_written tokens hc hw]
  rfl

/-- A member for a free place is not reported. -/
theorem context_insertMember_of_free (tokens : List String) {doc : MemberDoc}
    (hc : s.model.classes.get? cls = some c) (free : ¬c.HasWritten kind doc.name) :
    (s.insertMember tokens cls kind doc).context = s.context := by
  simp only [insertMember, hc]
  cases hold : (c.members kind).get? doc.name with
  | none => rfl
  | some old =>
    have hs : old.synthetic = true := Bool.of_not_eq_false fun h => free ⟨old, hold, h⟩
    simp only [hs, if_true]
    rfl

/-- A member goes to a place that is free or taken by a derived one. -/
theorem model_insertMember_of_free (tokens : List String) (doc : MemberDoc)
    (hc : s.model.classes.get? cls = some c) (free : ¬c.HasWritten kind doc.name) :
    (s.insertMember tokens cls kind doc).model = s.model.modifyClass cls fun c =>
      c.setMembers kind ((c.members kind).insert doc.name doc) := by
  simp only [insertMember, hc]
  cases hold : (c.members kind).get? doc.name with
  | none => rfl
  | some old =>
    have hs : old.synthetic = true := Bool.of_not_eq_false fun h => free ⟨old, hold, h⟩
    simp only [hs, if_true]
    rfl

/-- A derived event is added to the class unless there is one of its name. -/
private theorem model_addDerivedEvent (hc : s.model.classes.get? cls = some c) (event : MemberDoc) :
    (addDerivedEvent cls s event).model = s.model.modifyClass cls fun c =>
      { c with events := c.events.insertNew event.name event } := by
  have hsame : ∀ c', s.model.classes.get? cls = some c' → c' = c :=
    fun c' hc' => Option.some.inj (hc'.symm.trans hc)
  rw [addDerivedEvent, hc]
  by_cases h : c.events.contains event.name = true
  · simp only [h, if_true]
    refine (Model.modifyClass_id s.model cls).symm.trans (Model.modifyClass_congr ?_)
    intro c' hc'
    rw [hsame c' hc', Dict.insertNew, if_pos h, id]
  · simp only [h, Bool.false_eq_true, if_false]
    refine Model.modifyClass_congr ?_
    intro c' hc'
    rw [hsame c' hc', Dict.insertNew, if_neg h]

/-- Derived events are added to the class all at once. -/
theorem model_foldl_addDerivedEvent (hc : s.model.classes.get? cls = some c)
    (events : List MemberDoc) :
    (events.foldl (addDerivedEvent cls) s).model =
      s.model.modifyClass cls (·.addNewEvents events) := by
  induction events generalizing s c with
  | nil => exact (Model.modifyClass_id s.model cls).symm
  | cons e rest ih =>
    have hstep := model_addDerivedEvent hc e
    have hc' : (addDerivedEvent cls s e).model.classes.get? cls =
        some { c with events := c.events.insertNew e.name e } := by
      rw [hstep, Model.get?_modifyClass, hc, Option.map_some, if_pos rfl]
    rw [List.foldl_cons, ih hc', hstep, Model.modifyClass_modifyClass]
    rfl

/-- Inserting a member touches the classes, the warnings and the log only. -/
theorem exists_insertMember_eq (s : Session) (tokens : List String) (cls : String)
    (kind : MemberKind) (doc : MemberDoc) :
    ∃ classes warnings notes, s.insertMember tokens cls kind doc =
      { model := { s.model with classes := classes }
        context := { s.context with warnings := warnings }
        notes := notes } := by
  unfold insertMember
  split
  · exact ⟨_, _, _, rfl⟩
  · dsimp only
    split
    · exact ⟨_, _, _, rfl⟩
    · split <;> exact ⟨_, _, _, rfl⟩

/-- Deriving events touches the classes and the log only. -/
theorem exists_foldl_addDerivedEvent_eq (s : Session) (cls : String) (events : List MemberDoc) :
    ∃ classes notes, events.foldl (addDerivedEvent cls) s =
      { model := { s.model with classes := classes }, context := s.context, notes := notes } := by
  induction events generalizing s with
  | nil => exact ⟨_, _, rfl⟩
  | cons e rest ih =>
    obtain ⟨classes, notes, h⟩ := ih (addDerivedEvent cls s e)
    refine ⟨classes, notes, h.trans ?_⟩
    unfold addDerivedEvent
    split
    · rfl
    · split <;> rfl

/-- A config touches only classes and the record of the reading. -/
theorem exists_insertConfig_eq (s : Session) (tokens : List String) (cls name : String) :
    ∃ classes warnings notes, s.insertConfig tokens cls name =
      { model := { s.model with classes := classes }
        context := { s.context with warnings := warnings }
        notes := notes } := by
  obtain ⟨classes, warnings, notes, h⟩ :=
    exists_insertMember_eq s tokens cls .config { name }
  obtain ⟨classes', notes', h'⟩ := exists_foldl_addDerivedEvent_eq
    (s.insertMember tokens cls .config { name }) cls
    (changeEvents name (s.insertMember tokens cls .config { name }).model.majorVersion)
  refine ⟨classes', warnings, notes', h'.trans ?_⟩
  rw [h]

end Insert

/-! ### What each change does to the classes -/

section Effects

variable {s s' : Session} {cls name : String} {kind : MemberKind}

/-- Defining a class brings a fresh one or none. -/
private theorem evolve_defineClass (s : Session) (tokens : List String) (name : String) :
    s.model.ClassesEvolve (s.defineClass tokens name).model := by
  rw [defineClass]
  split
  · exact .of_classes_eq rfl rfl
  · rename_i h
    refine .insertFresh (by simpa [Dict.contains] using h) ⟨s.namespaceName, name, rfl, rfl⟩

/-- Inserting a member is an edit of its class. -/
private theorem evolve_insertMember (tokens : List String) (known : s.Knows cls) {doc : MemberDoc}
    (notConfig : kind ≠ .config) (written : doc.synthetic = false) :
    s.model.ClassesEvolve (s.insertMember tokens cls kind doc).model := by
  obtain ⟨c, hc⟩ := Dict.contains_iff.1 known
  by_cases hw : c.HasWritten kind doc.name
  · have hm := model_insertMember_of_written tokens doc hc hw
    exact .of_classes_eq (by rw [hm]) (by rw [hm])
  · rw [model_insertMember_of_free tokens doc hc hw]
    exact .editClass hc (.insertMember c kind doc notConfig written hw)

/-- Inserting a config is an edit of its class, with the events that it derives. -/
private theorem evolve_insertConfig (tokens : List String) (known : s.Knows cls) :
    s.model.ClassesEvolve (s.insertConfig tokens cls name).model := by
  obtain ⟨c, hc⟩ := Dict.contains_iff.1 known
  rw [insertConfig]
  -- a repeated config still derives the events that are missing
  by_cases hw : c.HasWritten .config name
  · have hm := model_insertMember_of_written tokens { name } hc hw
    have hc' := hc
    rw [← hm] at hc'
    rw [model_foldl_addDerivedEvent hc', hm]
    exact .editClass hc (.repeatConfig c name hw)
  · have hm := model_insertMember_of_free tokens { name } hc hw
    have hc' : (s.insertMember tokens cls .config { name }).model.classes.get? cls =
        some { c with configs := c.configs.insert name { name } } := by
      rw [hm, Model.get?_modifyClass, hc, Option.map_some, if_pos rfl]
      rfl
    rw [model_foldl_addDerivedEvent hc', hm, Model.modifyClass_modifyClass]
    exact .editClass hc (.insertConfig c name hw)

/-- Copying the remaining tags is an edit of the class that takes them. -/
private theorem evolve_applyLeftovers (p : Placed) (ready : s.Ready p.target) :
    s.model.ClassesEvolve (s.applyLeftovers p).model := by
  rw [applyLeftovers]
  split
  · exact .modifyClass s.model _ fun c _ => .applyTags c p.tags.leftovers
  · rename_i cls kind name htarget
    obtain ⟨c, hc, hw⟩ := ready cls kind name htarget
    exact .editClass hc (.tagMember c kind name p.tags.leftovers hw)
  · exact .of_classes_eq rfl rfl
  · exact .of_classes_eq rfl rfl
  · exact .of_classes_eq rfl rfl

/-- **Classes evolve** under every change. -/
theorem Change.classesEvolve (h : Change s s') : s.model.ClassesEvolve s'.model := by
  cases h with
  | warn => exact .of_classes_eq rfl rfl
  | log => exact .of_classes_eq rfl rfl
  | enterModule name => cases name <;> exact .of_classes_eq rfl rfl
  | enterNamespace => exact .of_classes_eq rfl rfl
  | enterClass => exact .of_classes_eq rfl rfl
  | defineClass tokens name => exact evolve_defineClass s tokens name
  | addInner outer inner other =>
    exact .modifyClass s.model outer fun c _ => .addInner c inner other
  | enterFile => exact .of_classes_eq rfl rfl
  | placeFile file known =>
    rw [Session.placeFile]
    split <;> exact .of_classes_eq rfl rfl
  | addModules names => exact .addModules s.model names
  | addSubmodule => exact .of_classes_eq rfl rfl
  | describeModule tokens mod description =>
    unfold Session.describeModule
    cases description <;> dsimp only <;> split <;> exact .of_classes_eq rfl rfl
  | drainInto mod => exact .linkAll s.model mod s.context.pending
  | claimSubmodule cls description =>
    rw [Session.claimSubmodule]
    split <;> exact .of_classes_eq rfl rfl
  | markGlobal tags cls known =>
    rw [Session.markGlobal]
    split <;> exact .of_classes_eq rfl rfl
  | relateClass cls tags inner other =>
    exact .modifyClass s.model cls fun c _ => .relate c tags inner other
  | placeClass cls known =>
    rw [Session.placeClass]
    split
    · exact .linkClass s.model cls _
    · exact .of_classes_eq rfl rfl
  | listInFile cls known =>
    rw [Session.listInFile]
    split
    · exact .of_classes_eq rfl rfl
    · rename_i file _
      refine .trans (.modifyClass s.model cls fun c _ => .setFile c file) ?_
      exact .of_classes_eq rfl rfl
  | insertMember tokens cls kind doc known notConfig written =>
    exact evolve_insertMember tokens known notConfig written
  | insertConfig tokens cls name known => exact evolve_insertConfig tokens known
  | addConstructor cls doc known =>
    exact .modifyClass s.model cls fun c _ => .addConstructor c doc
  | applyLeftovers p ready => exact evolve_applyLeftovers p ready
  | beginRoot => exact .of_classes_eq rfl rfl

/-- So do chains of them. -/
theorem Changes.classesEvolve (h : Changes s s') : s.model.ClassesEvolve s'.model := by
  induction h with
  | refl => exact .of_classes_eq rfl rfl
  | tail _ h ih => exact ih.trans h.classesEvolve

/-- Classes never go away. -/
theorem Changes.knows (h : Changes s s') (hk : s.Knows cls) : s'.Knows cls :=
  h.classesEvolve.kept cls hk

/-- Written members never go away. -/
theorem Changes.written (h : Changes s s') (hw : s.Written cls kind name) :
    s'.Written cls kind name := by
  obtain ⟨c, hc, hw⟩ := hw
  exact h.classesEvolve.hasWritten hc hw

end Effects

/-! ### The current and the global class -/

section Context

variable {s s' : Session}

/-- The current class and the global class, where they are set, exist. -/
structure ContextKnown (s : Session) : Prop where
  inClass : ∀ cls, s.context.inClass = some cls → s.Knows cls
  globalClass : ∀ cls, s.context.globalClass = some cls → s.Knows cls

/-- Where a change leaves both classes of the context alone, they still exist after it. -/
theorem ContextKnown.of_eq (hs : s.ContextKnown) (h : Change s s')
    (hi : s'.context.inClass = s.context.inClass)
    (hg : s'.context.globalClass = s.context.globalClass) : s'.ContextKnown where
  inClass cls hcls := h.classesEvolve.kept cls (hs.inClass cls (hi ▸ hcls))
  globalClass cls hcls := h.classesEvolve.kept cls (hs.globalClass cls (hg ▸ hcls))

/-- The class that a comment defines exists from then on. -/
theorem knows_defineClass (s : Session) (tokens : List String) (name : String) :
    (s.defineClass tokens name).Knows (s.fullName name) := by
  rw [defineClass, Knows]
  split
  · assumption
  · simp

/-- The class that is defined is the current one, and no other is made global. -/
theorem context_defineClass (s : Session) (tokens : List String) (name : String) :
    (s.defineClass tokens name).context.inClass = some (s.fullName name) ∧
      (s.defineClass tokens name).context.globalClass = s.context.globalClass := by
  rw [defineClass]
  split <;> exact ⟨rfl, rfl⟩

/-- **Every change keeps the context sound**: the classes it names exist. -/
theorem Change.contextKnown (h : Change s s') (hs : s.ContextKnown) : s'.ContextKnown := by
  -- all but four changes leave both classes of the context alone
  have keep := fun hi hg => hs.of_eq h hi hg
  cases h with
  | warn => exact keep rfl rfl
  | log => exact keep rfl rfl
  | enterModule name => cases name <;> exact keep rfl rfl
  | enterNamespace => exact keep rfl rfl
  | enterClass cls known =>
    exact ⟨fun c hc => Option.some.inj hc ▸ known, fun c hc => hs.globalClass c hc⟩
  | defineClass tokens name =>
    obtain ⟨hi, hg⟩ := context_defineClass s tokens name
    refine ⟨fun c hc => ?_, fun c hc => ?_⟩
    · rw [hi] at hc
      exact Option.some.inj hc ▸ knows_defineClass s tokens name
    · rw [hg] at hc
      exact (evolve_defineClass s tokens name).kept c (hs.globalClass c hc)
  | addInner => exact keep rfl rfl
  | enterFile => exact keep rfl rfl
  | placeFile file known =>
    refine keep ?_ ?_ <;> rw [Session.placeFile] <;> split <;> rfl
  | addModules => exact keep rfl rfl
  | addSubmodule => exact keep rfl rfl
  | describeModule tokens mod description =>
    refine keep ?_ ?_ <;> unfold Session.describeModule <;> cases description <;>
      dsimp only <;> split <;> rfl
  | drainInto => exact keep rfl rfl
  | claimSubmodule cls description =>
    refine keep ?_ ?_ <;> rw [Session.claimSubmodule] <;> split <;> rfl
  | markGlobal tags cls known =>
    rw [Session.markGlobal]
    split
    · exact ⟨fun c hc => hs.inClass c hc, fun c hc => Option.some.inj hc ▸ known⟩
    · exact hs
  | relateClass => exact keep rfl rfl
  | placeClass cls known =>
    refine keep ?_ ?_ <;> rw [Session.placeClass] <;> split <;> rfl
  | listInFile cls known =>
    refine keep ?_ ?_ <;> rw [Session.listInFile] <;> split <;> rfl
  | insertMember tokens cls kind doc =>
    obtain ⟨classes, warnings, notes, heq⟩ := exists_insertMember_eq s tokens cls kind doc
    exact keep (by rw [heq]) (by rw [heq])
  | insertConfig tokens cls name =>
    obtain ⟨classes, warnings, notes, heq⟩ := exists_insertConfig_eq s tokens cls name
    exact keep (by rw [heq]) (by rw [heq])
  | addConstructor => exact keep rfl rfl
  | applyLeftovers p ready =>
    refine keep ?_ ?_ <;> rw [Session.applyLeftovers] <;> split <;> rfl
  | beginRoot => exact ⟨fun c hc => absurd hc (by simp [Session.beginRoot]), hs.globalClass⟩

/-- After chains of elementary changes the classes of the context exist. -/
theorem Changes.contextKnown (h : Changes s s') (hs : s.ContextKnown) : s'.ContextKnown := by
  induction h with
  | refl => exact hs
  | tail _ h ih => exact h.contextKnown ih

end Context

end Session

end ApiDocs
