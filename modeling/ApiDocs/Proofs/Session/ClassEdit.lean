import Mathlib.Logic.Relation
import ApiDocs.Model.Link
import ApiDocs.Proofs.Model.Members
import ApiDocs.Session.Module

/-!
# The life of a class

`ClassDoc.Fresh` describes a class as it is created, and `ClassDoc.Edit` what may be done to it
afterwards. `Model.ClassesEvolve` compares two models by this: no class is lost, and every class
of the later model comes by edits from its earlier state or from a fresh one. So a property of
single classes that fresh classes have and edits keep is a property of all classes
(`Model.ClassesEvolve.forall_classes`).
-/

namespace ApiDocs

namespace ClassDoc

/-- A class has a member of the given kind and name that an author wrote. -/
def HasWritten (c : ClassDoc) (kind : MemberKind) (name : String) : Prop :=
  ∃ doc, (c.members kind).get? name = some doc ∧ doc.synthetic = false

/-- A member is written if it is left when derived ones are taken out. -/
theorem hasWritten_iff {c : ClassDoc} {kind : MemberKind} {name : String} :
    c.HasWritten kind name ↔ (c.members kind).written.contains name = true := by
  rw [Dict.contains_iff, HasWritten]
  simp [Dict.get?_written, Option.filter_eq_some_iff]

/-- A class right after it was created under the name `key`. -/
def Fresh (c : ClassDoc) (key : String) : Prop :=
  ∃ ns name, qualify ns name = (c.shortName, key) ∧
    c = { shortName := c.shortName, name := key, inNamespace := ns }

/-- Adds the events whose names are not taken, one after the other. -/
def addNewEvents (c : ClassDoc) (events : List MemberDoc) : ClassDoc :=
  events.foldl (fun c e => { c with events := c.events.insertNew e.name e }) c

/-- **What may be done to a class** of the name `key` in a model of major version `v`. -/
inductive Edit (v : UInt32) (key : String) : ClassDoc → ClassDoc → Prop
  | setModule (c : ClassDoc) (mod : String) : Edit v key c { c with inModule := some mod }
  | setFile (c : ClassDoc) (file : String) : Edit v key c { c with inFile := some file }
  | addInner (c : ClassDoc) (inner : String) (other : key ≠ inner) :
      Edit v key c { c with innerClasses := pushNew c.innerClasses inner }
  | relate (c : ClassDoc) (tags : TagMap) (inner : Option String) (other : inner ≠ some key) :
      Edit v key c (Session.relateClass tags inner c)
  | insertMember (c : ClassDoc) (kind : MemberKind) (doc : MemberDoc)
      (notConfig : kind ≠ .config) (written : doc.synthetic = false)
      (free : ¬c.HasWritten kind doc.name) :
      Edit v key c (c.setMembers kind ((c.members kind).insert doc.name doc))
  | insertConfig (c : ClassDoc) (name : String) (free : ¬c.HasWritten .config name) :
      Edit v key c
        (addNewEvents { c with configs := c.configs.insert name { name } } (changeEvents name v))
  | repeatConfig (c : ClassDoc) (name : String) (taken : c.HasWritten .config name) :
      Edit v key c (addNewEvents c (changeEvents name v))
  | addConstructor (c : ClassDoc) (doc : Constructor) :
      Edit v key c { c with constructors := c.constructors ++ [doc] }
  | applyTags (c : ClassDoc) (tags : List (String × String)) : Edit v key c (c.applyTags tags)
  | tagMember (c : ClassDoc) (kind : MemberKind) (name : String)
      (tags : List (String × String)) (written : c.HasWritten kind name) :
      Edit v key c (c.modifyMember kind name (·.applyTags tags))

/-- A chain of edits. -/
abbrev Edits (v : UInt32) (key : String) : ClassDoc → ClassDoc → Prop :=
  Relation.ReflTransGen (Edit v key)

/-! ### Members under edits -/

section Members

variable {v : UInt32} {key : String} {c c' : ClassDoc} {kind : MemberKind} {name : String}

/-- Only the members matter for what is written. -/
private theorem HasWritten.of_members_eq (h : c'.members kind = c.members kind)
    (hw : c.HasWritten kind name) : c'.HasWritten kind name := by
  rwa [HasWritten, h]

/-- Tags of a class touch its access, its texts and its attributes only. -/
theorem exists_applyTags_eq (c : ClassDoc) (tags : List (String × String)) :
    ∃ access description deprecated attributes, c.applyTags tags =
      { c with
        access := access, description := description, deprecated := deprecated
        attributes := attributes } := by
  induction tags generalizing c with
  | nil => exact ⟨_, _, _, _, rfl⟩
  | cons t rest ih =>
    obtain ⟨access, description, deprecated, attributes, h⟩ := ih (c.applyTag t.1 t.2)
    refine ⟨access, description, deprecated, attributes, h.trans ?_⟩
    unfold applyTag
    split
    · rfl
    · split <;> rfl

/-- The tags of a class do not concern its members. -/
theorem members_applyTags (c : ClassDoc) (tags : List (String × String)) :
    (c.applyTags tags).members = c.members := by
  obtain ⟨access, description, deprecated, attributes, h⟩ := c.exists_applyTags_eq tags
  rw [h]
  rfl

/-- Tags of a class leave its module and its file alone. -/
theorem links_applyTags (c : ClassDoc) (tags : List (String × String)) :
    (c.applyTags tags).inModule = c.inModule ∧ (c.applyTags tags).inFile = c.inFile := by
  obtain ⟨access, description, deprecated, attributes, h⟩ := c.exists_applyTags_eq tags
  rw [h]
  exact ⟨rfl, rfl⟩

/-- Tags never make a written member a derived one, or the other way round. -/
private theorem synthetic_applyTag (m : MemberDoc) (tag value : String) :
    (m.applyTag tag value).synthetic = m.synthetic := by
  unfold MemberDoc.applyTag
  split
  · rfl
  · split <;> rfl

/-- Tags never make a written member a derived one. -/
theorem synthetic_applyTags (m : MemberDoc) (tags : List (String × String)) :
    (m.applyTags tags).synthetic = m.synthetic := by
  induction tags generalizing m with
  | nil => rfl
  | cons t rest ih => exact (ih (m.applyTag t.1 t.2)).trans (synthetic_applyTag m t.1 t.2)

/-- Derived events are added to the events. -/
theorem addNewEvents_eq (c : ClassDoc) (events : List MemberDoc) :
    c.addNewEvents events = { c with events := c.events.derive events } := by
  induction events generalizing c with
  | nil => rfl
  | cons e rest ih => exact ih { c with events := c.events.insertNew e.name e }

/-- A derived event comes up where no event has its name. -/
theorem get?_events_addNewEvents (c : ClassDoc) (events : List MemberDoc) (name : String) :
    (c.addNewEvents events).events.get? name =
      (c.events.get? name).or (events.find? (·.name = name)) := by
  rw [addNewEvents_eq]
  exact c.events.get?_derive events name

/-- Adding events touches the events only. -/
theorem exists_addNewEvents_eq (c : ClassDoc) (events : List MemberDoc) :
    ∃ all, c.addNewEvents events = { c with events := all } :=
  ⟨_, c.addNewEvents_eq events⟩

/-- Derived events do not concern members of other kinds. -/
theorem members_addNewEvents (c : ClassDoc) (events : List MemberDoc)
    (h : kind ≠ .event) : (c.addNewEvents events).members kind = c.members kind := by
  obtain ⟨all, hall⟩ := c.exists_addNewEvents_eq events
  rw [hall]
  cases kind with
  | event => exact absurd rfl h
  | method => rfl
  | property => rfl
  | config => rfl

/-- Derived events leave the module and the file of a class alone. -/
theorem links_addNewEvents (c : ClassDoc) (events : List MemberDoc) :
    (c.addNewEvents events).inModule = c.inModule ∧
      (c.addNewEvents events).inFile = c.inFile := by
  obtain ⟨all, hall⟩ := c.exists_addNewEvents_eq events
  rw [hall]
  exact ⟨rfl, rfl⟩

/-- A written member stays while events are added to the free names. -/
theorem HasWritten.addNewEvents (hw : c.HasWritten kind name) (events : List MemberDoc) :
    (c.addNewEvents events).HasWritten kind name := by
  by_cases h : kind = .event
  · subst h
    obtain ⟨doc, hdoc, hs⟩ := hw
    refine ⟨doc, ?_, hs⟩
    have hdoc' : c.events.get? name = some doc := hdoc
    rw [show (c.addNewEvents events).members .event = (c.addNewEvents events).events from rfl,
      get?_events_addNewEvents, hdoc', Option.some_or]
  · exact hw.of_members_eq (members_addNewEvents c events h)

/-- A written member is not disturbed by inserting another, or one in a free place. -/
private theorem HasWritten.insert (hw : c.HasWritten kind name) {kind' : MemberKind}
    (doc : MemberDoc)
    (free : ¬c.HasWritten kind' doc.name) :
    (c.setMembers kind' ((c.members kind').insert doc.name doc)).HasWritten kind name := by
  obtain ⟨old, hold, hs⟩ := hw
  refine ⟨old, ?_, hs⟩
  rw [members_setMembers]
  split
  · rename_i hk
    subst hk
    have hne : name ≠ doc.name := by
      rintro rfl
      exact free ⟨old, hold, hs⟩
    rw [Dict.get?_insert, if_neg hne, hold]
  · exact hold

/-- **Edits keep what authors wrote.** -/
theorem Edit.hasWritten (e : Edit v key c c') (hw : c.HasWritten kind name) :
    c'.HasWritten kind name := by
  cases e with
  | setModule mod => exact hw.of_members_eq (by cases kind <;> rfl)
  | setFile file => exact hw.of_members_eq (by cases kind <;> rfl)
  | addInner inner other => exact hw.of_members_eq (by cases kind <;> rfl)
  | relate tags inner other => exact hw.of_members_eq (by cases kind <;> rfl)
  | insertMember kind' doc notConfig written free => exact hw.insert doc free
  | insertConfig name' free =>
    exact (hw.insert { name := name' } free).addNewEvents _
  | repeatConfig name' taken => exact hw.addNewEvents _
  | addConstructor doc => exact hw.of_members_eq (by cases kind <;> rfl)
  | applyTags tags => exact hw.of_members_eq (by rw [members_applyTags])
  | tagMember kind' name' tags written =>
    obtain ⟨doc, hdoc, hs⟩ := hw
    rw [HasWritten, modifyMember, members_setMembers]
    split
    · rename_i hk
      subst hk
      refine ⟨if name = name' then doc.applyTags tags else doc, ?_, ?_⟩
      · rw [Dict.get?_modify, hdoc, Option.map_some]
      · split
        · exact (synthetic_applyTags doc tags).trans hs
        · exact hs
    · exact ⟨doc, hdoc, hs⟩

/-- Written members stay through all edits. -/
private theorem Edits.hasWritten (e : Edits v key c c') (hw : c.HasWritten kind name) :
    c'.HasWritten kind name := by
  induction e with
  | refl => exact hw
  | tail _ e ih => exact e.hasWritten ih

end Members

end ClassDoc

/-! ### Comparing the classes of two models -/

/-- **The classes of a model evolve** into those of another of the same major version: none is
lost, and each comes by edits from its earlier state or from a fresh one. -/
structure Model.ClassesEvolve (m m' : Model) : Prop where
  version : m'.majorVersion = m.majorVersion
  kept : ∀ key, m.classes.contains key = true → m'.classes.contains key = true
  origin : ∀ key c', m'.classes.get? key = some c' →
    ∃ c, (m.classes.get? key = some c ∨ m.classes.get? key = none ∧ c.Fresh key) ∧
      ClassDoc.Edits m.majorVersion key c c'

/-- Adding modules changes the modules only. -/
theorem Model.exists_addModules_eq (m : Model) (names : List String) :
    ∃ modules, names.foldl Model.addModule m = { m with modules := modules } := by
  induction names generalizing m with
  | nil => exact ⟨m.modules, rfl⟩
  | cons name rest ih => exact ih (m.addModule name)

namespace Model.ClassesEvolve

variable {m m' m'' : Model}

/-- Changes apart from the classes are no edits. -/
theorem of_classes_eq (h : m'.classes = m.classes) (hv : m'.majorVersion = m.majorVersion) :
    ClassesEvolve m m' where
  version := hv
  kept key hk := by rwa [h]
  origin key c hc := ⟨c, .inl (by rwa [h] at hc), .refl⟩

theorem trans (h : ClassesEvolve m m') (h' : ClassesEvolve m' m'') : ClassesEvolve m m'' where
  version := h'.version.trans h.version
  kept key hk := h'.kept key (h.kept key hk)
  origin key c'' hc'' := by
    obtain ⟨c', hc' | ⟨hnone, hfresh⟩, hedits'⟩ := h'.origin key c'' hc''
    · obtain ⟨c, hc, hedits⟩ := h.origin key c' hc'
      exact ⟨c, hc, hedits.trans (h.version ▸ hedits')⟩
    · -- a class that is new in the last model is new altogether
      have hnone' : m.classes.get? key = none := by
        cases hm : m.classes.get? key with
        | none => rfl
        | some c =>
          obtain ⟨d, hd⟩ := Dict.contains_iff.1 (h.kept key (Dict.contains_of_get? hm))
          rw [hd] at hnone
          exact absurd hnone (by simp)
      exact ⟨c', .inr ⟨hnone', hfresh⟩, h.version ▸ hedits'⟩

/-- A change of one class evolves the classes if it is an edit of that one. -/
theorem modifyClass (m : Model) (name : String) {f : ClassDoc → ClassDoc}
    (hf : ∀ c, m.classes.get? name = some c → ClassDoc.Edit m.majorVersion name c (f c)) :
    ClassesEvolve m (m.modifyClass name f) where
  version := rfl
  kept key hk := by
    rw [Model.modifyClass, Dict.contains_modify]
    exact hk
  origin key c' hc' := by
    rw [get?_modifyClass] at hc'
    obtain ⟨c, hc, rfl⟩ := Option.map_eq_some_iff.1 hc'
    refine ⟨c, .inl hc, ?_⟩
    split
    · rename_i hk
      subst hk
      exact .single (hf c hc)
    · exact .refl

/-- One edit of a class that is there. -/
theorem editClass {name : String} {c : ClassDoc} (hc : m.classes.get? name = some c)
    {f : ClassDoc → ClassDoc} (e : ClassDoc.Edit m.majorVersion name c (f c)) :
    ClassesEvolve m (m.modifyClass name f) := by
  refine modifyClass m name fun c' hc' => ?_
  rw [hc, Option.some.injEq] at hc'
  subst hc'
  exact e

/-- A class that is linked is edited. -/
theorem linkClass (m : Model) (cls mod : String) : ClassesEvolve m (m.linkClass cls mod) :=
  (modifyClass m cls fun c _ => .setModule c mod).trans (of_classes_eq rfl rfl)

/-- What waits may be linked. -/
theorem linkAll (m : Model) (mod : String) (items : List Pending) :
    ClassesEvolve m (m.linkAll mod items) := by
  induction items generalizing m with
  | nil => exact of_classes_eq rfl rfl
  | cons item rest ih =>
    refine trans ?_ (ih (m.link mod item))
    cases item with
    | cls name => exact linkClass m name mod
    | file name => exact of_classes_eq rfl rfl

/-- Modules are no classes. -/
theorem addModules (m : Model) (names : List String) :
    ClassesEvolve m (names.foldl Model.addModule m) := by
  obtain ⟨modules, heq⟩ := m.exists_addModules_eq names
  rw [heq]
  exact of_classes_eq rfl rfl

/-- A class that is new must be a fresh one. -/
theorem insertFresh {key : String} {c : ClassDoc} (hnone : m.classes.get? key = none)
    (hc : c.Fresh key) :
    ClassesEvolve m { m with classes := m.classes.insert key c } where
  version := rfl
  kept k hk := by simp [hk]
  origin k c' hc' := by
    rw [Dict.get?_insert] at hc'
    split at hc'
    · rename_i hk
      subst hk
      cases hc'
      exact ⟨c, .inr ⟨hnone, hc⟩, .refl⟩
    · exact ⟨c', .inl hc', .refl⟩

/-- A property that fresh classes have and edits keep passes to the later model. -/
theorem forall_classes {P : String → ClassDoc → Prop} (h : ClassesEvolve m m')
    (fresh : ∀ key c, c.Fresh key → P key c)
    (edit : ∀ key c c', ClassDoc.Edit m.majorVersion key c c' → P key c → P key c')
    (hP : ∀ key c, m.classes.get? key = some c → P key c) :
    ∀ key c, m'.classes.get? key = some c → P key c := by
  intro key c' hc'
  obtain ⟨c, hc, hedits⟩ := h.origin key c' hc'
  have hPc : P key c := by
    rcases hc with hc | ⟨-, hc⟩
    · exact hP key c hc
    · exact fresh key c hc
  clear hc hc'
  induction hedits with
  | refl => exact hPc
  | tail _ e ih => exact edit key _ _ e ih

/-- A class keeps what authors wrote of it. -/
theorem hasWritten (h : ClassesEvolve m m') {key name : String} {kind : MemberKind}
    {c : ClassDoc} (hc : m.classes.get? key = some c) (hw : c.HasWritten kind name) :
    ∃ c', m'.classes.get? key = some c' ∧ c'.HasWritten kind name := by
  obtain ⟨c', hc'⟩ := Dict.contains_iff.1 (h.kept key (Dict.contains_of_get? hc))
  obtain ⟨c₀, hc₀ | ⟨hnone, -⟩, hedits⟩ := h.origin key c' hc'
  · rw [hc, Option.some.injEq] at hc₀
    subst hc₀
    exact ⟨c', hc', hedits.hasWritten hw⟩
  · rw [hc] at hnone
    exact absurd hnone (by simp)

end Model.ClassesEvolve

end ApiDocs
