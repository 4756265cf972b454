import Mathlib.Data.List.Infix
import ApiDocs.Proofs.Session.DerivedEvents

/-!
# What growth means for a model

Reading comments adds to the model and takes nothing away. `Model.Grows` says what that means part
by part: an entry of a dictionary stays and grows in its turn (`Dict.Grows`), a list is only
extended at its end, and a field that an author has set once stays as it is (`Kept`).

A derived event may still be replaced by a written one, so for a member growth says more once an
author has written it (`MemberDoc.Keeps`). That makes the growth of a class depend on what its
derived events look like: **every edit of a class whose events and configs agree makes it grow**
(`ClassDoc.Grows.of_edit`), and so do all classes of a model that evolves into another
(`Model.ClassesEvolve.grows`).
-/

namespace ApiDocs

/-! ### Fields that are set once -/

/-- A value stays once it is set. -/
def Kept {α : Type} (set : α → Prop) (old new : α) : Prop := set old → new = old

namespace Kept

variable {α : Type} {set : α → Prop} {a b c : α}

theorem refl (a : α) : Kept set a a := fun _ => rfl

theorem trans (h : Kept set a b) (h' : Kept set b c) : Kept set a c := by
  intro ha
  have hb : b = a := h ha
  subst hb
  exact h' ha

end Kept

/-- A slot that was filled keeps its value. -/
private theorem kept_fillSlot (slot : Option String) (value : String) :
    Kept (·.isSome = true) slot (fillSlot slot value) := by
  intro h
  cases slot with
  | none => cases h
  | some old => rfl

/-- A slot that was filled is not filled again. -/
private theorem kept_orElse (slot new : Option String) :
    Kept (·.isSome = true) slot (slot <|> new) := by
  intro h
  cases slot with
  | none => cases h
  | some old => rfl

/-- A text that was not empty stays. -/
private theorem kept_fillText (text value : String) : Kept (· ≠ "") text (fillText text value) := by
  intro h
  rw [fillText, if_neg]
  rwa [String.isEmpty_iff]

/-- An access that was given stays. -/
private theorem kept_narrow (old new : Access) : Kept (· ≠ .pub) old (old.narrow new) := by
  intro h
  rw [Access.narrow, if_neg h]

/-- A flag that was raised stays so. -/
private theorem kept_flag (flag : Bool) : Kept (· = true) flag true := fun h => h.symm

/-! ### Lists -/

theorem prefix_pushNew (list : List String) (item : String) : list <+: pushNew list item := by
  rw [pushNew]
  split
  · exact List.prefix_refl list
  · exact List.prefix_append list [item]

/-- A list to which items are pushed keeps what it had, in front. -/
private theorem prefix_foldl_pushNew (list items : List String) :
    list <+: items.foldl pushNew list := by
  induction items generalizing list with
  | nil => exact List.prefix_refl list
  | cons item items ih => exact (prefix_pushNew list item).trans (ih (pushNew list item))

/-! ### Dictionaries -/

namespace Dict

variable {α : Type} {R : α → α → Prop} {d d' d'' : Dict α}

/-- Every entry of a dictionary is there in another, with a value that is related to the old. -/
def Grows (R : α → α → Prop) (d d' : Dict α) : Prop :=
  ∀ key v, d.get? key = some v → ∃ v', d'.get? key = some v' ∧ R v v'

namespace Grows

theorem refl (hR : ∀ v, R v v) (d : Dict α) : d.Grows R d := fun _ v hv => ⟨v, hv, hR v⟩

theorem trans (hR : ∀ {a b c}, R a b → R b c → R a c) (h : d.Grows R d') (h' : d'.Grows R d'') :
    d.Grows R d'' := by
  intro key v hv
  obtain ⟨v', hv', hr⟩ := h key v hv
  obtain ⟨v'', hv'', hr'⟩ := h' key v' hv'
  exact ⟨v'', hv'', hR hr hr'⟩

/-- A binding may be replaced by one that its value may grow into. -/
theorem insert (hR : ∀ v, R v v) {key : String} {value : α}
    (hold : ∀ v, d.get? key = some v → R v value) : d.Grows R (d.insert key value) := by
  intro k v hv
  rw [get?_insert]
  split
  · rename_i hk
    subst hk
    exact ⟨value, rfl, hold v hv⟩
  · exact ⟨v, hv, hR v⟩

/-- A new value for a new key leaves the others alone. -/
theorem insertNew (hR : ∀ v, R v v) (d : Dict α) (key : String) (value : α) :
    d.Grows R (d.insertNew key value) := by
  intro k v hv
  rw [get?_insertNew]
  split
  · rename_i hk
    subst hk
    exact ⟨v, by rw [hv, Option.getD_some], hR v⟩
  · exact ⟨v, hv, hR v⟩

/-- A change of one value under which it grows. -/
theorem modify (hR : ∀ v, R v v) (d : Dict α) (key : String) {f : α → α}
    (hf : ∀ v, d.get? key = some v → R v (f v)) : d.Grows R (d.modify key f) := by
  intro k v hv
  rw [get?_modify, hv, Option.map_some]
  refine ⟨_, rfl, ?_⟩
  split
  · rename_i hk
    subst hk
    exact hf v hv
  · exact hR v

end Grows

end Dict

/-! ### The parts of a model -/

/-- **What an author wrote of a member stays**: it remains a written one with its signature, and
each of its other fields stays once it is set. -/
structure MemberDoc.Keeps (m m' : MemberDoc) : Prop where
  written : m'.synthetic = false
  params : m'.params = m.params
  returns : m'.returns = m.returns
  description : Kept (· ≠ "") m.description m'.description
  access : Kept (· ≠ .pub) m.access m'.access
  isStatic : Kept (· = true) m.isStatic m'.isStatic
  isFinal : Kept (· = true) m.isFinal m'.isFinal
  writeOnce : Kept (· = true) m.writeOnce m'.writeOnce
  deprecated : Kept (·.isSome = true) m.deprecated m'.deprecated
  see : Kept (·.isSome = true) m.see m'.see
  typeName : Kept (·.isSome = true) m.typeName m'.typeName
  defaultValue : Kept (·.isSome = true) m.defaultValue m'.defaultValue

/-- How a member may grow. A derived one may be replaced, but no attribute is lost. -/
structure MemberDoc.Grows (m m' : MemberDoc) : Prop where
  attributes : m.attributes.Grows Eq m'.attributes
  keeps : m.synthetic = false → m.Keeps m'

/-- How a class may grow. Its module and its file are not among what stays. -/
structure ClassDoc.Grows (c c' : ClassDoc) : Prop where
  shortName : c'.shortName = c.shortName
  name : c'.name = c.name
  inNamespace : c'.inNamespace = c.inNamespace
  superclass : Kept (·.isSome = true) c.superclass c'.superclass
  deprecated : Kept (·.isSome = true) c.deprecated c'.deprecated
  description : Kept (· ≠ "") c.description c'.description
  access : Kept (· ≠ .pub) c.access c'.access
  uses : c.uses <+: c'.uses
  innerClasses : c.innerClasses <+: c'.innerClasses
  constructors : c.constructors <+: c'.constructors
  members : ∀ kind, (c.members kind).Grows MemberDoc.Grows (c'.members kind)
  attributes : c.attributes.Grows Eq c'.attributes

/-- How a module may grow. Of the parts of a module only the names stay, since a part may be
declared again. -/
structure ModuleDoc.Grows (d d' : ModuleDoc) : Prop where
  name : d'.name = d.name
  title : Kept (·.isSome = true) d.title d'.title
  description : Kept (· ≠ "") d.description d'.description
  classList : d.classList <+: d'.classList
  fileList : d.fileList <+: d'.fileList
  submodules : d.submodules <+: d'.submodules
  subData : d.subData.Grows (fun _ _ => True) d'.subData
  attributes : d.attributes.Grows Eq d'.attributes

/-- How a file may grow. -/
structure FileDoc.Grows (f f' : FileDoc) : Prop where
  name : f'.name = f.name
  classList : f.classList <+: f'.classList

/-- **A model grows into another**: nothing is lost, lists are extended at their ends, and what
was set once stays. -/
structure Model.Grows (m m' : Model) : Prop where
  classes : m.classes.Grows ClassDoc.Grows m'.classes
  modules : m.modules.Grows ModuleDoc.Grows m'.modules
  files : m.files.Grows FileDoc.Grows m'.files
  namespaces : m.namespaces <+: m'.namespaces

/-- Attributes are only added. -/
private theorem Dict.Grows.attributes_refl (d : Dict String) : d.Grows Eq d := .refl Eq.refl d

private theorem Dict.Grows.attributes_insertNew (d : Dict String) (tag value : String) :
    d.Grows Eq (d.insertNew tag value) := .insertNew Eq.refl d tag value

/-! ### Members -/

namespace MemberDoc

variable {m m' m'' : MemberDoc}

theorem Keeps.refl (h : m.synthetic = false) : m.Keeps m :=
  ⟨h, rfl, rfl, .refl _, .refl _, .refl _, .refl _, .refl _, .refl _, .refl _, .refl _, .refl _⟩

theorem Keeps.trans (h : m.Keeps m') (h' : m'.Keeps m'') : m.Keeps m'' where
  written := h'.written
  params := h'.params.trans h.params
  returns := h'.returns.trans h.returns
  description := h.description.trans h'.description
  access := h.access.trans h'.access
  isStatic := h.isStatic.trans h'.isStatic
  isFinal := h.isFinal.trans h'.isFinal
  writeOnce := h.writeOnce.trans h'.writeOnce
  deprecated := h.deprecated.trans h'.deprecated
  see := h.see.trans h'.see
  typeName := h.typeName.trans h'.typeName
  defaultValue := h.defaultValue.trans h'.defaultValue

namespace Grows

theorem refl (m : MemberDoc) : m.Grows m := ⟨.attributes_refl _, Keeps.refl⟩

theorem trans (h : m.Grows m') (h' : m'.Grows m'') : m.Grows m'' where
  attributes := h.attributes.trans Eq.trans h'.attributes
  keeps hs := (h.keeps hs).trans (h'.keeps (h.keeps hs).written)

/-- Only the attributes are touched. -/
private theorem of_attributes {m : MemberDoc} {attributes : Dict String}
    (h : m.attributes.Grows Eq attributes) : m.Grows { m with attributes := attributes } :=
  ⟨h, fun hs => { Keeps.refl hs with }⟩

/-- A tag fills free slots of a member. -/
private theorem applyTag (m : MemberDoc) (tag value : String) : m.Grows (m.applyTag tag value) := by
  have hattrs := Dict.Grows.attributes_refl m.attributes
  unfold MemberDoc.applyTag
  split
  · exact ⟨hattrs, fun hs => { Keeps.refl hs with access := kept_narrow _ _ }⟩
  · split
    · exact ⟨hattrs, fun hs => { Keeps.refl hs with description := kept_fillText _ _ }⟩
    · exact ⟨hattrs, fun hs => { Keeps.refl hs with isStatic := kept_flag _ }⟩
    · exact ⟨hattrs, fun hs => { Keeps.refl hs with isFinal := kept_flag _ }⟩
    · exact ⟨hattrs, fun hs => { Keeps.refl hs with writeOnce := kept_flag _ }⟩
    · exact ⟨hattrs, fun hs => { Keeps.refl hs with deprecated := kept_fillSlot _ _ }⟩
    · exact ⟨hattrs, fun hs => { Keeps.refl hs with see := kept_fillSlot _ _ }⟩
    · exact ⟨hattrs, fun hs => { Keeps.refl hs with typeName := kept_fillSlot _ _ }⟩
    · exact ⟨hattrs, fun hs => { Keeps.refl hs with defaultValue := kept_fillSlot _ _ }⟩
    · exact .of_attributes (.attributes_insertNew _ _ _)

private theorem applyTags (m : MemberDoc) (tags : List (String × String)) :
    m.Grows (m.applyTags tags) := by
  induction tags generalizing m with
  | nil => exact .refl m
  | cons t tags ih => exact (applyTag m t.1 t.2).trans (ih (m.applyTag t.1 t.2))

/-- A derived event without attributes may be replaced by anything. -/
private theorem of_synthetic (hs : m.synthetic = true) (ha : m.attributes = ∅) : m.Grows m' := by
  refine ⟨fun tag value hv => ?_, fun hw => ?_⟩
  · rw [ha] at hv
    cases hv
  · rw [hs] at hw
    cases hw

end Grows

end MemberDoc

/-! ### Classes -/

namespace ClassDoc

variable {v : UInt32} {key : String} {c c' c'' : ClassDoc} {kind : MemberKind}

/-- Where events and configs agree, nothing derived has attributes. -/
private theorem EventsAgree.attributes (h : c.EventsAgree v) {name : String} {m : MemberDoc}
    (hm : (c.members kind).get? name = some m) (hs : m.synthetic = true) : m.attributes = ∅ := by
  by_cases hkind : kind = .event
  · subst hkind
    obtain ⟨-, config, -, hmem⟩ := h.synthetic name m hm hs
    exact attributes_of_mem_changeEvents hmem
  · rw [h.others kind name m hkind hm] at hs
    cases hs

namespace Grows

theorem refl (c : ClassDoc) : c.Grows c where
  shortName := rfl
  name := rfl
  inNamespace := rfl
  superclass := .refl _
  deprecated := .refl _
  description := .refl _
  access := .refl _
  uses := List.prefix_refl _
  innerClasses := List.prefix_refl _
  constructors := List.prefix_refl _
  members _ := .refl MemberDoc.Grows.refl _
  attributes := .attributes_refl _

theorem trans (h : c.Grows c') (h' : c'.Grows c'') : c.Grows c'' where
  shortName := h'.shortName.trans h.shortName
  name := h'.name.trans h.name
  inNamespace := h'.inNamespace.trans h.inNamespace
  superclass := h.superclass.trans h'.superclass
  deprecated := h.deprecated.trans h'.deprecated
  description := h.description.trans h'.description
  access := h.access.trans h'.access
  uses := h.uses.trans h'.uses
  innerClasses := h.innerClasses.trans h'.innerClasses
  constructors := h.constructors.trans h'.constructors
  members kind := (h.members kind).trans MemberDoc.Grows.trans (h'.members kind)
  attributes := h.attributes.trans Eq.trans h'.attributes

/-- Only the members of one kind are touched. -/
private theorem setMembers (kind : MemberKind) {ms : Dict MemberDoc}
    (h : (c.members kind).Grows MemberDoc.Grows ms) : c.Grows (c.setMembers kind ms) := by
  have hmembers (k : MemberKind) :
      (c.members k).Grows MemberDoc.Grows ((c.setMembers kind ms).members k) := by
    rw [members_setMembers]
    split
    · rename_i hk
      subst hk
      exact h
    · exact .refl MemberDoc.Grows.refl _
  cases kind <;> exact { refl c with members := hmembers }

/-- A member goes to a place that is free or taken by a derived one. -/
private theorem insertMember (hc : c.EventsAgree v) (kind : MemberKind) (doc : MemberDoc)
    (free : ¬c.HasWritten kind doc.name) :
    c.Grows (c.setMembers kind ((c.members kind).insert doc.name doc)) := by
  refine .setMembers kind (.insert MemberDoc.Grows.refl fun m hm => ?_)
  have hs : m.synthetic = true := Bool.of_not_eq_false fun hs => free ⟨m, hm, hs⟩
  exact .of_synthetic hs (hc.attributes hm hs)

/-- Events that go to free names replace none. -/
private theorem addNewEvents (c : ClassDoc) (events : List MemberDoc) :
    c.Grows (c.addNewEvents events) := by
  induction events generalizing c with
  | nil => exact .refl c
  | cons e events ih =>
    have hstep : c.Grows { c with events := c.events.insertNew e.name e } :=
      setMembers .event (.insertNew MemberDoc.Grows.refl _ _ _)
    exact hstep.trans (ih _)

/-- A tag fills free slots of a class. -/
private theorem applyTag (c : ClassDoc) (tag value : String) : c.Grows (c.applyTag tag value) := by
  unfold ClassDoc.applyTag
  split
  · exact { refl c with access := kept_narrow _ _ }
  · split
    · exact { refl c with description := kept_fillText _ _ }
    · exact { refl c with deprecated := kept_fillSlot _ _ }
    · exact { refl c with attributes := .attributes_insertNew _ _ _ }

private theorem applyTags (c : ClassDoc) (tags : List (String × String)) :
    c.Grows (c.applyTags tags) := by
  induction tags generalizing c with
  | nil => exact .refl c
  | cons t tags ih => exact (applyTag c t.1 t.2).trans (ih (c.applyTag t.1 t.2))

/-- A class takes the first superclass that is given, and more uses and inner classes. -/
private theorem relate (c : ClassDoc) (tags : TagMap) (inner : Option String) :
    c.Grows (Session.relateClass tags inner c) :=
  { refl c with
    superclass := kept_orElse _ _
    uses := prefix_foldl_pushNew _ _
    innerClasses := prefix_foldl_pushNew _ _ }

/-- **Edits make a class grow** if its events and configs agree. -/
theorem of_edit (hc : c.EventsAgree v) (e : Edit v key c c') : c.Grows c' := by
  cases e with
  | setModule mod => exact { refl c with }
  | setFile file => exact { refl c with }
  | addInner inner other => exact { refl c with innerClasses := prefix_pushNew _ _ }
  | relate tags inner other => exact .relate c tags inner
  | insertMember kind doc notConfig written free => exact .insertMember hc kind doc free
  | insertConfig name free =>
    have hinsert : c.Grows (c.setMembers .config (c.configs.insert name { name })) :=
      .insertMember hc .config { name } free
    exact hinsert.trans (.addNewEvents _ _)
  | repeatConfig name taken => exact .addNewEvents c _
  | addConstructor doc => exact { refl c with constructors := List.prefix_append _ _ }
  | applyTags tags => exact .applyTags c tags
  | tagMember kind name tags written =>
    exact .setMembers kind (.modify MemberDoc.Grows.refl _ _ fun m _ => .applyTags m tags)

/-- Edits let a class grow, as long as its events agree with its configs. -/
private theorem of_edits (hc : c.EventsAgree v) (e : Edits v key c c') :
    c.Grows c' ∧ c'.EventsAgree v := by
  induction e with
  | refl => exact ⟨.refl c, hc⟩
  | tail _ e ih =>
    obtain ⟨hgrows, hagree⟩ := ih
    exact ⟨hgrows.trans (.of_edit hagree e), hagree.edit e⟩

end Grows

end ClassDoc

/-- The classes of a model grow when it evolves, if their events and configs agree. -/
theorem Model.ClassesEvolve.grows {m m' : Model} (h : m.ClassesEvolve m')
    (hagree : ∀ cls c, m.classes.get? cls = some c → c.EventsAgree m.majorVersion) :
    m.classes.Grows ClassDoc.Grows m'.classes := by
  intro cls c hc
  obtain ⟨c', hc'⟩ := Dict.contains_iff.1 (h.kept cls (Dict.contains_of_get? hc))
  obtain ⟨c₀, hc₀ | ⟨hnone, -⟩, hedits⟩ := h.origin cls c' hc'
  · obtain rfl : c = c₀ := Option.some.inj (hc.symm.trans hc₀)
    exact ⟨c', hc', (ClassDoc.Grows.of_edits (hagree cls c hc) hedits).1⟩
  · rw [hc] at hnone
    cases hnone

/-! ### Modules and files -/

namespace ModuleDoc.Grows

variable {d d' d'' : ModuleDoc}

theorem refl (d : ModuleDoc) : d.Grows d where
  name := rfl
  title := .refl _
  description := .refl _
  classList := List.prefix_refl _
  fileList := List.prefix_refl _
  submodules := List.prefix_refl _
  subData := .refl (fun _ => trivial) _
  attributes := .attributes_refl _

theorem trans (h : d.Grows d') (h' : d'.Grows d'') : d.Grows d'' where
  name := h'.name.trans h.name
  title := h.title.trans h'.title
  description := h.description.trans h'.description
  classList := h.classList.trans h'.classList
  fileList := h.fileList.trans h'.fileList
  submodules := h.submodules.trans h'.submodules
  subData := h.subData.trans (fun _ _ => trivial) h'.subData
  attributes := h.attributes.trans Eq.trans h'.attributes

/-- A tag fills free slots of a module. -/
private theorem applyTag (d : ModuleDoc) (tag value : String) : d.Grows (d.applyTag tag value) := by
  unfold ModuleDoc.applyTag
  split
  · exact { refl d with description := kept_fillText _ _ }
  · exact { refl d with title := kept_fillSlot _ _ }
  · exact { refl d with attributes := .attributes_insertNew _ _ _ }

theorem applyTags (d : ModuleDoc) (tags : List (String × String)) : d.Grows (d.applyTags tags) := by
  induction tags generalizing d with
  | nil => exact .refl d
  | cons t tags ih => exact (applyTag d t.1 t.2).trans (ih (d.applyTag t.1 t.2))

end ModuleDoc.Grows

namespace FileDoc.Grows

variable {f f' f'' : FileDoc}

theorem refl (f : FileDoc) : f.Grows f := ⟨rfl, List.prefix_refl _⟩

theorem trans (h : f.Grows f') (h' : f'.Grows f'') : f.Grows f'' :=
  ⟨h'.name.trans h.name, h.classList.trans h'.classList⟩

end FileDoc.Grows

end ApiDocs
