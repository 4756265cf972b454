import Mathlib.Data.List.Basic
import ApiDocs.Session.Target

/-!
# The first value of a tag

Tags are copied one after the other to what they document, and **the first value given to a slot
stays** (`applyTags_fill`). What is a slot depends on what is documented: a tag may stand for a text
that can be missing, for the description, for a flag, or for the access, which three tags share; and
any other tag is an attribute. A text is free as long as it is missing, a description as long as it
is empty, and the access as long as it is public.

One step is written as a single change of the whole record (`applyTag_eq`), where each slot depends
on the tag on its own. So each slot sees only the tags that address it, in their order, and the
order of tags that address different slots does not matter.
-/

namespace ApiDocs

/-! ### Slots -/

/-- The tags for access. -/
def Access.tags : List String := ["public", "private", "protected"]

/-- The tags with a slot in a member. -/
def MemberDoc.slots : List String :=
  Access.tags ++ ["description", "static", "final", "writeonce", "deprecated", "see", "type",
    "default"]

/-- The tags with a slot in a class. -/
def ClassDoc.slots : List String := Access.tags ++ ["description", "deprecated"]

/-- The tags with a slot in a module. -/
def ModuleDoc.slots : List String := ["description", "title"]

/-- What a tag addresses: the access or a slot of its own. -/
inductive Slot where
  | access
  | own (tag : String)
  deriving DecidableEq

/-- The slot that a tag addresses if there are tags for the access. -/
def Slot.ofTag (tag : String) : Slot :=
  match Access.ofTag? tag with
  | some _ => .access
  | none => .own tag

/-- Tags in another order, in which those that address one slot come as before. -/
def SameOrder (slot : String → Slot) (tags tags' : List (String × String)) : Prop :=
  ∀ s, tags.filter (slot ·.1 = s) = tags'.filter (slot ·.1 = s)

/-- A text stays if it is there, and otherwise is the first value of its tag. -/
def FirstValue (tag : String) (tags : List (String × String)) (old new : Option String) : Prop :=
  new = old.or (tags.lookup tag)

/-- A description stays unless it is empty, and otherwise is the first value that is not. -/
def FirstText (tag : String) (tags : List (String × String)) (old new : String) : Prop :=
  new = if old = "" then ((tags.filter (·.2 ≠ "")).lookup tag).getD "" else old

/-- An access stays unless it is public, and otherwise is that of the first tag for another one. -/
def FirstAccess (tags : List (String × String)) (old new : Access) : Prop :=
  new = if old = .pub then ((tags.filterMap (Access.ofTag? ·.1)).find? (· ≠ .pub)).getD .pub
    else old

/-- A flag is set if it was set or its tag occurs. -/
def Raised (tag : String) (tags : List (String × String)) (old new : Bool) : Prop :=
  new = true ↔ old = true ∨ ∃ value, (tag, value) ∈ tags

/-- Attributes stay, and a tag without a slot becomes one with its first value. -/
def FirstAttributes (slots : List String) (tags : List (String × String)) (old new : Dict String) :
    Prop :=
  ∀ tag, new.get? tag = (old.get? tag).or (if tag ∈ slots then none else tags.lookup tag)

section Slots

variable {slot : String → Slot} {slots : List String} {tag : String}
  {tags tags' : List (String × String)}

/-- The access tags are the words for an access. -/
private theorem Access.ofTag?_eq_some_iff {access : Access} :
    Access.ofTag? tag = some access ↔ tag = access.word := by
  constructor
  · intro h
    unfold Access.ofTag? at h
    split at h <;> cases h <;> rfl
  · rintro rfl
    cases access <;> rfl

private theorem Access.ofTag?_eq_none_iff : Access.ofTag? tag = none ↔ tag ∉ Access.tags := by
  rw [Access.ofTag?.eq_def]
  split <;> simp_all [Access.tags]

/-! ### What each slot sees -/

private theorem lookup_cons_ite (tag : String) (t : String × String)
    (tags : List (String × String)) :
    (t :: tags).lookup tag = if t.1 = tag then some t.2 else tags.lookup tag := by
  rw [List.lookup_cons]
  by_cases ht : t.1 = tag
  · rw [if_pos ht, ht, beq_self_eq_true]
  · rw [if_neg ht, beq_eq_false_iff_ne.2 (Ne.symm ht)]

/-- Taking out tags of some names keeps the order within each slot. -/
private theorem SameOrder.filter (h : SameOrder slot tags tags') (p : String → Bool) :
    SameOrder slot (tags.filter (p ·.2)) (tags'.filter (p ·.2)) := by
  intro s
  rw [List.filter_comm, h s, List.filter_comm]

/-- The first value of a tag is found among those of its slot. -/
private theorem lookup_filter_slot (slot : String → Slot) (tag : String)
    (tags : List (String × String)) :
    (tags.filter (slot ·.1 = slot tag)).lookup tag = tags.lookup tag := by
  induction tags with
  | nil => rfl
  | cons t tags ih =>
    rw [List.filter_cons, lookup_cons_ite, ← ih]
    split
    · exact lookup_cons_ite tag t _
    · rename_i hslot
      rw [if_neg fun ht => hslot (by simp [ht])]

/-- The first value of a tag is found at its slot. -/
private theorem SameOrder.lookup (h : SameOrder slot tags tags') (tag : String) :
    tags.lookup tag = tags'.lookup tag := by
  rw [← lookup_filter_slot slot, h (slot tag), lookup_filter_slot]

/-- The same tags are there. -/
private theorem SameOrder.exists_mem_iff (h : SameOrder slot tags tags') (tag : String) :
    (∃ value, (tag, value) ∈ tags) ↔ ∃ value, (tag, value) ∈ tags' := by
  have hmem (l : List (String × String)) (value : String) :
      (tag, value) ∈ l ↔ (tag, value) ∈ l.filter (slot ·.1 = slot tag) := by
    simp
  simp only [hmem tags, hmem tags', h (slot tag)]

/-- The tags for the access are those of its slot. -/
private theorem filterMap_filter_access (tags : List (String × String)) :
    (tags.filter (Slot.ofTag ·.1 = .access)).filterMap (Access.ofTag? ·.1) =
      tags.filterMap (Access.ofTag? ·.1) := by
  induction tags with
  | nil => rfl
  | cons t tags ih =>
    rw [List.filter_cons, List.filterMap_cons, ← ih]
    cases haccess : Access.ofTag? t.1 with
    | none => simp [Slot.ofTag, haccess]
    | some access => simp [Slot.ofTag, haccess]

/-- The first value of a tag depends on the tags of its slot alone. -/
private theorem FirstValue.of_sameOrder {old new : Option String} (h : SameOrder slot tags tags')
    (hnew : FirstValue tag tags old new) : FirstValue tag tags' old new := by
  rwa [FirstValue, ← h.lookup]

private theorem FirstText.of_sameOrder {old new : String} (h : SameOrder slot tags tags')
    (hnew : FirstText tag tags old new) : FirstText tag tags' old new := by
  rwa [FirstText, ← (h.filter (· ≠ "")).lookup]

/-- All access tags have one slot, so the first of them stays the first. -/
private theorem FirstAccess.of_sameOrder {old new : Access} (h : SameOrder Slot.ofTag tags tags')
    (hnew : FirstAccess tags old new) : FirstAccess tags' old new := by
  rwa [FirstAccess, ← filterMap_filter_access, ← h .access, filterMap_filter_access]

private theorem Raised.of_sameOrder {old new : Bool} (h : SameOrder slot tags tags')
    (hnew : Raised tag tags old new) : Raised tag tags' old new := by
  rwa [Raised, ← h.exists_mem_iff]

/-- The tags without a slot each have their own. -/
private theorem FirstAttributes.of_sameOrder {old new : Dict String} (h : SameOrder slot tags tags')
    (hnew : FirstAttributes slots tags old new) : FirstAttributes slots tags' old new := by
  intro tag
  rw [hnew tag, h.lookup]

end Slots

/-! ### One tag after the other -/

section Steps

variable {slots : List String} {tag : String} {t : String × String} {tags : List (String × String)}

theorem FirstValue.nil (tag : String) (old : Option String) : FirstValue tag [] old old := by
  simp [FirstValue]

/-- A value fills the slot if it is free, and the later ones are left to fill it otherwise. -/
theorem FirstValue.cons {old new : Option String}
    (h : FirstValue tag tags (if t.1 = tag then fillSlot old t.2 else old) new) :
    FirstValue tag (t :: tags) old new := by
  rw [FirstValue] at h ⊢
  rw [h, lookup_cons_ite]
  split
  · cases old <;> rfl
  · rfl

theorem FirstText.nil (tag : String) (old : String) : FirstText tag [] old old := by
  simp [FirstText]

/-- A text that is empty counts as a free one. -/
theorem FirstText.cons {old new : String}
    (h : FirstText tag tags (if t.1 = tag then fillText old t.2 else old) new) :
    FirstText tag (t :: tags) old new := by
  rw [FirstText] at h ⊢
  rw [h, List.filter_cons]
  by_cases hold : old = ""
  · subst hold
    by_cases hvalue : t.2 = ""
    · simp [fillText, hvalue]
    · by_cases ht : t.1 = tag
      · simp [fillText, hvalue, ht, lookup_cons_ite]
      · simp [hvalue, ht, lookup_cons_ite]
  · simp [fillText, hold]

theorem FirstAccess.nil (old : Access) : FirstAccess [] old old := by
  simp [FirstAccess]

/-- The first access tag is the one that counts, unless an access was given before. -/
theorem FirstAccess.cons {old new : Access}
    (h : FirstAccess tags (((Access.ofTag? t.1).map old.narrow).getD old) new) :
    FirstAccess (t :: tags) old new := by
  rw [FirstAccess] at h ⊢
  rw [h, List.filterMap_cons]
  cases Access.ofTag? t.1 with
  | none => rfl
  | some access =>
    rw [Option.map_some, Option.getD_some, Access.narrow, List.find?_cons]
    by_cases hold : old = .pub
    · rw [if_pos hold, if_pos hold]
      by_cases haccess : access = .pub
      · simp [haccess]
      · simp [haccess]
    · rw [if_neg hold, if_neg hold, if_neg hold]

theorem Raised.nil (tag : String) (old : Bool) : Raised tag [] old old := by
  simp [Raised]

/-- A flag that is raised stays so. -/
theorem Raised.cons {old new : Bool} (h : Raised tag tags (old || t.1 == tag) new) :
    Raised tag (t :: tags) old new := by
  rw [Raised] at h ⊢
  rw [h, Bool.or_eq_true, beq_iff_eq, or_assoc]
  refine or_congr_right ?_
  constructor
  · rintro (rfl | ⟨value, hvalue⟩)
    · exact ⟨t.2, List.mem_cons_self⟩
    · exact ⟨value, List.mem_cons_of_mem t hvalue⟩
  · rintro ⟨value, hvalue⟩
    rcases List.mem_cons.1 hvalue with rfl | hvalue
    · exact .inl rfl
    · exact .inr ⟨value, hvalue⟩

theorem FirstAttributes.nil (slots : List String) (old : Dict String) :
    FirstAttributes slots [] old old := by
  simp [FirstAttributes]

/-- An attribute that is there stays, and a new one is the first of its name. -/
theorem FirstAttributes.cons {old new : Dict String}
    (h : FirstAttributes slots tags (if t.1 ∈ slots then old else old.insertNew t.1 t.2) new) :
    FirstAttributes slots (t :: tags) old new := by
  intro tag
  rw [h tag, lookup_cons_ite]
  by_cases ht : t.1 = tag
  · subst ht
    rw [if_pos rfl]
    split
    · rfl
    · rw [Dict.get?_insertNew, if_pos rfl]
      cases old.get? t.1 <;> rfl
  · rw [if_neg ht]
    split
    · rfl
    · rw [Dict.get?_insertNew, if_neg (Ne.symm ht)]

end Steps

/-! ### Members -/

namespace MemberDoc

/-- **A member after tags were copied to it.** -/
structure Filled (m : MemberDoc) (tags : List (String × String)) (m' : MemberDoc) : Prop where
  access : FirstAccess tags m.access m'.access
  description : FirstText "description" tags m.description m'.description
  isStatic : Raised "static" tags m.isStatic m'.isStatic
  isFinal : Raised "final" tags m.isFinal m'.isFinal
  writeOnce : Raised "writeonce" tags m.writeOnce m'.writeOnce
  deprecated : FirstValue "deprecated" tags m.deprecated m'.deprecated
  see : FirstValue "see" tags m.see m'.see
  typeName : FirstValue "type" tags m.typeName m'.typeName
  defaultValue : FirstValue "default" tags m.defaultValue m'.defaultValue
  attributes : FirstAttributes slots tags m.attributes m'.attributes
  rest : m' = { m with
    access := m'.access, description := m'.description, isStatic := m'.isStatic
    isFinal := m'.isFinal, writeOnce := m'.writeOnce, deprecated := m'.deprecated, see := m'.see
    typeName := m'.typeName, defaultValue := m'.defaultValue, attributes := m'.attributes }

/-- One tag, slot by slot. -/
theorem applyTag_eq (m : MemberDoc) (tag value : String) : m.applyTag tag value =
    { m with
      access := ((Access.ofTag? tag).map m.access.narrow).getD m.access
      description := if tag = "description" then fillText m.description value else m.description
      isStatic := m.isStatic || tag == "static"
      isFinal := m.isFinal || tag == "final"
      writeOnce := m.writeOnce || tag == "writeonce"
      deprecated := if tag = "deprecated" then fillSlot m.deprecated value else m.deprecated
      see := if tag = "see" then fillSlot m.see value else m.see
      typeName := if tag = "type" then fillSlot m.typeName value else m.typeName
      defaultValue := if tag = "default" then fillSlot m.defaultValue value else m.defaultValue
      attributes := if tag ∈ slots then m.attributes else m.attributes.insertNew tag value } := by
  unfold applyTag
  split
  · rename_i access haccess
    obtain rfl := Access.ofTag?_eq_some_iff.1 haccess
    rw [haccess]
    cases access <;> simp [Access.word, slots, Access.tags]
  · rename_i haccess
    have hslot := Access.ofTag?_eq_none_iff.1 haccess
    rw [haccess]
    split <;> simp_all [slots]

variable {m m' m'' : MemberDoc} {tags tags' : List (String × String)}

theorem Filled.nil (m : MemberDoc) : m.Filled [] m :=
  ⟨.nil _, .nil _ _, .nil _ _, .nil _ _, .nil _ _, .nil _ _, .nil _ _, .nil _ _, .nil _ _, .nil _ _,
    rfl⟩

theorem Filled.cons {t : String × String} (h : (m.applyTag t.1 t.2).Filled tags m') :
    m.Filled (t :: tags) m' := by
  rw [applyTag_eq] at h
  exact ⟨h.access.cons, h.description.cons, h.isStatic.cons, h.isFinal.cons, h.writeOnce.cons,
    h.deprecated.cons, h.see.cons, h.typeName.cons, h.defaultValue.cons, h.attributes.cons, h.rest⟩

/-- Copying tags fills the slots of a member. -/
private theorem filled_applyTags (m : MemberDoc) (tags : List (String × String)) :
    m.Filled tags (m.applyTags tags) := by
  induction tags generalizing m with
  | nil => exact .nil m
  | cons t tags ih => exact (ih (m.applyTag t.1 t.2)).cons

/-- What is filled is determined: each slot by its tags, and there are no other fields that
change. -/
theorem Filled.unique (h : m.Filled tags m') (h' : m.Filled tags m'') : m' = m'' := by
  rw [h.rest, h'.rest]
  congr 1
  · exact h.description.trans h'.description.symm
  · exact h.access.trans h'.access.symm
  · exact Bool.eq_iff_iff.2 (h.isStatic.trans h'.isStatic.symm)
  · exact Bool.eq_iff_iff.2 (h.isFinal.trans h'.isFinal.symm)
  · exact h.deprecated.trans h'.deprecated.symm
  · exact h.see.trans h'.see.symm
  · exact h.typeName.trans h'.typeName.symm
  · exact h.defaultValue.trans h'.defaultValue.symm
  · exact Bool.eq_iff_iff.2 (h.writeOnce.trans h'.writeOnce.symm)
  · exact Dict.ext_get? fun tag => (h.attributes tag).trans (h'.attributes tag).symm

/-- **The first values fill a member**, and this is all that copying tags does. -/
theorem applyTags_eq_iff : m.applyTags tags = m' ↔ m.Filled tags m' :=
  ⟨fun h => h ▸ filled_applyTags m tags, (filled_applyTags m tags).unique⟩

/-- The order of tags of different slots does not matter. -/
private theorem Filled.of_sameOrder (h : m.Filled tags m')
    (horder : SameOrder Slot.ofTag tags tags') :
    m.Filled tags' m' where
  access := h.access.of_sameOrder horder
  description := h.description.of_sameOrder horder
  isStatic := h.isStatic.of_sameOrder horder
  isFinal := h.isFinal.of_sameOrder horder
  writeOnce := h.writeOnce.of_sameOrder horder
  deprecated := h.deprecated.of_sameOrder horder
  see := h.see.of_sameOrder horder
  typeName := h.typeName.of_sameOrder horder
  defaultValue := h.defaultValue.of_sameOrder horder
  attributes := h.attributes.of_sameOrder horder
  rest := h.rest

/-- Members take tags of different slots in any order. -/
private theorem applyTags_eq_of_sameOrder (h : SameOrder Slot.ofTag tags tags') (m : MemberDoc) :
    m.applyTags tags = m.applyTags tags' :=
  (applyTags_eq_iff.2 ((filled_applyTags m tags).of_sameOrder h)).symm

end MemberDoc

/-! ### Classes -/

namespace ClassDoc

/-- **A class after tags were copied to it.** -/
structure Filled (c : ClassDoc) (tags : List (String × String)) (c' : ClassDoc) : Prop where
  access : FirstAccess tags c.access c'.access
  description : FirstText "description" tags c.description c'.description
  deprecated : FirstValue "deprecated" tags c.deprecated c'.deprecated
  attributes : FirstAttributes slots tags c.attributes c'.attributes
  rest : c' = { c with
    access := c'.access, description := c'.description, deprecated := c'.deprecated
    attributes := c'.attributes }

/-- One tag, slot by slot. -/
theorem applyTag_eq (c : ClassDoc) (tag value : String) : c.applyTag tag value =
    { c with
      access := ((Access.ofTag? tag).map c.access.narrow).getD c.access
      description := if tag = "description" then fillText c.description value else c.description
      deprecated := if tag = "deprecated" then fillSlot c.deprecated value else c.deprecated
      attributes := if tag ∈ slots then c.attributes else c.attributes.insertNew tag value } := by
  unfold applyTag
  split
  · rename_i access haccess
    obtain rfl := Access.ofTag?_eq_some_iff.1 haccess
    rw [haccess]
    cases access <;> simp [Access.word, slots, Access.tags]
  · rename_i haccess
    have hslot := Access.ofTag?_eq_none_iff.1 haccess
    rw [haccess]
    split <;> simp_all [slots]

variable {c c' c'' : ClassDoc} {tags tags' : List (String × String)}

theorem Filled.nil (c : ClassDoc) : c.Filled [] c :=
  ⟨.nil _, .nil _ _, .nil _ _, .nil _ _, rfl⟩

theorem Filled.cons {t : String × String} (h : (c.applyTag t.1 t.2).Filled tags c') :
    c.Filled (t :: tags) c' := by
  rw [applyTag_eq] at h
  exact ⟨h.access.cons, h.description.cons, h.deprecated.cons, h.attributes.cons, h.rest⟩

/-- Copying tags fills the slots of a class. -/
private theorem filled_applyTags (c : ClassDoc) (tags : List (String × String)) :
    c.Filled tags (c.applyTags tags) := by
  induction tags generalizing c with
  | nil => exact .nil c
  | cons t tags ih => exact (ih (c.applyTag t.1 t.2)).cons

/-- What is filled is determined. -/
theorem Filled.unique (h : c.Filled tags c') (h' : c.Filled tags c'') : c' = c'' := by
  rw [h.rest, h'.rest]
  congr 1
  · exact h.description.trans h'.description.symm
  · exact h.access.trans h'.access.symm
  · exact h.deprecated.trans h'.deprecated.symm
  · exact Dict.ext_get? fun tag => (h.attributes tag).trans (h'.attributes tag).symm

/-- **The first values fill a class**, and this is all that copying tags does. -/
theorem applyTags_eq_iff : c.applyTags tags = c' ↔ c.Filled tags c' :=
  ⟨fun h => h ▸ filled_applyTags c tags, (filled_applyTags c tags).unique⟩

private theorem Filled.of_sameOrder (h : c.Filled tags c')
    (horder : SameOrder Slot.ofTag tags tags') :
    c.Filled tags' c' where
  access := h.access.of_sameOrder horder
  description := h.description.of_sameOrder horder
  deprecated := h.deprecated.of_sameOrder horder
  attributes := h.attributes.of_sameOrder horder
  rest := h.rest

/-- Classes take tags of different slots in any order. -/
private theorem applyTags_eq_of_sameOrder (h : SameOrder Slot.ofTag tags tags') (c : ClassDoc) :
    c.applyTags tags = c.applyTags tags' :=
  (applyTags_eq_iff.2 ((filled_applyTags c tags).of_sameOrder h)).symm

end ClassDoc

/-! ### Modules -/

namespace ModuleDoc

/-- **A module after tags were copied to it.** -/
structure Filled (d : ModuleDoc) (tags : List (String × String)) (d' : ModuleDoc) : Prop where
  description : FirstText "description" tags d.description d'.description
  title : FirstValue "title" tags d.title d'.title
  attributes : FirstAttributes slots tags d.attributes d'.attributes
  rest : d' = { d with
    description := d'.description, title := d'.title, attributes := d'.attributes }

/-- One tag, slot by slot. -/
theorem applyTag_eq (d : ModuleDoc) (tag value : String) : d.applyTag tag value =
    { d with
      description := if tag = "description" then fillText d.description value else d.description
      title := if tag = "title" then fillSlot d.title value else d.title
      attributes := if tag ∈ slots then d.attributes else d.attributes.insertNew tag value } := by
  unfold applyTag
  split <;> simp_all [slots]

variable {d d' d'' : ModuleDoc} {tags tags' : List (String × String)}

theorem Filled.nil (d : ModuleDoc) : d.Filled [] d := ⟨.nil _ _, .nil _ _, .nil _ _, rfl⟩

theorem Filled.cons {t : String × String} (h : (d.applyTag t.1 t.2).Filled tags d') :
    d.Filled (t :: tags) d' := by
  rw [applyTag_eq] at h
  exact ⟨h.description.cons, h.title.cons, h.attributes.cons, h.rest⟩

/-- Copying tags fills the slots of a module. -/
private theorem filled_applyTags (d : ModuleDoc) (tags : List (String × String)) :
    d.Filled tags (d.applyTags tags) := by
  induction tags generalizing d with
  | nil => exact .nil d
  | cons t tags ih => exact (ih (d.applyTag t.1 t.2)).cons

/-- What is filled is determined. -/
theorem Filled.unique (h : d.Filled tags d') (h' : d.Filled tags d'') : d' = d'' := by
  rw [h.rest, h'.rest]
  congr 1
  · exact h.title.trans h'.title.symm
  · exact h.description.trans h'.description.symm
  · exact Dict.ext_get? fun tag => (h.attributes tag).trans (h'.attributes tag).symm

/-- **The first values fill a module**, and this is all that copying tags does. -/
theorem applyTags_eq_iff : d.applyTags tags = d' ↔ d.Filled tags d' :=
  ⟨fun h => h ▸ filled_applyTags d tags, (filled_applyTags d tags).unique⟩

private theorem Filled.of_sameOrder (h : d.Filled tags d')
    (horder : SameOrder Slot.own tags tags') :
    d.Filled tags' d' where
  description := h.description.of_sameOrder horder
  title := h.title.of_sameOrder horder
  attributes := h.attributes.of_sameOrder horder
  rest := h.rest

/-- Modules take tags of different slots in any order. -/
private theorem applyTags_eq_of_sameOrder (h : SameOrder Slot.own tags tags') (d : ModuleDoc) :
    d.applyTags tags = d.applyTags tags' :=
  (applyTags_eq_iff.2 ((filled_applyTags d tags).of_sameOrder h)).symm

end ModuleDoc

/-- **The first value given to a slot stays.** Copying tags to a member, a class or a module fills
each slot with the first value that it can take and changes nothing else; so tags in another order
do the same, as long as those for one slot come as before. -/
theorem applyTags_fill :
    (∀ (m : MemberDoc) tags m', m.applyTags tags = m' ↔ m.Filled tags m') ∧
      (∀ (c : ClassDoc) tags c', c.applyTags tags = c' ↔ c.Filled tags c') ∧
      (∀ (d : ModuleDoc) tags d', d.applyTags tags = d' ↔ d.Filled tags d') ∧
      (∀ tags tags', SameOrder Slot.ofTag tags tags' →
        (∀ m : MemberDoc, m.applyTags tags = m.applyTags tags') ∧
          ∀ c : ClassDoc, c.applyTags tags = c.applyTags tags') ∧
      ∀ tags tags', SameOrder Slot.own tags tags' →
        ∀ d : ModuleDoc, d.applyTags tags = d.applyTags tags' :=
  ⟨fun _ _ _ => MemberDoc.applyTags_eq_iff, fun _ _ _ => ClassDoc.applyTags_eq_iff,
    fun _ _ _ => ModuleDoc.applyTags_eq_iff,
    fun _ _ h => ⟨MemberDoc.applyTags_eq_of_sameOrder h, ClassDoc.applyTags_eq_of_sameOrder h⟩,
    fun _ _ h => ModuleDoc.applyTags_eq_of_sameOrder h⟩

/-- Two tags for the access and two for a type, in two orders. -/
theorem applyTags_fill_access :
    SameOrder Slot.ofTag [("public", ""), ("type", "A"), ("private", ""), ("type", "B")]
        [("type", "A"), ("type", "B"), ("public", ""), ("private", "")] ∧
      ∀ m : MemberDoc,
        m.applyTags [("public", ""), ("type", "A"), ("private", ""), ("type", "B")] =
          m.applyTags [("type", "A"), ("type", "B"), ("public", ""), ("private", "")] := by
  have horder : SameOrder Slot.ofTag
      [("public", ""), ("type", "A"), ("private", ""), ("type", "B")]
      [("type", "A"), ("type", "B"), ("public", ""), ("private", "")] := by
    intro s
    have htype : Slot.ofTag "type" = .own "type" := rfl
    have hpublic : Slot.ofTag "public" = .access := rfl
    have hprivate : Slot.ofTag "private" = .access := rfl
    simp only [List.filter_cons, htype, hpublic, hprivate]
    by_cases haccess : Slot.access = s
    · subst haccess
      rfl
    · by_cases hown : Slot.own "type" = s <;> simp [haccess, hown]
  exact ⟨horder, (applyTags_fill.2.2.2.1 _ _ horder).1⟩

end ApiDocs
