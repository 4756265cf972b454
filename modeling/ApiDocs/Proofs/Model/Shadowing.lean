import ApiDocs.Proofs.Model.FirstValue
import ApiDocs.Proofs.Model.Growth
import ApiDocs.Proofs.Model.RoundTrip

/-!
# Tags with the names of fields

A tag that is copied to a class, a member or a module fills the field that is its slot there, or
becomes an attribute. A record has fields that no tag fills, and a tag with the name of one of these
`unfilled` fields becomes an attribute all the same, beside the field. **Copied tags leave a record
separate if and only if it was so before and none of them has the name of an unfilled field**
(`separate_applyTags`, for each of the three kinds of records).

A model that grows loses no attribute, so it is separate only if it has been so all along
(`Model.Grows.separate`).
-/

namespace ApiDocs

open Json

/-! ### Entries and keys -/

namespace Dict

variable {α : Type} {d : Dict α}

/-- An entry is a value under its key. -/
theorem mem_entries_iff {key : String} {v : α} : (key, v) ∈ d.entries ↔ d.get? key = some v := by
  refine ⟨fun h => ?_, mem_of_lookup⟩
  obtain ⟨entries, sorted⟩ := d
  rw [get?]
  induction entries with
  | nil => cases h
  | cons e rest ih =>
    obtain ⟨k, w⟩ := e
    obtain ⟨hk, hrest⟩ := List.pairwise_cons.1 sorted
    rcases List.mem_cons.1 h with heq | hmem
    · cases heq
      exact List.lookup_cons_self
    · have hne : (key == k) = false := beq_eq_false_iff_ne.2 (String.ne_of_lt (hk _ hmem)).symm
      rw [List.lookup_cons, hne]
      exact ih hrest hmem

/-- Every value has a property. -/
def All (P : α → Prop) (d : Dict α) : Prop := ∀ key v, d.get? key = some v → P v

/-- What holds of all values holds of all entries. -/
private theorem all_iff_entries {P : α → Prop} : d.All P ↔ ∀ e ∈ d.entries, P e.2 := by
  constructor
  · intro h e he
    exact h e.1 e.2 (mem_entries_iff.1 he)
  · intro h key v hv
    exact h (key, v) (mem_entries_iff.2 hv)

/-- A value of the kind may be inserted. -/
theorem All.insert {P : α → Prop} (h : d.All P) (key : String) {value : α} (hvalue : P value) :
    (d.insert key value).All P := by
  intro k v hv
  rw [get?_insert] at hv
  split at hv
  · cases hv
    exact hvalue
  · exact h k v hv

/-- A value of the kind makes no difference when it is new. -/
private theorem all_insertNew_iff {P : α → Prop} {key : String} {value : α} (hvalue : P value) :
    (d.insertNew key value).All P ↔ d.All P := by
  rw [insertNew]
  split
  · exact Iff.rfl
  · rename_i hnew
    refine ⟨fun h k v hv => h k v ?_, fun h => h.insert key hvalue⟩
    have hne : k ≠ key := by
      rintro rfl
      exact hnew (contains_of_get? hv)
    rw [get?_insert, if_neg hne, hv]

/-- A value may be changed to another one of the kind. -/
private theorem All.modify {P : α → Prop} (h : d.All P) (key : String) {f : α → α}
    (hf : ∀ v, d.get? key = some v → P v → P (f v)) : (d.modify key f).All P := by
  intro k v hv
  rw [get?_modify] at hv
  obtain ⟨w, hw, rfl⟩ := Option.map_eq_some_iff.1 hv
  split
  · rename_i hk
    subst hk
    exact hf w hw (h k w hw)
  · exact h k w hw

/-- A change to one value that keeps the property under a condition. -/
private theorem all_modify_iff {P : α → Prop} {Q : Prop} {key : String} {v : α} {f : α → α}
    (hv : d.get? key = some v) (hf : P (f v) ↔ P v ∧ Q) :
    (d.modify key f).All P ↔ d.All P ∧ Q := by
  constructor
  · intro h
    have hchanged : P v ∧ Q := by
      refine hf.1 (h key (f v) ?_)
      rw [get?_modify, hv, Option.map_some, if_pos rfl]
    refine ⟨fun k w hw => ?_, hchanged.2⟩
    by_cases hk : k = key
    · subst hk
      obtain rfl := Option.some.inj (hv.symm.trans hw)
      exact hchanged.1
    · refine h k w ?_
      rw [get?_modify, hw, Option.map_some, if_neg hk]
  · rintro ⟨h, hq⟩
    refine h.modify key fun w hw hpw => ?_
    obtain rfl := Option.some.inj (hv.symm.trans hw)
    exact hf.2 ⟨hpw, hq⟩

private theorem mem_keys_iff {key : String} : key ∈ d.keys ↔ d.contains key = true := by
  rw [contains_iff]
  constructor
  · intro h
    obtain ⟨⟨_, v⟩, he, rfl⟩ := List.mem_map.1 h
    exact ⟨v, mem_entries_iff.1 he⟩
  · rintro ⟨v, hv⟩
    exact mem_keys_of_get? hv

private theorem Grows.contains {R : α → α → Prop} {d' : Dict α} (h : d.Grows R d') {key : String}
    (hkey : d.contains key = true) : d'.contains key = true := by
  obtain ⟨v, hv⟩ := contains_iff.1 hkey
  obtain ⟨v', hv', -⟩ := h key v hv
  exact contains_of_get? hv'

end Dict

/-- The tags that are left are those with a value. -/
theorem TagMap.mem_leftovers_iff {t : TagMap} {tag : String} :
    tag ∈ t.leftovers.map Prod.fst ↔ (t.first tag).isSome = true := by
  simp only [leftovers, List.mem_map, List.mem_filterMap, Option.map_eq_some_iff]
  constructor
  · rintro ⟨-, ⟨⟨_, values⟩, he, value, hvalue, rfl⟩, rfl⟩
    rw [first, Dict.mem_entries_iff.1 he, Option.bind_some, hvalue]
    rfl
  · intro h
    obtain ⟨value, hvalue⟩ := Option.isSome_iff_exists.1 h
    obtain ⟨values, hget, hhead⟩ := Option.bind_eq_some_iff.1 hvalue
    exact ⟨(tag, value), ⟨(tag, values), Dict.mem_entries_iff.2 hget, value, hhead, rfl⟩, rfl⟩

/-! ### Copying tags -/

section Copy

variable {σ : Type} {attributes : σ → Dict String} {apply : σ → String → String → σ}
  {slots : List String}

/-- Tags without a slot are added to the attributes. -/
def CopiesTags (attributes : σ → Dict String) (apply : σ → String → String → σ)
    (slots : List String) : Prop :=
  ∀ a tag value, attributes (apply a tag value) =
    if tag ∈ slots then attributes a else (attributes a).insertNew tag value

/-- Copying tags adds the names of those without a slot. -/
private theorem CopiesTags.contains_foldl (h : CopiesTags attributes apply slots) (a : σ)
    (tags : List (String × String)) (key : String) :
    (attributes (tags.foldl (fun a t => apply a t.1 t.2) a)).contains key = true ↔
      (attributes a).contains key = true ∨ key ∉ slots ∧ key ∈ tags.map Prod.fst := by
  induction tags generalizing a with
  | nil => simp
  | cons t tags ih =>
    rw [List.foldl_cons, ih, h]
    by_cases hslot : t.1 ∈ slots
    · rw [if_pos hslot, List.map_cons, List.mem_cons]
      have hkey : key ∉ slots ∧ (key = t.1 ∨ key ∈ tags.map Prod.fst) ↔
          key ∉ slots ∧ key ∈ tags.map Prod.fst :=
        and_congr_right fun hkey => or_iff_right fun heq => hkey (heq ▸ hslot)
      rw [hkey]
    · rw [if_neg hslot, Dict.contains_insertNew, Bool.or_eq_true, beq_iff_eq, List.map_cons,
        List.mem_cons]
      by_cases heq : key = t.1
      · simp [heq, hslot]
      · simp [heq]

/-- **The attributes stay clear of the fields** if no tag has the name of a field without a slot. -/
theorem CopiesTags.clear_foldl (h : CopiesTags attributes apply slots) {τ : Type}
    {fields : List (RecordField τ)} (a : σ) (tags : List (String × String)) :
    Clear fields (attributes (tags.foldl (fun a t => apply a t.1 t.2) a)) ↔
      Clear fields (attributes a) ∧
        ∀ field ∈ (fields.map (·.name)).filter (· ∉ slots), field ∉ tags.map Prod.fst := by
  simp only [Clear, Dict.mem_keys_iff, h.contains_foldl, List.mem_filter, decide_eq_true_eq]
  constructor
  · intro hclear
    refine ⟨fun key hkey => hclear key (.inl hkey), fun field hfield htag => ?_⟩
    exact hclear field (.inr ⟨hfield.2, htag⟩) hfield.1
  · rintro ⟨hclear, htags⟩ key (hkey | ⟨hslot, htag⟩) hfield
    · exact hclear key hkey hfield
    · exact htags key ⟨hfield, hslot⟩ htag

end Copy

/-- The fields of a member that no tag fills. -/
def MemberDoc.unfilled : List String := (MemberDoc.fields.map (·.name)).filter (· ∉ MemberDoc.slots)

/-- The fields of a class that no tag fills. -/
def ClassDoc.unfilled : List String := (ClassDoc.fields.map (·.name)).filter (· ∉ ClassDoc.slots)

/-- The fields of a module that no tag fills. -/
def ModuleDoc.unfilled : List String := (ModuleDoc.fields.map (·.name)).filter (· ∉ ModuleDoc.slots)

private theorem MemberDoc.copiesTags :
    CopiesTags MemberDoc.attributes MemberDoc.applyTag slots := by
  intro m tag value
  rw [applyTag_eq]

private theorem ClassDoc.copiesTags : CopiesTags ClassDoc.attributes ClassDoc.applyTag slots := by
  intro c tag value
  rw [applyTag_eq]

private theorem ModuleDoc.copiesTags :
    CopiesTags ModuleDoc.attributes ModuleDoc.applyTag slots := by
  intro d tag value
  rw [applyTag_eq]

/-- Attributes that grow without a clash had none before. -/
private theorem Json.Clear.of_grows {τ : Type} {fields : List (RecordField τ)} {d d' : Dict String}
    (hd' : Clear fields d') (h : d.Grows Eq d') : Clear fields d := by
  intro key hkey
  exact hd' key (Dict.mem_keys_iff.2 (h.contains (Dict.mem_keys_iff.1 hkey)))

/-- Without attributes there is no clash. -/
theorem Dict.clear_of_empty {τ : Type} {fields : List (RecordField τ)} {d : Dict String}
    (h : d = ∅) : Clear fields d := by
  rw [h]
  exact fun key hkey => absurd hkey List.not_mem_nil

/-- A member without attributes is separate. -/
theorem MemberDoc.separate_of_empty {m : MemberDoc} (h : m.attributes = ∅) : m.Separate :=
  Dict.clear_of_empty h

/-- **Copied tags and the fields of a member.** -/
theorem MemberDoc.separate_applyTags {m : MemberDoc} {tags : List (String × String)} :
    (m.applyTags tags).Separate ↔
      m.Separate ∧ ∀ field ∈ unfilled, field ∉ tags.map Prod.fst :=
  copiesTags.clear_foldl m tags

/-- **Copied tags and the fields of a class.** -/
theorem ClassDoc.separate_applyTags {c : ClassDoc} {tags : List (String × String)} :
    (c.applyTags tags).Separate ↔
      c.Separate ∧ ∀ field ∈ unfilled, field ∉ tags.map Prod.fst := by
  have hmembers := c.members_applyTags tags
  have hattributes : Clear ClassDoc.fields (c.applyTags tags).attributes ↔
      Clear ClassDoc.fields c.attributes ∧ ∀ field ∈ unfilled, field ∉ tags.map Prod.fst :=
    copiesTags.clear_foldl c tags
  constructor
  · rintro ⟨hclear, hall⟩
    rw [hmembers] at hall
    exact ⟨⟨(hattributes.1 hclear).1, hall⟩, (hattributes.1 hclear).2⟩
  · rintro ⟨⟨hclear, hall⟩, htags⟩
    rw [← hmembers] at hall
    exact ⟨hattributes.2 ⟨hclear, htags⟩, hall⟩

/-- **Copied tags and the fields of a module.** -/
theorem ModuleDoc.separate_applyTags {d : ModuleDoc} {tags : List (String × String)} :
    (d.applyTags tags).Separate ↔
      d.Separate ∧ ∀ field ∈ unfilled, field ∉ tags.map Prod.fst :=
  copiesTags.clear_foldl d tags

/-! ### Separate classes -/

namespace ClassDoc

variable {c c' : ClassDoc}

/-- A class is separate if its attributes and all its members are. -/
theorem separate_iff : c.Separate ↔
    Clear ClassDoc.fields c.attributes ∧ ∀ kind, (c.members kind).All MemberDoc.Separate := by
  simp only [Dict.all_iff_entries]
  exact ⟨fun h => ⟨h.attributes, h.members⟩, fun h => ⟨h.1, h.2⟩⟩

theorem Separate.all (h : c.Separate) (kind : MemberKind) :
    (c.members kind).All MemberDoc.Separate :=
  (separate_iff.1 h).2 kind

/-- Only the attributes and the members matter. -/
theorem Separate.of_eq (h : c.Separate) (hattributes : c'.attributes = c.attributes)
    (hmembers : c'.members = c.members) : c'.Separate :=
  ⟨hattributes ▸ h.attributes, hmembers ▸ h.members⟩

private theorem attributes_setMembers (c : ClassDoc) (kind : MemberKind) (ms : Dict MemberDoc) :
    (c.setMembers kind ms).attributes = c.attributes := by
  cases kind <;> rfl

/-- The members of one kind may be replaced by others that are separate. -/
theorem Separate.setMembers (h : c.Separate) (kind : MemberKind) {ms : Dict MemberDoc}
    (hms : ms.All MemberDoc.Separate) : (c.setMembers kind ms).Separate := by
  refine separate_iff.2 ⟨?_, fun k => ?_⟩
  · rw [attributes_setMembers]
    exact h.attributes
  · rw [members_setMembers]
    split
    · exact hms
    · exact h.all k

/-- **Copied tags and the fields of one member of a class.** -/
theorem separate_modifyMember {kind : MemberKind} {name : String} {m : MemberDoc}
    (hm : (c.members kind).get? name = some m) {tags : List (String × String)} :
    (c.modifyMember kind name (·.applyTags tags)).Separate ↔
      c.Separate ∧ ∀ field ∈ MemberDoc.unfilled, field ∉ tags.map Prod.fst := by
  have hmodify : ((c.members kind).modify name (·.applyTags tags)).All MemberDoc.Separate ↔
      (c.members kind).All MemberDoc.Separate ∧
        ∀ field ∈ MemberDoc.unfilled, field ∉ tags.map Prod.fst :=
    Dict.all_modify_iff hm MemberDoc.separate_applyTags
  constructor
  · intro h
    have hkind := h.all kind
    rw [modifyMember, members_setMembers, if_pos rfl] at hkind
    refine ⟨separate_iff.2 ⟨?_, fun k => ?_⟩, (hmodify.1 hkind).2⟩
    · exact attributes_setMembers c kind _ ▸ h.attributes
    · have hk := h.all k
      rw [modifyMember, members_setMembers] at hk
      split at hk
      · rename_i heq
        subst heq
        exact (hmodify.1 hkind).1
      · exact hk
  · rintro ⟨h, htags⟩
    exact h.setMembers kind (hmodify.2 ⟨h.all kind, htags⟩)

/-- A class that grows was separate if it is so in the end. -/
private theorem Grows.separate (h : c.Grows c') (hc' : c'.Separate) : c.Separate := by
  refine separate_iff.2 ⟨hc'.attributes.of_grows h.attributes, fun kind name m hm => ?_⟩
  obtain ⟨m', hm', hgrows⟩ := h.members kind name m hm
  have hclear : Clear MemberDoc.fields m'.attributes := hc'.all kind name m' hm'
  exact hclear.of_grows hgrows.attributes

end ClassDoc

/-! ### Separate models -/

namespace Model

variable {m m' : Model}

/-- A model is separate if all its classes and modules are. -/
theorem separate_iff : m.Separate ↔
    m.classes.All ClassDoc.Separate ∧ m.modules.All ModuleDoc.Separate := by
  rw [Dict.all_iff_entries, Dict.all_iff_entries]
  exact ⟨fun h => ⟨h.classes, h.modules⟩, fun h => ⟨h.1, h.2⟩⟩

/-- A class that exists is changed. -/
theorem separate_modifyClass {cls : String} {c : ClassDoc} (hc : m.classes.get? cls = some c)
    {f : ClassDoc → ClassDoc} {Q : Prop} (hf : (f c).Separate ↔ c.Separate ∧ Q) :
    (m.modifyClass cls f).Separate ↔ m.Separate ∧ Q := by
  rw [separate_iff, separate_iff, modifyClass, Dict.all_modify_iff hc hf]
  exact and_right_comm

/-- A new module has no attributes. -/
private theorem separate_addModule (mod : String) : (m.addModule mod).Separate ↔ m.Separate := by
  have hnew : ModuleDoc.Separate { name := mod } := Dict.clear_of_empty rfl
  rw [separate_iff, separate_iff]
  exact and_congr_right fun _ => Dict.all_insertNew_iff hnew

/-- A module is changed, which is created first if need be. -/
theorem separate_modifyModule (mod : String) {f : ModuleDoc → ModuleDoc} {Q : Prop}
    (hf : ∀ d : ModuleDoc, (f d).Separate ↔ d.Separate ∧ Q) :
    (m.modifyModule mod f).Separate ↔ m.Separate ∧ Q := by
  have hadded : (m.addModule mod).modules.get? mod =
      some ((m.modules.get? mod).getD { name := mod }) := by
    rw [get?_addModule, if_pos rfl]
  have hmodify : ((m.addModule mod).modules.modify mod f).All ModuleDoc.Separate ↔
      (m.addModule mod).modules.All ModuleDoc.Separate ∧ Q := Dict.all_modify_iff hadded (hf _)
  rw [← separate_addModule (m := m) mod, separate_iff, separate_iff, and_assoc]
  exact and_congr_right fun _ => hmodify

/-- A model that grows was separate if it is so in the end. -/
theorem Grows.separate (h : m.Grows m') (hm' : m'.Separate) : m.Separate := by
  obtain ⟨hclasses, hmodules⟩ := separate_iff.1 hm'
  refine separate_iff.2 ⟨fun cls c hc => ?_, fun mod d hd => ?_⟩
  · obtain ⟨c', hc', hgrows⟩ := h.classes cls c hc
    exact hgrows.separate (hclasses cls c' hc')
  · obtain ⟨d', hd', hgrows⟩ := h.modules mod d hd
    have hclear : Clear ModuleDoc.fields d'.attributes := hmodules mod d' hd'
    exact hclear.of_grows hgrows.attributes

namespace Separate

/-- Only the classes and the modules matter. -/
theorem of_eq (h : m.Separate) (hclasses : m'.classes = m.classes)
    (hmodules : m'.modules = m.modules) : m'.Separate :=
  ⟨hclasses ▸ h.classes, hmodules ▸ h.modules⟩

/-- A class may be changed to another one that is separate. -/
theorem modifyClass (h : m.Separate) (cls : String) {f : ClassDoc → ClassDoc}
    (hf : ∀ c : ClassDoc, c.Separate → (f c).Separate) : (m.modifyClass cls f).Separate := by
  obtain ⟨hclasses, hmodules⟩ := separate_iff.1 h
  exact separate_iff.2 ⟨hclasses.modify cls fun c _ => hf c, hmodules⟩

/-- A module may be changed apart from its attributes. -/
theorem modifyModule (h : m.Separate) (mod : String) {f : ModuleDoc → ModuleDoc}
    (hf : ∀ d : ModuleDoc, (f d).attributes = d.attributes) : (m.modifyModule mod f).Separate := by
  refine ((separate_modifyModule (Q := True) mod fun d => ?_).2 ⟨h, trivial⟩)
  rw [ModuleDoc.Separate, hf, and_true]
  exact Iff.rfl

end Separate

end Model

end ApiDocs
