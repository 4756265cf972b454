import ApiDocs.Model.ChangeEvent
import ApiDocs.Session.Target

/-!
# What comments do to the members of a class

A comment about a member concerns the dictionary of its kind, where it defines the member unless an
author wrote it before, and copies its remaining tags there (`Dict.document`). A config also derives
events (`Dict.derive`). `Described` is such a comment, read, and `Described.effect` what it does to
each of the four dictionaries.

**The effects of two comments commute** if they are about different members, and not both about
configs that share an event (`Described.effect_comm`). The reason is that a derived event and a
missing one are the same to whatever defines an event: only the `written` members count.
-/

namespace ApiDocs

namespace Dict

variable (ms : Dict MemberDoc)

/-- The members that authors wrote. -/
def written : Dict MemberDoc := ms.filter (!·.synthetic)

/-- Adds a member, unless there is a written one of its name. -/
def define (doc : MemberDoc) : Dict MemberDoc :=
  if ms.written.contains doc.name then ms else ms.insert doc.name doc

/-- Adds a member, unless there is a written one of its name, and copies tags to it. -/
def document (doc : MemberDoc) (tags : List (String × String)) : Dict MemberDoc :=
  (ms.define doc).modify doc.name (·.applyTags tags)

/-- Adds the events whose names are not taken, one after the other. -/
def derive (events : List MemberDoc) : Dict MemberDoc :=
  events.foldl (fun ms e => ms.insertNew e.name e) ms

/-- A member is among the written ones unless it is derived. -/
theorem get?_written (name : String) :
    ms.written.get? name = (ms.get? name).filter (!·.synthetic) :=
  get?_filter _ ms name

theorem written_written : ms.written.written = ms.written := by
  refine ext_get? fun k => ?_
  rw [get?_written, get?_written, Option.filter_filter]
  simp

/-- A member that is defined takes its place unless there is a written one. -/
theorem get?_define (doc : MemberDoc) (k : String) :
    (ms.define doc).get? k =
      if k = doc.name then some ((ms.written.get? doc.name).getD doc) else ms.get? k := by
  rw [define]
  by_cases hw : ms.written.contains doc.name = true
  · obtain ⟨old, hold⟩ := contains_iff.1 hw
    have hget : ms.get? doc.name = some old := by
      rw [get?_written] at hold
      exact (Option.filter_eq_some_iff.1 hold).1
    rw [if_pos hw, hold, Option.getD_some]
    split
    · rename_i hk
      rw [hk, hget]
    · rfl
  · have hnone : ms.written.get? doc.name = none := by simpa [contains] using hw
    rw [if_neg hw, hnone, Option.getD_none, get?_insert]

/-- A comment about a member defines it and copies its tags. -/
theorem get?_document (doc : MemberDoc) (tags : List (String × String)) (k : String) :
    (ms.document doc tags).get? k =
      if k = doc.name then some (((ms.written.get? doc.name).getD doc).applyTags tags)
      else ms.get? k := by
  rw [document, get?_modify, get?_define]
  by_cases hk : k = doc.name
  · simp [hk]
  · simp [hk]

/-- A derived event comes up only where no member has its name. -/
theorem get?_derive (events : List MemberDoc) (k : String) :
    (ms.derive events).get? k = (ms.get? k).or (events.find? (·.name = k)) := by
  induction events generalizing ms with
  | nil => simp [derive]
  | cons e rest ih =>
    have hstep : (ms.derive (e :: rest)).get? k = ((ms.insertNew e.name e).derive rest).get? k :=
      rfl
    rw [hstep, ih, get?_insertNew]
    by_cases hk : k = e.name
    · subst hk
      cases ms.get? e.name <;> simp
    · have hk' : ¬e.name = k := fun he => hk he.symm
      simp [hk, hk']

/-! ### What is written -/

/-- A written member is defined among the written ones. -/
theorem written_define {doc : MemberDoc} (hdoc : doc.synthetic = false) :
    (ms.define doc).written = ms.written.define doc := by
  refine ext_get? fun k => ?_
  rw [get?_written, get?_define, get?_define, written_written]
  split
  · have hnew : ((ms.written.get? doc.name).getD doc).synthetic = false := by
      rw [get?_written]
      cases hget : (ms.get? doc.name).filter (!·.synthetic) with
      | none => exact hdoc
      | some old => simpa using (Option.filter_eq_some_iff.1 hget).2
    simp [Option.filter, hnew]
  · exact (get?_written ms k).symm

/-- Changes of members that keep the derived ones apart can be made among the written ones. -/
theorem written_modify (name : String) {f : MemberDoc → MemberDoc}
    (hf : ∀ m, (f m).synthetic = m.synthetic) :
    (ms.modify name f).written = ms.written.modify name f := by
  refine ext_get? fun k => ?_
  rw [get?_written, get?_modify, get?_modify, get?_written]
  cases ms.get? k with
  | none => rfl
  | some m =>
    by_cases hk : k = name
    · cases hm : m.synthetic <;> simp [hk, Option.filter, hf, hm]
    · simp [hk]

/-- Derived events do not count as written, whatever place they take. -/
theorem written_derive {events : List MemberDoc} (hevents : ∀ e ∈ events, e.synthetic = true) :
    (ms.derive events).written = ms.written := by
  refine ext_get? fun k => ?_
  rw [get?_written, get?_written, get?_derive]
  cases ms.get? k with
  | some m => rfl
  | none =>
    cases hfind : events.find? (·.name = k) with
    | none => rfl
    | some e =>
      have he : e.synthetic = true := hevents e (List.mem_of_find?_eq_some hfind)
      simp [Option.filter, he]

/-! ### The order of two changes -/

private theorem document_comm {doc doc' : MemberDoc} (hne : doc.name ≠ doc'.name)
    (tags tags' : List (String × String)) :
    (ms.document doc tags).document doc' tags' = (ms.document doc' tags').document doc tags := by
  have hsame (ms : Dict MemberDoc) {doc doc' : MemberDoc} (hne : doc'.name ≠ doc.name)
      (tags : List (String × String)) :
      (ms.document doc tags).written.get? doc'.name = ms.written.get? doc'.name := by
    rw [get?_written, get?_document, if_neg hne, get?_written]
  refine ext_get? fun k => ?_
  rw [get?_document, hsame ms hne.symm, get?_document, get?_document, hsame ms hne, get?_document]
  by_cases hk : k = doc.name
  · rw [if_pos hk, if_pos hk, if_neg (hk ▸ hne)]
  · rw [if_neg hk, if_neg hk]

/-- A derived event gives way to a written one and does not replace it. -/
private theorem document_derive {events : List MemberDoc}
    (hevents : ∀ e ∈ events, e.synthetic = true)
    (doc : MemberDoc) (tags : List (String × String)) :
    (ms.derive events).document doc tags = (ms.document doc tags).derive events := by
  refine ext_get? fun k => ?_
  rw [get?_document, written_derive ms hevents, get?_derive, get?_derive, get?_document]
  split
  · rfl
  · rfl

/-- Events of different names may be derived in either order. -/
private theorem derive_comm {events events' : List MemberDoc}
    (hne : ∀ e ∈ events, ∀ e' ∈ events', e.name ≠ e'.name) :
    (ms.derive events).derive events' = (ms.derive events').derive events := by
  refine ext_get? fun k => ?_
  have hone : events.find? (·.name = k) = none ∨ events'.find? (·.name = k) = none := by
    cases hfind : events.find? (·.name = k) with
    | none => exact .inl rfl
    | some e =>
      refine .inr (List.find?_eq_none.2 fun e' he' hk => ?_)
      have hname : e.name = k := by simpa using List.find?_some hfind
      have hname' : e'.name = k := by simpa using hk
      exact hne e (List.mem_of_find?_eq_some hfind) e' he' (hname.trans hname'.symm)
  rw [get?_derive, get?_derive, get?_derive, get?_derive, Option.or_assoc, Option.or_assoc]
  rcases hone with hnone | hnone
  · rw [hnone, Option.none_or, Option.or_none]
  · rw [hnone, Option.none_or, Option.or_none]

end Dict

namespace ClassDoc

/-- Changes the members of each kind. -/
def mapMembers (f : MemberKind → Dict MemberDoc → Dict MemberDoc) (c : ClassDoc) : ClassDoc :=
  { c with
    methods := f .method c.methods
    events := f .event c.events
    properties := f .property c.properties
    configs := f .config c.configs }

theorem members_mapMembers (f : MemberKind → Dict MemberDoc → Dict MemberDoc) (c : ClassDoc)
    (kind : MemberKind) : (c.mapMembers f).members kind = f kind (c.members kind) := by
  cases kind <;> rfl

theorem mapMembers_mapMembers (f g : MemberKind → Dict MemberDoc → Dict MemberDoc)
    (c : ClassDoc) :
    (c.mapMembers f).mapMembers g = c.mapMembers fun kind ms => g kind (f kind ms) :=
  rfl

end ClassDoc

/-- A comment about a member as it was read: the member that it defines, and the tags that are
copied to it. -/
structure Described where
  kind : MemberKind
  doc : MemberDoc
  tags : List (String × String)
  deriving DecidableEq, Repr

namespace Described

variable (d d' : Described) (v : UInt32)

/-- The events that come with the member, in a model of major version `v`. -/
def events : List MemberDoc := if d.kind = .config then changeEvents d.doc.name v else []

/-- **What a comment about a member does** to the members of a kind. -/
def effect (kind : MemberKind) (ms : Dict MemberDoc) : Dict MemberDoc :=
  if kind = d.kind then ms.document d.doc d.tags
  else if kind = .event then ms.derive (d.events v)
  else ms

private theorem synthetic_of_mem_events : ∀ e ∈ d.events v, e.synthetic = true := by
  intro e he
  rw [events] at he
  split at he
  · exact synthetic_of_mem_changeEvents he
  · exact absurd he List.not_mem_nil

/-- From major version 3 on, no two configs share an event. -/
private theorem events_disjoint (hne : d.kind ≠ d'.kind ∨ d.doc.name ≠ d'.doc.name)
    (hv : ¬(d.kind = .config ∧ d'.kind = .config) ∨ 2 < v) :
    ∀ e ∈ d.events v, ∀ e' ∈ d'.events v, e.name ≠ e'.name := by
  intro e he e' he'
  rw [events] at he he'
  split at he
  · rename_i hkind
    split at he'
    · rename_i hkind'
      have hversion : 2 < v := hv.resolve_left fun h => h ⟨hkind, hkind'⟩
      have hname : d.doc.name ≠ d'.doc.name := hne.resolve_left fun h => h (hkind.trans hkind'.symm)
      rw [changeEvents, if_pos hversion, List.mem_singleton] at he he'
      rw [he, he']
      intro heq
      exact hname (String.append_left_inj _ |>.1 heq)
    · exact absurd he' List.not_mem_nil
  · exact absurd he List.not_mem_nil

/-- **The effects of two comments about different members commute.** -/
theorem effect_comm (hne : d.kind ≠ d'.kind ∨ d.doc.name ≠ d'.doc.name)
    (hv : ¬(d.kind = .config ∧ d'.kind = .config) ∨ 2 < v) (kind : MemberKind)
    (ms : Dict MemberDoc) :
    d'.effect v kind (d.effect v kind ms) = d.effect v kind (d'.effect v kind ms) := by
  by_cases hk : kind = d.kind
  · by_cases hk' : kind = d'.kind
    · have hname : d.doc.name ≠ d'.doc.name := hne.resolve_left fun h => h (hk.symm.trans hk')
      simp only [effect, if_pos hk, if_pos hk']
      exact ms.document_comm hname d.tags d'.tags
    · simp only [effect, if_pos hk, if_neg hk']
      split
      · exact (ms.document_derive (d'.synthetic_of_mem_events v) d.doc d.tags).symm
      · rfl
  · by_cases hk' : kind = d'.kind
    · simp only [effect, if_neg hk, if_pos hk']
      split
      · exact ms.document_derive (d.synthetic_of_mem_events v) d'.doc d'.tags
      · rfl
    · simp only [effect, if_neg hk, if_neg hk']
      split
      · exact ms.derive_comm (d.events_disjoint d' v hne hv)
      · rfl

end Described

end ApiDocs
