import ApiDocs.Proofs.Session.Writes

/-!
# Signatures of written members

A member that an author wrote has a signature: its parameters and its return value. A derived
event counts for nothing here, since a written one may still take its place.

A change of a session is `Steady` if all signatures stay as they are, also the missing ones, and
no member is reported as redefined. **All writes are steady, except for those to the members**
(`Write.steady`). So all that a comment does is steady, apart from the insertion of a member: what
comes before its subject (`steady_prepare`), a subject that is not a member
(`steady_placeSubject`), and what comes after it (`steady_after_subject`).
-/

namespace ApiDocs

/-- The parameters and the return value of a member. -/
def MemberDoc.signature (m : MemberDoc) : List Param × Option Return := (m.params, m.returns)

/-- The signature of the member of a kind and a name, if an author wrote one. -/
def ClassDoc.signature? (c : ClassDoc) (kind : MemberKind) (name : String) :
    Option (List Param × Option Return) :=
  (((c.members kind).get? name).filter (!·.synthetic)).map MemberDoc.signature

/-- The signature of a member of a class, if the class exists and an author wrote the member. -/
def Model.signature? (m : Model) (cls : String) (kind : MemberKind) (name : String) :
    Option (List Param × Option Return) :=
  (m.classes.get? cls).bind (·.signature? kind name)

/-- How often a member was reported as redefined. -/
def Session.redefinitions (s : Session) (cls : String) (kind : MemberKind) (name : String) : Nat :=
  s.context.warnings.count (.memberRedefined kind name cls)

/-! ### Signatures in a class -/

namespace ClassDoc

variable {c c' : ClassDoc} {kind : MemberKind} {name : String}

private theorem signature?_eq_some_iff {σ : List Param × Option Return} :
    c.signature? kind name = some σ ↔
      ∃ m, (c.members kind).get? name = some m ∧ m.synthetic = false ∧ m.signature = σ := by
  simp [signature?, Option.filter_eq_some_iff, and_assoc]

theorem hasWritten_iff_signature? :
    c.HasWritten kind name ↔ (c.signature? kind name).isSome = true := by
  rw [Option.isSome_iff_exists]
  constructor
  · rintro ⟨m, hm, hs⟩
    exact ⟨m.signature, signature?_eq_some_iff.2 ⟨m, hm, hs, rfl⟩⟩
  · rintro ⟨σ, hσ⟩
    obtain ⟨m, hm, hs, -⟩ := signature?_eq_some_iff.1 hσ
    exact ⟨m, hm, hs⟩

/-- Only the members of the kind matter. -/
private theorem signature?_of_members_eq (h : c'.members kind = c.members kind) :
    c'.signature? kind name = c.signature? kind name := by
  rw [signature?, h]
  rfl

/-- Tags never touch a signature. -/
private theorem signature_applyTags (m : MemberDoc) (tags : List (String × String)) :
    (m.applyTags tags).signature = m.signature := by
  induction tags generalizing m with
  | nil => rfl
  | cons t rest ih =>
    refine (ih (m.applyTag t.1 t.2)).trans ?_
    unfold MemberDoc.applyTag
    split
    · rfl
    · split <;> rfl

private theorem signature?_tagMember (kind' : MemberKind) (name' : String)
    (tags : List (String × String)) :
    (c.modifyMember kind' name' (·.applyTags tags)).signature? kind name =
      c.signature? kind name := by
  rw [signature?, modifyMember, members_setMembers]
  split
  · rename_i hkind
    subst hkind
    rw [Dict.get?_modify, signature?]
    cases hget : (c.members kind).get? name with
    | none => rfl
    | some m =>
      by_cases hname : name = name'
      · simp [hname, Option.filter, synthetic_applyTags, signature_applyTags, apply_ite]
      · simp [hname]
  · rfl

/-- A written member that is inserted gives its signature. -/
theorem signature?_insert {kind' : MemberKind} {doc : MemberDoc} (written : doc.synthetic = false) :
    (c.setMembers kind' ((c.members kind').insert doc.name doc)).signature? kind name =
      if kind' = kind ∧ doc.name = name then some doc.signature else c.signature? kind name := by
  rw [signature?, members_setMembers]
  by_cases hkind : kind' = kind
  · subst hkind
    rw [if_pos rfl, Dict.get?_insert]
    by_cases hname : doc.name = name
    · subst hname
      rw [if_pos rfl, if_pos ⟨rfl, rfl⟩, Option.filter_some, if_pos (by rw [written]; rfl)]
      rfl
    · rw [if_neg fun h => hname h.symm, if_neg fun h => hname h.2]
      rfl
  · rw [if_neg fun h => hkind h.symm, if_neg fun h => hkind h.1]
    rfl

/-- Derived events have no signature. -/
theorem signature?_addNewEvents {events : List MemberDoc}
    (derived : ∀ e ∈ events, e.synthetic = true) :
    (c.addNewEvents events).signature? kind name = c.signature? kind name := by
  by_cases hkind : kind = .event
  · subst hkind
    have hget : ((c.addNewEvents events).members .event).get? name =
        (c.events.get? name).or (events.find? (·.name = name)) :=
      get?_events_addNewEvents c events name
    have hsame : (c.members .event).get? name = c.events.get? name := rfl
    rw [signature?, signature?, hget, hsame]
    cases c.events.get? name with
    | some m => rfl
    | none =>
      rw [Option.none_or]
      cases hfind : events.find? (·.name = name) with
      | none => rfl
      | some e => simp [derived e (List.mem_of_find?_eq_some hfind)]
  · exact signature?_of_members_eq (members_addNewEvents c events hkind)

end ClassDoc

/-! ### Signatures in a model -/

namespace Model

variable {m : Model} {cls : String} {kind : MemberKind} {name : String}

/-- Changes of a class that touch no signature. -/
theorem signature?_modifyClass {f : ClassDoc → ClassDoc}
    (hf : ∀ c, (f c).signature? kind name = c.signature? kind name) (cls' : String) :
    (m.modifyClass cls' f).signature? cls kind name = m.signature? cls kind name := by
  rw [signature?, get?_modifyClass, signature?]
  cases m.classes.get? cls with
  | none => rfl
  | some c =>
    rw [Option.map_some, Option.bind_some, Option.bind_some]
    split
    · exact hf c
    · rfl

end Model

/-! ### Steady changes -/

namespace Session

/-- **All signatures stay, and no member is reported as redefined.** -/
structure Steady (s s' : Session) : Prop where
  signature : ∀ cls kind name,
    s'.model.signature? cls kind name = s.model.signature? cls kind name
  redefined : ∀ cls kind name, s'.redefinitions cls kind name = s.redefinitions cls kind name

namespace Steady

variable {s s' s'' : Session}

theorem refl (s : Session) : s.Steady s := ⟨fun _ _ _ => rfl, fun _ _ _ => rfl⟩

theorem trans (h : s.Steady s') (h' : s'.Steady s'') : s.Steady s'' where
  signature cls kind name := (h'.signature cls kind name).trans (h.signature cls kind name)
  redefined cls kind name := (h'.redefined cls kind name).trans (h.redefined cls kind name)

theorem of_eq (hclasses : s'.model.classes = s.model.classes)
    (hwarnings : s'.context.warnings = s.context.warnings) : s.Steady s' where
  signature cls kind name := by
    rw [Model.signature?, hclasses]
    rfl
  redefined cls kind name := by
    rw [redefinitions, hwarnings]
    rfl

end Steady

theorem Seeks.steady {s s' : Session} (h : s.Seeks s') : s.Steady s' where
  signature cls kind name := by rw [h.model]
  redefined cls kind name := by
    obtain ⟨_, ws, _, hws, rfl⟩ := h
    have hnone : ws.count (.memberRedefined kind name cls) = 0 := by
      refine List.count_eq_zero.2 fun hmem => ?_
      have hfalse := hws _ hmem
      cases hfalse
    rw [redefinitions, List.count_append, hnone, Nat.add_zero]
    rfl

variable (s : Session) (tokens : List String) (tags : TagMap)

private theorem steady_modifyClass (cls : String) {f : ClassDoc → ClassDoc}
    (hf : ∀ c kind name, (f c).signature? kind name = c.signature? kind name) :
    s.Steady (s.modifyClass cls f) :=
  ⟨fun _ kind name => Model.signature?_modifyClass (fun c => hf c kind name) cls,
    fun _ _ _ => rfl⟩

/-- Changes of a class apart from its members. -/
private theorem steady_modifyClass_of_members (cls : String) {f : ClassDoc → ClassDoc}
    (hf : ∀ c kind, (f c).members kind = c.members kind) : s.Steady (s.modifyClass cls f) :=
  s.steady_modifyClass cls fun c kind _ => ClassDoc.signature?_of_members_eq (hf c kind)

/-- A class that is new has no members. -/
private theorem steady_defineClass (name : String) : s.Steady (s.defineClass tokens name) := by
  rw [defineClass]
  split
  · exact ((s.seeks_enterClass _).trans (seeks_warn _ tokens rfl)).steady
  · rename_i hnew
    refine ⟨fun cls kind name' => ?_, fun _ _ _ => rfl⟩
    rw [Model.signature?, Model.signature?, Dict.get?_insert]
    split
    · rename_i hcls
      have hnone : s.model.classes.get? cls = none := by
        rw [hcls]
        simpa [Dict.contains] using hnew
      rw [hnone]
      cases kind <;> rfl
    · rfl

/-- A write to anything but the members is steady. -/
private theorem Write.steady {named : List String} {part : Option Part} {s s' : Session}
    (h : Write named part s s') (hpart : part ≠ some .members) : s.Steady s' := by
  cases h with
  | seek _ inClass ws notes others => exact Seeks.steady ⟨inClass, ws, notes, others, rfl⟩
  | remember | defer | drain | modifyModule | describePart | tagModule | modifyFile | addFile
  | enterFile => exact .of_eq rfl rfl
  | modifyClass _ cls | relateClass _ cls =>
    exact s.steady_modifyClass_of_members cls fun c kind => by cases kind <;> rfl
  | tagClass _ cls tags =>
    exact s.steady_modifyClass_of_members cls fun c kind => by rw [ClassDoc.members_applyTags]
  | tagMember _ cls kind name tags =>
    exact s.steady_modifyClass cls fun c _ _ => c.signature?_tagMember kind name tags
  | redefine | insertMember => exact absurd rfl hpart

private theorem Writes.steady {named : List String} {parts : List Part} {s s' : Session}
    (h : Writes named parts s s') (hparts : .members ∉ parts) : s.Steady s' :=
  h.rel .refl (fun _ _ _ => .trans) fun _ _ _ hpart h =>
    h.steady fun hmembers => hparts (hpart _ hmembers)

/-! ### Comments -/

private theorem steady_enterFor (name : String) : s.Steady (s.enterFor tokens name) := by
  have hdefine := s.steady_defineClass tokens name
  rw [enterFor]
  split
  · exact (s.seeks_enterClass _).steady
  · split
    · exact hdefine
    · split
      · exact hdefine
      · refine hdefine.trans (steady_modifyClass_of_members _ _ fun c kind => ?_)
        cases kind <;> rfl

theorem steady_prepare (following : Option String) :
    s.Steady (s.prepare tokens following).1 := by
  refine s.before_subject tokens following (fun _ _ _ => .trans) (fun _ _ h => h.steady)
    (fun s name => ?_) (fun _ _ => .of_eq rfl rfl) fun s name => s.steady_enterFor tokens name
  cases name <;> exact .of_eq rfl rfl

/-- **A subject that is not a member** changes no signature. -/
theorem steady_placeSubject (outer : Option String) (h : (Subject.ofTags tags).isMember = false) :
    s.Steady (s.placeSubject tokens tags outer).1 := by
  have hdefine : s.Steady (s.defineDeclared tokens tags) := by
    rw [defineDeclared]
    split
    · exact s.steady_defineClass tokens _
    · exact .refl s
  have hparts : .members ∉ (Subject.ofTags tags).parts := by
    cases hsubject : Subject.ofTags tags with
    | method | event | property | attr | config => simp [hsubject, Subject.isMember] at h
    | file | cls | mod | nothing => decide
  exact hdefine.trans ((s.writes_placeSubject tokens tags outer).steady hparts)

/-- Tags are copied to members as well, but not to their signatures. -/
theorem steady_after_subject (outer : Option String) :
    (s.placeSubject tokens tags outer).1.Steady (s.place tokens tags outer).1 :=
  (s.writes_after_subject tokens tags outer).steady (by decide)

end Session

end ApiDocs
