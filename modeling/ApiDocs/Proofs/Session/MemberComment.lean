import ApiDocs.Proofs.Session.MissingClass

/-!
# Plain comments about members

A comment is about a member plainly if it says nothing else that counts outside its class
(`IsPlain`). Such a comment has an effect only if it names a member and the class of the member is
found (`home?`): it then does to that class what the comment says of the member (`described`), and
to nothing else (`readComment_eq_ok_iff`).
-/

namespace ApiDocs.Session

variable {s : Session} (tokens : List String) (tags : TagMap)

/-! ### Inserting a member -/

section Insert

variable (cls : String)

/-- A member is defined in its class, unless there is a written one. -/
theorem model_insertMember (kind : MemberKind) (doc : MemberDoc) :
    (s.insertMember tokens cls kind doc).model =
      s.model.modifyClass cls fun c => c.setMembers kind ((c.members kind).define doc) := by
  cases hc : s.model.classes.get? cls with
  | none =>
    have hsame : (s.insertMember tokens cls kind doc).model = s.model := by
      rw [insertMember, hc]
    rw [hsame, Model.modifyClass_of_none hc]
  | some c =>
    have hsame (c' : ClassDoc) (hc' : s.model.classes.get? cls = some c') : c' = c :=
      Option.some.inj (hc'.symm.trans hc)
    -- the definition of a member is decided by the class as it is, and by nothing else
    by_cases hw : c.HasWritten kind doc.name
    · rw [model_insertMember_of_written tokens doc hc hw]
      refine (Model.modifyClass_id s.model cls).symm.trans (Model.modifyClass_congr ?_)
      intro c' hc'
      rw [hsame c' hc', Dict.define, if_pos (ClassDoc.hasWritten_iff.1 hw),
        ClassDoc.setMembers_members]
      rfl
    · rw [model_insertMember_of_free tokens doc hc hw]
      refine Model.modifyClass_congr ?_
      intro c' hc'
      rw [hsame c' hc', Dict.define, if_neg (mt ClassDoc.hasWritten_iff.2 hw)]

/-- Derived events are added to their class, if that exists. -/
theorem model_deriveEvents (events : List MemberDoc) :
    (events.foldl (addDerivedEvent cls) s).model =
      s.model.modifyClass cls (·.addNewEvents events) := by
  cases hc : s.model.classes.get? cls with
  | some c => exact model_foldl_addDerivedEvent hc events
  | none =>
    have hsame (event : MemberDoc) : addDerivedEvent cls s event = s := by
      rw [addDerivedEvent, hc]
    have hall : events.foldl (addDerivedEvent cls) s = s := by
      induction events with
      | nil => rfl
      | cons e rest ih => rw [List.foldl_cons, hsame, ih]
    rw [hall, Model.modifyClass_of_none hc]

/-- A config is defined and derives its events. -/
theorem model_insertConfig (name : String) :
    (s.insertConfig tokens cls name).model = s.model.modifyClass cls fun c =>
      (c.setMembers .config ((c.members .config).define { name })).addNewEvents
        (changeEvents name s.model.majorVersion) := by
  have hversion : (s.insertMember tokens cls .config { name }).model.majorVersion =
      s.model.majorVersion := by
    rw [model_insertMember]
    rfl
  rw [insertConfig, model_deriveEvents, hversion, model_insertMember, Model.modifyClass_modifyClass]
  rfl

/-- **What a comment about a member leaves behind** once its class was found and its signature
read. -/
theorem model_describe (kind : MemberKind) (name : String) (left : TagMap) :
    ((s.insert tokens ⟨cls, kind, describedMember tags kind name⟩).applyLeftovers
        { tags := left, target := some (.member cls kind name) }).model =
      s.model.modifyClass cls (·.mapMembers (Described.effect
        ⟨kind, describedMember tags kind name, left.leftovers⟩ s.model.majorVersion)) := by
  have hleft : ((s.insert tokens ⟨cls, kind, describedMember tags kind name⟩).applyLeftovers
        { tags := left, target := some (.member cls kind name) }).model =
      (s.insert tokens ⟨cls, kind, describedMember tags kind name⟩).model.modifyClass cls
        (·.modifyMember kind name (·.applyTags left.leftovers)) := rfl
  rw [hleft, insert]
  cases kind with
  | method =>
    rw [model_insertMember, Model.modifyClass_modifyClass]
    rfl
  | event =>
    rw [model_insertMember, Model.modifyClass_modifyClass]
    rfl
  | property =>
    rw [model_insertMember, Model.modifyClass_modifyClass]
    rfl
  | config =>
    rw [model_insertConfig, Model.modifyClass_modifyClass]
    refine Model.modifyClass_congr fun c _ => ?_
    rw [Function.comp_apply, ClassDoc.addNewEvents_eq]
    rfl

end Insert

/-! ### A whole comment -/

/-- What a comment with the given tags says about a member. -/
def described (tags : TagMap) (kind : MemberKind) (name : String) : Described :=
  let rest := kind.ownTags.foldl Dict.erase tags
  { kind
    doc := describedMember rest kind name
    tags := TagMap.leftovers (kind.signatureTags.foldl Dict.erase rest) }

section Place

variable {tags} {kind : MemberKind} {name : String}
  (hkind : (Subject.ofTags tags).memberKind? = some kind)
  (hname : tags.name? (Subject.ofTags tags).word = some name)

include hkind hname

/-- A comment about a member succeeds if there is a class to go to and its signature is right. -/
private theorem place_member (hplain : tags.contains "constructor" = false) (outer : Option String)
    {cls : String} (hhome : s.home? = some cls)
    (hsignature : signatureFault? (kind.ownTags.foldl Dict.erase tags) kind = none) :
    ∃ s₁, s.place tokens tags outer = (s₁, .ok ()) ∧
      s₁.model = s.model.modifyClass cls
        (·.mapMembers ((described tags kind name).effect s.model.majorVersion)) ∧
      s₁.context.inClass = some cls := by
  obtain ⟨s₁, hseeks, hin, -, hplaced⟩ := placeMember_of_home tokens kind hname hhome
  rw [signatureFault?_ownTags] at hsignature
  have hnone : ¬Dict.contains (kind.signatureTags.foldl Dict.erase
      (kind.ownTags.foldl Dict.erase tags)) "constructor" = true := by
    have hown : "constructor" ∉ kind.ownTags := by cases kind <;> decide
    have hsigned : "constructor" ∉ kind.signatureTags := by cases kind <;> decide
    rw [Dict.contains_foldl_erase hsigned, Dict.contains_foldl_erase hown, hplain]
    exact Bool.false_ne_true
  rw [place, placeSubject_eq_placeMember tokens tags hkind outer, hplaced hsignature]
  dsimp only
  rw [if_neg hnone]
  refine ⟨_, rfl, ?_, ?_⟩
  · rw [model_describe, hseeks.model, described, describedMember_ownTags]
  · exact (inClass_insert tokens _).trans hin

/-- Otherwise it fails, and only the class and the record of the reading may have changed. -/
private theorem place_member_error (outer : Option String)
    (h : s.home? = none ∨ signatureFault? (kind.ownTags.foldl Dict.erase tags) kind ≠ none) :
    ∃ s₁ e, s.place tokens tags outer = (s₁, .error e) ∧ s.Seeks s₁ := by
  rw [place, placeSubject_eq_placeMember tokens tags hkind outer]
  cases hhome : s.home? with
  | none =>
    obtain ⟨s₁, e, hseeks, hplaced⟩ := placeMember_of_homeless tokens kind hname hhome
    rw [hplaced]
    exact ⟨_, _, rfl, hseeks⟩
  | some cls =>
    obtain ⟨s₁, hseeks, -, hfailed, -⟩ := placeMember_of_home tokens kind hname hhome
    have hfault := h.resolve_left (by rw [hhome]; exact Option.some_ne_none cls)
    rw [signatureFault?_ownTags] at hfault
    obtain ⟨e, he⟩ := Option.ne_none_iff_exists'.1 hfault
    rw [hfailed e he]
    exact ⟨_, _, rfl, hseeks⟩

end Place

/-! ### Before a plain comment is placed -/

/-- The tags with the one for what the following code declares, if none says what the comment
documents. -/
def guessTags (tags : TagMap) (following : Option String) : TagMap :=
  if structuralTags.any tags.contains then tags
  else
    match following.bind Comment.guess with
    | none => tags
    | some d => tagDeclaration tags d

/-- The tags that decide what a plain comment is about. -/
def subjectTags (tokens : List String) (following : Option String) : TagMap :=
  guessTags (collect tokens).tags following

theorem exists_guessSubject_eq (following : Option String) :
    ∃ notes, s.guessSubject tags following = (s.log notes, guessTags tags following) := by
  rw [guessSubject, guessTags]
  split
  · exact ⟨[], by rw [log_nil]⟩
  · cases following.bind Comment.guess with
    | none => exact ⟨[], by rw [log_nil]⟩
    | some d => exact ⟨[.guessed d], rfl⟩

private theorem exists_warnAll_eq (s : Session) (ws : List Warning) :
    ∃ notes, s.warnAll tokens ws =
      { s with
        context := { s.context with warnings := s.context.warnings ++ ws }
        notes := notes } := by
  induction ws generalizing s with
  | nil => exact ⟨s.notes, by rw [List.append_nil]; rfl⟩
  | cons w ws ih =>
    obtain ⟨notes, heq⟩ := ih (s.warn tokens w)
    refine ⟨notes, heq.trans ?_⟩
    rw [warn, List.append_assoc]
    rfl

/-- A comment without a namespace, a class that it is written for, or a constructor. -/
def IsPlain (tokens : List String) : Prop :=
  ∀ tag ∈ ["namespace", "for", "constructor"], (collect tokens).tags.contains tag = false

instance (tokens : List String) : Decidable (IsPlain tokens) :=
  inferInstanceAs (Decidable (∀ tag ∈ _, _))

section Prepare

variable {tokens} (hplain : IsPlain tokens) (following : Option String)

include hplain

/-- Before a plain comment is placed nothing changes but the current module and the record of the
reading. -/
theorem prepare_of_isPlain :
    ∃ notes, s.prepare tokens following =
      ({ s with
          context := { s.context with
            inModule := (collect tokens).inModule <|> s.context.inModule
            warnings := s.context.warnings ++ (collect tokens).warnings }
          notes := notes },
        subjectTags tokens following) := by
  have hfirst (tag : String) (h : tag ∈ ["namespace", "for", "constructor"]) :
      (collect tokens).tags.first tag = none := by
    have hnone : (collect tokens).tags.get? tag = none := by
      simpa [Dict.contains] using hplain tag h
    rw [TagMap.first, hnone]
    rfl
  have hspace (s : Session) : s.applyNamespace (collect tokens).tags = s := by
    rw [applyNamespace, TagMap.name?, hfirst "namespace" (by decide)]
    rfl
  have herase : (collect tokens).tags.erase "namespace" = (collect tokens).tags :=
    Dict.erase_of_contains_eq_false (hplain "namespace" (by decide))
  have hmodule (s : Session) (name : Option String) : s.enterModule name =
      { s with context := { s.context with inModule := name <|> s.context.inModule } } := by
    cases name <;> rfl
  obtain ⟨notes, hwarn⟩ := exists_warnAll_eq tokens s (collect tokens).warnings
  obtain ⟨more, hguess⟩ := exists_guessSubject_eq
    (s := { s with
      context := { s.context with
        inModule := (collect tokens).inModule <|> s.context.inModule
        warnings := s.context.warnings ++ (collect tokens).warnings }
      notes := notes }) (collect tokens).tags following
  rw [prepare]
  dsimp only
  rw [hspace, herase, hfirst "for" (by decide), hwarn, hmodule]
  exact ⟨notes ++ more, hguess⟩

theorem contains_constructor_subjectTags :
    (subjectTags tokens following).contains "constructor" = false := by
  have hnone := hplain "constructor" (by decide)
  rw [subjectTags, guessTags]
  split
  · exact hnone
  · cases following.bind Comment.guess with
    | none => exact hnone
    | some d =>
      cases d with
      | method name => simp [tagDeclaration, TagMap.push, hnone]
      | property name => simp [tagDeclaration, TagMap.push, hnone]

end Prepare

/-! ### Reading a comment about a member -/

/-- **A plain comment is about the member** of a kind and a name. -/
structure AboutMember (tokens : List String) (following : Option String) (kind : MemberKind)
    (name : String) : Prop where
  plain : IsPlain tokens
  kind : (Subject.ofTags (subjectTags tokens following)).memberKind? = some kind
  name : (subjectTags tokens following).name?
    (Subject.ofTags (subjectTags tokens following)).word = some name

namespace AboutMember

variable {tokens : List String} {following : Option String} {kind : MemberKind} {name : String}
  (h : AboutMember tokens following kind name)

include h

/-- **A comment about a member is read** if there is a class to go to and its signature is right:
the class takes the member, and is the current one from then on. -/
theorem readComment_of_home {cls : String} (hhome : s.home? = some cls)
    (hsignature : signatureFault?
      (kind.ownTags.foldl Dict.erase (subjectTags tokens following)) kind = none) :
    (s.readComment tokens following).2 = .ok () ∧
      (s.readComment tokens following).1.model = s.model.modifyClass cls (·.mapMembers
        ((described (subjectTags tokens following) kind name).effect
          s.model.majorVersion)) ∧
      (s.readComment tokens following).1.context.inClass = some cls := by
  obtain ⟨notes, hprepare⟩ := prepare_of_isPlain (s := s) h.plain following
  rw [readComment, hprepare]
  dsimp only
  -- the comment is placed in a session with the same model and the same home
  generalize hs₁ : Session.mk s.model _ notes = s₁
  have hmodel : s₁.model = s.model := by rw [← hs₁]
  have hhome₁ : s₁.home? = some cls := by
    rw [← hs₁]
    exact hhome
  obtain ⟨s₂, hplace, hmodel₂, hin⟩ := place_member tokens h.kind h.name
    (contains_constructor_subjectTags h.plain following)
    ((subjectTags tokens following).first "for") hhome₁ hsignature
  rw [hplace, ← hmodel]
  exact ⟨rfl, hmodel₂, hin⟩

/-- Otherwise it cannot be read. -/
private theorem readComment_error (hfail : s.home? = none ∨ signatureFault?
      (kind.ownTags.foldl Dict.erase (subjectTags tokens following)) kind ≠ none) :
    (s.readComment tokens following).2 ≠ .ok () := by
  obtain ⟨notes, hprepare⟩ := prepare_of_isPlain (s := s) h.plain following
  rw [readComment, hprepare]
  dsimp only
  generalize hs₁ : Session.mk s.model _ notes = s₁
  have hfail₁ : s₁.home? = none ∨ _ := hfail.imp_left fun hnone => by
    rw [← hs₁]
    exact hnone
  obtain ⟨s₂, e, hplace, -⟩ := place_member_error tokens h.kind h.name
    ((subjectTags tokens following).first "for") hfail₁
  rw [hplace]
  exact fun heq => by cases heq

/-- **When a comment about a member can be read.** -/
theorem readComment_eq_ok_iff :
    (s.readComment tokens following).2 = .ok () ↔ (∃ cls, s.home? = some cls) ∧ signatureFault?
      (kind.ownTags.foldl Dict.erase (subjectTags tokens following)) kind = none := by
  constructor
  · intro hok
    constructor
    · refine Option.ne_none_iff_exists'.1 fun hnone => ?_
      exact h.readComment_error (.inl hnone) hok
    · by_contra hfault
      exact h.readComment_error (.inr hfault) hok
  · rintro ⟨⟨cls, hhome⟩, hsignature⟩
    exact (h.readComment_of_home hhome hsignature).1

end AboutMember

end ApiDocs.Session
