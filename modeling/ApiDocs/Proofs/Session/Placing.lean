import ApiDocs.Proofs.Session.Run
import ApiDocs.Proofs.Tag.Collect

/-!
# What comments about members do

A comment about a member looks for the class that the member belongs to, reads the signature and
inserts the member; each of these may fail. `placeSubject_member` says so once, for members of all
kinds. Before the insertion only the current class and the record of the reading change
(`Session.Seeks`), and all that such a comment changes besides are classes (`Session.OnlyClasses`).
`after_subject` describes the rest of a comment, whatever it is about.
-/

namespace ApiDocs

namespace Session

/-! ### Changes of a few parts -/

/-- Only the current class and the record of the reading differ, and no member was redefined. -/
def Seeks (s s' : Session) : Prop :=
  ∃ inClass ws notes, (∀ w ∈ ws, w.isRedefinition = false) ∧ s' =
    { s with
      context := { s.context with inClass := inClass, warnings := s.context.warnings ++ ws }
      notes := notes }

namespace Seeks

variable {s s' s'' : Session}

theorem refl (s : Session) : s.Seeks s :=
  ⟨s.context.inClass, [], s.notes, by simp, by rw [List.append_nil]⟩

theorem trans (h : s.Seeks s') (h' : s'.Seeks s'') : s.Seeks s'' := by
  obtain ⟨_, ws, _, hws, rfl⟩ := h
  obtain ⟨inClass, ws', notes, hws', rfl⟩ := h'
  refine ⟨inClass, ws ++ ws', notes, ?_, by rw [← List.append_assoc]⟩
  intro w hw
  exact (List.mem_append.1 hw).elim (hws w) (hws' w)

/-- Nothing of the model changes while a class is looked for. -/
theorem model (h : s.Seeks s') : s'.model = s.model := by
  obtain ⟨_, _, _, _, rfl⟩ := h
  rfl

private theorem knows (h : s.Seeks s') {cls : String} (hknown : s.Knows cls) : s'.Knows cls := by
  rwa [Knows, h.model]

end Seeks

/-- Only the classes, the current class and the record of the reading differ. -/
def OnlyClasses (s s' : Session) : Prop :=
  ∃ classes inClass warnings notes, s' =
    { model := { s.model with classes := classes }
      context := { s.context with inClass := inClass, warnings := warnings }
      notes := notes }

namespace OnlyClasses

variable {s s' s'' : Session}

theorem refl (s : Session) : s.OnlyClasses s := ⟨_, _, _, _, rfl⟩

theorem trans (h : s.OnlyClasses s') (h' : s'.OnlyClasses s'') : s.OnlyClasses s'' := by
  obtain ⟨_, _, _, _, rfl⟩ := h
  obtain ⟨_, _, _, _, rfl⟩ := h'
  exact ⟨_, _, _, _, rfl⟩

theorem modules (h : s.OnlyClasses s') : s'.model.modules = s.model.modules := by
  obtain ⟨_, _, _, _, rfl⟩ := h
  rfl

theorem inModule (h : s.OnlyClasses s') : s'.context.inModule = s.context.inModule := by
  obtain ⟨_, _, _, _, rfl⟩ := h
  rfl

theorem pending (h : s.OnlyClasses s') : s'.context.pending = s.context.pending := by
  obtain ⟨_, _, _, _, rfl⟩ := h
  rfl

end OnlyClasses

/-- Looking for a class changes less than classes. -/
theorem Seeks.onlyClasses {s s' : Session} (h : s.Seeks s') : s.OnlyClasses s' := by
  obtain ⟨_, _, _, _, rfl⟩ := h
  exact ⟨_, _, _, _, rfl⟩

variable (s : Session) (tokens : List String) (tags : TagMap)

theorem seeks_warn {w : Warning} (h : w.isRedefinition = false) : s.Seeks (s.warn tokens w) :=
  ⟨_, [w], _, by simpa using h, rfl⟩

theorem seeks_log (notes : List Note) : s.Seeks (s.log notes) :=
  ⟨_, [], _, by simp, by rw [List.append_nil]; rfl⟩

theorem seeks_enterClass (cls : String) : s.Seeks (s.enterClass cls) :=
  ⟨some cls, [], s.notes, by simp, by rw [List.append_nil]; rfl⟩

/-- Any number of warnings may be recorded, none of them about a redefinition. -/
theorem seeks_warnAll {ws : List Warning} (h : ∀ w ∈ ws, w.isRedefinition = false) :
    s.Seeks (s.warnAll tokens ws) := by
  induction ws generalizing s with
  | nil => exact .refl s
  | cons w ws ih =>
    have hw := h w List.mem_cons_self
    exact (s.seeks_warn tokens hw).trans
      (ih (s.warn tokens w) fun w' hw' => h w' (List.mem_cons_of_mem w hw'))

theorem onlyClasses_modifyClass (cls : String) (f : ClassDoc → ClassDoc) :
    s.OnlyClasses (s.modifyClass cls f) := ⟨_, _, _, _, rfl⟩

/-! ### Before a comment is placed -/

theorem seeks_guessSubject (following : Option String) :
    s.Seeks (s.guessSubject tags following).1 := by
  rw [guessSubject]
  split
  · exact .refl s
  · split
    · exact .refl s
    · exact s.seeks_log _

/-- Defining a class changes no module, no file, and only the current class of the context. -/
theorem onlyClasses_defineClass (name : String) : s.OnlyClasses (s.defineClass tokens name) := by
  rw [defineClass]
  split <;> exact ⟨_, _, _, _, rfl⟩

theorem onlyClasses_enterFor (name : String) : s.OnlyClasses (s.enterFor tokens name) := by
  have hdefine := s.onlyClasses_defineClass tokens name
  rw [enterFor]
  split
  · exact (s.seeks_enterClass _).onlyClasses
  · split
    · exact hdefine
    · split
      · exact hdefine
      · exact hdefine.trans (onlyClasses_modifyClass _ _ _)

/-- **What comes before the subject of a comment**: the module and the namespace that it names, and
the class that it is written for. A relation that holds of these and of their composition holds of
the preparation of every comment. -/
theorem before_subject (following : Option String) {R : Session → Session → Prop}
    (trans : ∀ s s' s'', R s s' → R s' s'' → R s s'')
    (seeks : ∀ s s' : Session, s.Seeks s' → R s s')
    (enterModule : ∀ (s : Session) name, R s (s.enterModule name))
    (enterNamespace : ∀ (s : Session) name, R s (s.enterNamespace name))
    (enterFor : ∀ (s : Session) name, R s (s.enterFor tokens name)) :
    R s (s.prepare tokens following).1 := by
  have hwarn : R s (s.warnAll tokens (collect tokens).warnings) :=
    seeks _ _ (s.seeks_warnAll tokens fun _ => warnings_collect)
  have hmodule := trans _ _ _ hwarn (enterModule _ (collect tokens).inModule)
  have hnamespace (s : Session) (tags : TagMap) : R s (s.applyNamespace tags) := by
    rw [applyNamespace]
    split
    · exact enterNamespace s _
    · exact seeks s s (.refl s)
  have hguess (s : Session) (tags : TagMap) : R s (s.guessSubject tags following).1 :=
    seeks _ _ (s.seeks_guessSubject tags following)
  refine trans _ _ _ (trans _ _ _ hmodule (hnamespace _ (collect tokens).tags)) ?_
  rw [prepare]
  split
  · split
    · exact hguess _ _
    · exact trans _ _ _ (enterFor _ _) (hguess _ _)
  · exact hguess _ _

/-! ### Inserting members -/

private theorem seeks_currentClass {s₁ : Session} {r : Except Fault.Cause String}
    {tag name : String}
    (h : s.currentClass tokens tag name = (s₁, r)) :
    s.Seeks s₁ ∧ ∀ cls, r = .ok cls → s₁.Knows cls := by
  rw [currentClass] at h
  split at h
  · split at h
    · rename_i hknown
      cases h
      refine ⟨.refl s, fun cls hcls => ?_⟩
      cases hcls
      exact hknown
    · cases h
      exact ⟨.refl s, fun cls hcls => by cases hcls⟩
  · split at h
    · cases h
      exact ⟨.refl s, fun cls hcls => by cases hcls⟩
    · rename_i global _
      have hseeks : s.Seeks ((s.warn tokens (.outOfPosition tag name global)).enterClass global) :=
        (s.seeks_warn tokens rfl).trans (seeks_enterClass _ global)
      dsimp only at h
      split at h
      · rename_i hknown
        cases h
        refine ⟨hseeks, fun cls hcls => ?_⟩
        cases hcls
        exact hknown
      · cases h
        exact ⟨hseeks, fun cls hcls => by cases hcls⟩

/-- The class that a member goes to: the current class, or else the global one, if it exists. -/
def home? (s : Session) : Option String :=
  (s.context.inClass <|> s.context.globalClass).filter s.model.classes.contains

section Home

variable {s} {cls : String} (tag name : String)

/-- The class of a member is found, and is the current one from then on. -/
private theorem currentClass_of_home (h : s.home? = some cls) :
    ∃ s₁, s.currentClass tokens tag name = (s₁, .ok cls) ∧ s.Seeks s₁ ∧
      s₁.context.inClass = some cls := by
  rw [home?] at h
  rw [currentClass]
  obtain ⟨hfirst, hknown⟩ := Option.filter_eq_some_iff.1 h
  cases hin : s.context.inClass with
  | some c =>
    rw [hin] at hfirst
    cases hfirst
    exact ⟨s, if_pos hknown, .refl s, hin⟩
  | none =>
    rw [hin] at hfirst
    have hglobal : s.context.globalClass = some cls := hfirst
    rw [hglobal]
    have hseeks : s.Seeks ((s.warn tokens (.outOfPosition tag name cls)).enterClass cls) :=
      (s.seeks_warn tokens rfl).trans (seeks_enterClass _ cls)
    exact ⟨_, if_pos hknown, hseeks, rfl⟩

/-- Without a class to go to, a member is refused. -/
private theorem currentClass_of_homeless (h : s.home? = none) :
    ∃ s₁, s.currentClass tokens tag name = (s₁, .error (.noClass tag)) ∧ s.Seeks s₁ := by
  rw [home?] at h
  have hunknown (cls : String) (hfirst : (s.context.inClass <|> s.context.globalClass) = some cls) :
      ¬s.model.classes.contains cls = true := by
    intro hknown
    rw [hfirst, Option.filter_some, if_pos hknown] at h
    cases h
  rw [currentClass]
  cases hin : s.context.inClass with
  | some cls => exact ⟨s, if_neg (hunknown cls (by rw [hin]; rfl)), .refl s⟩
  | none =>
    cases hglobal : s.context.globalClass with
    | none => exact ⟨s, rfl, .refl s⟩
    | some cls =>
      have hseeks : s.Seeks ((s.warn tokens (.outOfPosition tag name cls)).enterClass cls) :=
        (s.seeks_warn tokens rfl).trans (seeks_enterClass _ cls)
      exact ⟨_, if_neg (hunknown cls (by rw [hin, hglobal]; rfl)), hseeks⟩

end Home

/-- Parameters that cannot be read are only logged. -/
private theorem seeks_readParams {s₁ : Session} {r : Except Fault.Cause (List Param)}
    (h : s.readParams tags = (s₁, r)) : s.Seeks s₁ := by
  rw [readParams] at h
  split at h
  · cases h
    exact s.seeks_log _
  · cases h
    exact s.seeks_log _

/-- The insertion of a member changes a class and the record of the reading. -/
private theorem onlyClasses_insert (i : Insertion) : s.OnlyClasses (s.insert tokens i) := by
  have hmember (kind : MemberKind) : s.OnlyClasses (s.insertMember tokens i.cls kind i.doc) := by
    obtain ⟨classes, warnings, notes, h⟩ := exists_insertMember_eq s tokens i.cls kind i.doc
    exact ⟨classes, s.context.inClass, warnings, notes, h⟩
  rw [insert]
  split
  · obtain ⟨classes, warnings, notes, h⟩ := exists_insertConfig_eq s tokens i.cls i.doc.name
    exact ⟨classes, s.context.inClass, warnings, notes, h⟩
  · exact hmember _

section PlaceMember

variable {s tags} {subject : Subject} (kind : MemberKind) {name cls : String}

/-- A member without a name is not placed. -/
theorem placeMember_of_unnamed (hname : tags.name? subject.word = none) :
    s.placeMember tokens tags subject kind =
      (s, .ok { tags := kind.ownTags.foldl Dict.erase tags }) := by
  rw [placeMember, withClass, hname]

/-- A member without a class to go to is refused. -/
theorem placeMember_of_homeless (hname : tags.name? subject.word = some name)
    (h : s.home? = none) :
    ∃ s₁ e, s.Seeks s₁ ∧ s.placeMember tokens tags subject kind = (s₁, .error e) := by
  obtain ⟨s₁, hclass, hseeks⟩ := currentClass_of_homeless tokens subject.word name h
  refine ⟨s₁, .noClass subject.word, hseeks, ?_⟩
  rw [placeMember, withClass, hname]
  dsimp only
  rw [hclass]

/-- **A member that has a name and a class to go to** is inserted, unless its signature is wrong. -/
theorem placeMember_of_home (hname : tags.name? subject.word = some name)
    (h : s.home? = some cls) :
    ∃ s₁, s.Seeks s₁ ∧ s₁.context.inClass = some cls ∧
      (∀ e, signatureFault? tags kind = some e →
        s.placeMember tokens tags subject kind = (s₁, .error e)) ∧
      (signatureFault? tags kind = none → s.placeMember tokens tags subject kind =
        (s₁.insert tokens ⟨cls, kind, describedMember tags kind name⟩,
          .ok { tags := kind.signatureTags.foldl Dict.erase (kind.ownTags.foldl Dict.erase tags)
                target := some (.member cls kind name) })) := by
  obtain ⟨s₁, hclass, hseeks, hin⟩ := currentClass_of_home tokens subject.word name h
  refine ⟨_, hseeks.trans (s₁.seeks_log (signatureNotes (kind.ownTags.foldl Dict.erase tags) kind)),
    hin, fun e he => ?_, fun hnone => ?_⟩
  · rw [← signatureFault?_ownTags] at he
    simp only [placeMember, withClass, hname, hclass, he]
  · rw [← signatureFault?_ownTags] at hnone
    simp only [placeMember, withClass, hname, hclass, hnone, describedMember_ownTags]

end PlaceMember

/-- **What a comment about a member does**: nothing if it gives no name, and else it looks for the
class and inserts the member that its tags describe, unless something is missing. -/
inductive PlacesMember (s : Session) (tokens : List String) (tags : TagMap) :
    Outcome Placed → Prop
  | unnamed (rest : TagMap) : PlacesMember s tokens tags (s, .ok { tags := rest })
  | failed {s₁ : Session} (seeks : s.Seeks s₁) (e : Fault.Cause) :
      PlacesMember s tokens tags (s₁, .error e)
  | inserted {s₁ : Session} (seeks : s.Seeks s₁) {cls : String} (known : s₁.Knows cls)
      (kind : MemberKind) (name : String) (rest : TagMap) :
      PlacesMember s tokens tags
        (s₁.insert tokens ⟨cls, kind, describedMember tags kind name⟩,
          .ok { tags := rest, target := some (.member cls kind name) })

namespace PlacesMember

variable {s tags}

/-- A comment about a member takes one of the three ways. -/
private theorem placeMember (subject : Subject) (kind : MemberKind) :
    s.PlacesMember tokens tags (s.placeMember tokens tags subject kind) := by
  cases hname : tags.name? subject.word with
  | none =>
    rw [placeMember_of_unnamed tokens kind hname]
    exact .unnamed _
  | some name =>
    cases hhome : s.home? with
    | none =>
      obtain ⟨s₁, e, hseeks, hplaced⟩ := placeMember_of_homeless tokens kind hname hhome
      rw [hplaced]
      exact .failed hseeks e
    | some cls =>
      obtain ⟨s₁, hseeks, -, hfailed, hplaced⟩ := placeMember_of_home tokens kind hname hhome
      have hknown : s.Knows cls := (Option.filter_eq_some_iff.1 hhome).2
      cases hsignature : signatureFault? tags kind with
      | some e =>
        rw [hfailed e hsignature]
        exact .failed hseeks e
      | none =>
        rw [hplaced hsignature]
        exact .inserted hseeks (hseeks.knows hknown) kind name _

/-- A comment about a member changes classes only. -/
theorem onlyClasses {o : Outcome Placed} (h : s.PlacesMember tokens tags o) :
    s.OnlyClasses o.1 := by
  cases h with
  | unnamed => exact .refl s
  | failed seeks => exact seeks.onlyClasses
  | inserted seeks => exact seeks.onlyClasses.trans (onlyClasses_insert _ tokens _)

/-- No module is documented by a comment about a member. -/
theorem target_ne_mod {o : Outcome Placed} (h : s.PlacesMember tokens tags o) (mod : String) :
    o.2.toOption.bind Placed.target ≠ some (.mod mod) := by
  cases h <;> simp [Except.toOption]

end PlacesMember

/-- The subject of a comment about a member is placed as one. -/
theorem placeSubject_member (outer : Option String) (h : (Subject.ofTags tags).isMember = true) :
    s.PlacesMember tokens tags (s.placeSubject tokens tags outer) := by
  obtain ⟨kind, hkind⟩ := Subject.exists_memberKind h
  rw [placeSubject_eq_placeMember tokens tags hkind]
  exact .placeMember tokens _ kind

/-- **The ways to place the subject of a comment.** Of one about a member it is only known that it
seeks a class and inserts the member; without any subject, nothing is placed. -/
theorem placeSubject_cases (outer : Option String) {P : Outcome Placed → Prop}
    (member : (Subject.ofTags tags).isMember = true → ∀ o, s.PlacesMember tokens tags o → P o)
    (file : Subject.ofTags tags = .file →
      P ((s.placeFileMarker tags).1, .ok (s.placeFileMarker tags).2))
    (cls : Subject.ofTags tags = .cls →
      P ((s.placeClassComment tokens tags outer).1, .ok (s.placeClassComment tokens tags outer).2))
    (mod : Subject.ofTags tags = .mod →
      P ((s.placeModule tokens tags true).1, .ok (s.placeModule tokens tags true).2))
    (nothing : Subject.ofTags tags = .nothing → ∀ s', s.Seeks s' → P (s', .ok { tags })) :
    P (s.placeSubject tokens tags outer) := by
  have hmember (h : (Subject.ofTags tags).isMember = true) : P (s.placeSubject tokens tags outer) :=
    member h _ (s.placeSubject_member tokens tags outer h)
  cases hsubject : Subject.ofTags tags with
  | method | event | property | attr | config => exact hmember (by rw [hsubject]; rfl)
  | file =>
    rw [placeSubject, hsubject]
    exact file hsubject
  | cls =>
    rw [placeSubject, hsubject]
    exact cls hsubject
  | mod =>
    rw [placeSubject, hsubject]
    exact mod hsubject
  | nothing =>
    rw [placeSubject, hsubject]
    dsimp only
    split
    · exact nothing hsubject s (.refl s)
    · exact nothing hsubject _ (s.seeks_warn tokens rfl)

/-! ### The rest of a comment -/

/-- A constructor is added to the class that is found for it. -/
theorem placeConstructor_cases :
    ∃ s₁, s.Seeks s₁ ∧ ((s.placeConstructor tokens tags).1 = s₁ ∨
      ∃ cls doc, (s.placeConstructor tokens tags).1 = s₁.modifyClass cls fun c =>
        { c with constructors := c.constructors ++ [doc] }) := by
  rw [placeConstructor]
  split
  · rename_i hc
    exact ⟨_, (s.seeks_currentClass tokens hc).1, .inl rfl⟩
  · rename_i s₁ cls hc
    have h₁ := (s.seeks_currentClass tokens hc).1
    split
    · rename_i hp
      exact ⟨_, h₁.trans (s₁.seeks_readParams _ hp), .inl rfl⟩
    · rename_i s₂ params hp
      have h₂ := s₁.seeks_readParams _ hp
      split
      · exact ⟨_, h₁.trans h₂, .inl rfl⟩
      · exact ⟨_, h₁.trans h₂, .inr ⟨cls, _, rfl⟩⟩

/-- A constructor changes the class that it is found for. -/
theorem onlyClasses_placeConstructor : s.OnlyClasses (s.placeConstructor tokens tags).1 := by
  obtain ⟨s₁, hseeks, heq | ⟨cls, doc, heq⟩⟩ := s.placeConstructor_cases tokens tags
  · rw [heq]
    exact hseeks.onlyClasses
  · rw [heq]
    exact hseeks.onlyClasses.trans (onlyClasses_modifyClass _ cls _)

/-- **What follows the subject of a comment**: a constructor may be placed, and then, unless that
fails, the remaining tags are copied to what the comment documents. A relation that holds of these
two and of their composition holds of the rest of every comment. -/
theorem after_subject (outer : Option String) {R : Session → Session → Prop}
    (refl : ∀ s, R s s) (trans : ∀ s s' s'', R s s' → R s' s'' → R s s'')
    (constructor : ∀ (s : Session) tags, R s (s.placeConstructor tokens tags).1)
    (leftovers : ∀ (s' : Session) (p : Placed),
      (s.placeSubject tokens tags outer).2.toOption.bind Placed.target = p.target →
        R s' (s'.applyLeftovers p)) :
    R (s.placeSubject tokens tags outer).1 (s.place tokens tags outer).1 := by
  rw [place]
  generalize s.placeSubject tokens tags outer = o at leftovers ⊢
  obtain ⟨s₁, r⟩ := o
  cases r with
  | error e => exact refl s₁
  | ok p =>
    dsimp only
    split
    · have h := constructor s₁ (p.tags.erase "constructor")
      split
      · rename_i heq
        rwa [heq] at h
      · rename_i s₂ rest heq
        rw [heq] at h
        exact trans _ _ _ h (leftovers s₂ { p with tags := rest } rfl)
    · exact leftovers s₁ p rfl

end Session

end ApiDocs
