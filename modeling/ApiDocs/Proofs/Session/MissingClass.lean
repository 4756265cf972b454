import ApiDocs.Proofs.Session.OpenModule

/-!
# Comments without a class to go to

A member and a constructor need a class: the current one, or else the global one. Both exist where
they are set, so a class is missing only in a session that is `Classless`. **A comment fails for
want of a class if and only if** the session before it is classless, the comment is not written
`@for` a class, and it `NeedsClass`: it is about a member with a name, or it has a constructor and
declares no class (`missesClass_run`).

The subject of a comment is placed before its constructor, and decides whether there is a class
for the constructor. `SeeksClass` says what placing a subject does to that end, for all subjects
alike: it may fail for want of a class, it may be the one that declares a class, and it leaves the
tag of the constructor alone.
-/

namespace ApiDocs

/-- There is neither a current class nor a global one. -/
def Session.Classless (s : Session) : Prop :=
  s.context.inClass = none ∧ s.context.globalClass = none

/-- A step fails for want of a class. -/
def MissesClass {α : Type} (r : Except Fault.Cause α) : Prop := ∃ tag, r = .error (.noClass tag)

/-- A comment is about a member, and gives its name. -/
def NamesMember (tags : TagMap) : Prop :=
  (Subject.ofTags tags).isMember = true ∧ (tags.name? (Subject.ofTags tags).word).isSome = true

/-- A comment is about a class, and gives its name. -/
def DeclaresClass (tags : TagMap) : Prop :=
  Subject.ofTags tags = .cls ∧ (tags.name? "class").isSome = true

/-- **A comment needs a class** for the member that it is about, or for its constructor unless it
declares a class itself. -/
def NeedsClass (tags : TagMap) : Prop :=
  NamesMember tags ∨ tags.contains "constructor" = true ∧ ¬DeclaresClass tags

section Subject

variable {tags : TagMap} {subject : Subject} (h : Subject.ofTags tags = subject)

include h

/-- A comment about something else names no member. -/
private theorem not_namesMember (hmember : subject.isMember = false) : ¬NamesMember tags := by
  rintro ⟨hm, -⟩
  rw [h, hmember] at hm
  cases hm

/-- A comment about something else declares no class. -/
private theorem not_declaresClass (hclass : subject ≠ .cls) : ¬DeclaresClass tags :=
  fun hc => hclass (h.symm.trans hc.1)

end Subject

private theorem not_missesClass_ok {α : Type} (a : α) : ¬MissesClass (.ok a) := by
  rintro ⟨tag, h⟩
  cases h

/-- A malformed tag is another fault. -/
private theorem not_missesClass_malformed {α : Type} (tag body : String) :
    ¬MissesClass (.error (.malformed tag body) : Except Fault.Cause α) := by
  rintro ⟨tag, h⟩
  cases h

/-- Whether a class is missing does not depend on what would have been the result. -/
private theorem missesClass_error {α β : Type} {e : Fault.Cause} :
    MissesClass (.error e : Except Fault.Cause α) ↔
      MissesClass (.error e : Except Fault.Cause β) := by
  simp [MissesClass]

namespace Session

variable {s : Session} (tokens : List String) (tags : TagMap)

/-! ### Looking for a class -/

/-- A class is found unless the session is classless, and is the current one then. -/
private theorem currentClass_cases (known : s.ContextKnown) (tag name : String) :
    s.Classless ∧ s.currentClass tokens tag name = (s, .error (.noClass tag)) ∨
      ¬s.Classless ∧ ∃ s₁ cls, s.currentClass tokens tag name = (s₁, .ok cls) ∧
        s₁.context.inClass = some cls := by
  rw [Classless, currentClass]
  cases hin : s.context.inClass with
  | some cls => exact .inr ⟨by simp, s, cls, if_pos (known.inClass cls hin), hin⟩
  | none =>
    cases hglobal : s.context.globalClass with
    | none => exact .inl ⟨⟨rfl, rfl⟩, rfl⟩
    | some cls => exact .inr ⟨by simp, _, cls, if_pos (known.globalClass cls hglobal), rfl⟩

/-- Parameters that cannot be read are malformed. -/
private theorem readParams_spec : (s.readParams tags).1.context = s.context ∧
    ¬MissesClass (s.readParams tags).2 := by
  rw [readParams]
  split
  · exact ⟨rfl, not_missesClass_ok _⟩
  · exact ⟨rfl, not_missesClass_malformed _ _⟩

/-- A return value that cannot be read is malformed. -/
private theorem not_missesClass_readReturn : ¬MissesClass (readReturn tags) := by
  rw [readReturn]
  split
  · exact not_missesClass_ok _
  · split
    · exact not_missesClass_ok _
    · exact not_missesClass_malformed _ _

/-! ### The subject of a comment -/

/-- **What placing the subject of a comment means for its constructor.** -/
structure SeeksClass (s : Session) (tags : TagMap) (o : Outcome Placed) : Prop where
  misses : MissesClass o.2 ↔ s.Classless ∧ NamesMember tags
  classless : o.1.Classless ↔ s.Classless ∧ ¬DeclaresClass tags
  constructor : ∀ p, o.2 = .ok p → p.tags.contains "constructor" = tags.contains "constructor"
  /-- Only the subject of a comment about a member can fail. -/
  failed : ∀ e, o.2 = .error e → NamesMember tags

/-- A comment that names no member and declares no class leaves both classes of the context. -/
theorem SeeksClass.of_same {tags : TagMap} (hmember : ¬NamesMember tags)
    (hclass : ¬DeclaresClass tags) {s' : Session} (hin : s'.context.inClass = s.context.inClass)
    (hglobal : s'.context.globalClass = s.context.globalClass) {p : Placed}
    (hp : p.tags.contains "constructor" = tags.contains "constructor") :
    s.SeeksClass tags (s', .ok p) where
  misses := iff_of_false (not_missesClass_ok p) fun h => hmember h.2
  classless := by
    rw [Classless, Classless, hin, hglobal]
    exact (and_iff_left hclass).symm
  constructor q hq := by
    cases hq
    exact hp
  failed e he := by cases he

/-- What is done once a class was found for a member: that class stays the current one. -/
structure UsesClass (s : Session) (tags : TagMap) (o : Outcome Placed) : Prop where
  found : ¬MissesClass o.2
  inClass : o.1.context.inClass = s.context.inClass
  constructor : ∀ p, o.2 = .ok p → p.tags.contains "constructor" = tags.contains "constructor"

variable {tags}

/-- A member looks for its class first, and whatever is done then misses none. -/
private theorem seeksClass_withClass (known : s.ContextKnown) {subject : Subject}
    (hsubject : Subject.ofTags tags = subject) (hmember : subject.isMember = true) (rest : TagMap)
    (hrest : rest.contains "constructor" = tags.contains "constructor")
    {use : Session → String → String → Outcome Placed}
    (huse : ∀ s₁ name cls, UsesClass s₁ rest (use s₁ name cls)) :
    s.SeeksClass tags (s.withClass tokens tags subject.word rest use) := by
  have hclass : ¬DeclaresClass tags := not_declaresClass hsubject fun hcls => by
    subst hcls
    cases hmember
  rw [withClass]
  cases hname : tags.name? subject.word with
  | none =>
    have hnone : ¬NamesMember tags := by
      rintro ⟨-, h⟩
      rw [hsubject, hname] at h
      cases h
    exact .of_same hnone hclass rfl rfl hrest
  | some name =>
    have hsome : NamesMember tags := by
      rw [NamesMember, hsubject, hname]
      exact ⟨hmember, rfl⟩
    rcases currentClass_cases tokens known subject.word name with
      ⟨hs, heq⟩ | ⟨hs, s₁, cls, heq, hin⟩
    · dsimp only
      rw [heq]
      exact {
        misses := iff_of_true ⟨_, rfl⟩ ⟨hs, hsome⟩
        classless := iff_of_true hs ⟨hs, hclass⟩
        constructor := fun p hp => by cases hp
        failed := fun _ _ => hsome }
    · dsimp only
      rw [heq]
      have h := huse s₁ name cls
      exact {
        misses := iff_of_false h.found fun h => hs h.1
        classless := by
          refine iff_of_false (fun hless => ?_) fun h => hs h.1
          rw [Classless, h.inClass, hin] at hless
          cases hless.1
        constructor := fun p hp => (h.constructor p hp).trans hrest
        failed := fun _ _ => hsome }

namespace UsesClass

variable {s₁ : Session} {rest : TagMap}

/-- A failure for another reason leaves the current class found. -/
private theorem of_error (h : s₁.context = s.context) {e : Fault.Cause}
    (he : ¬MissesClass (.error e : Except Fault.Cause Placed)) :
    UsesClass s rest (s₁, .error e) where
  found := he
  inClass := by rw [h]
  constructor p hp := by cases hp

/-- A success leaves the current class found. -/
private theorem of_ok (h : s₁.context.inClass = s.context.inClass) {p : Placed}
    (hp : p.tags.contains "constructor" = rest.contains "constructor") :
    UsesClass s rest (s₁, .ok p) where
  found := not_missesClass_ok p
  inClass := h
  constructor q hq := by
    cases hq
    exact hp

end UsesClass

/-- Inserting a member does not change the current class. -/
theorem inClass_insert (i : Insertion) :
    (s.insert tokens i).context.inClass = s.context.inClass := by
  rw [insert]
  split
  · obtain ⟨classes, warnings, notes, heq⟩ := exists_insertConfig_eq s tokens i.cls i.doc.name
    rw [heq]
  · obtain ⟨classes, warnings, notes, heq⟩ := exists_insertMember_eq s tokens i.cls _ i.doc
    rw [heq]

/-- A wrong signature is another fault. -/
private theorem not_missesClass_signatureFault {kind : MemberKind} {e : Fault.Cause}
    (h : signatureFault? tags kind = some e) {α : Type} :
    ¬MissesClass (.error e : Except Fault.Cause α) := by
  have hreturn := not_missesClass_readReturn tags
  cases kind with
  | method =>
    rw [signatureFault?] at h
    split at h
    · cases h
      exact not_missesClass_malformed _ _
    · rename_i heq
      cases h
      rw [heq] at hreturn
      exact fun hmisses => hreturn (missesClass_error.1 hmisses)
    · cases h
  | event =>
    rw [signatureFault?] at h
    split at h
    · cases h
      exact not_missesClass_malformed _ _
    · cases h
  | property => cases h
  | config => cases h

/-- A comment about a member looks for its class. -/
private theorem seeksClass_placeMember (known : s.ContextKnown) {kind : MemberKind}
    (h : (Subject.ofTags tags).memberKind? = some kind) :
    s.SeeksClass tags (s.placeMember tokens tags (Subject.ofTags tags) kind) := by
  have hown : "constructor" ∉ kind.ownTags := by cases kind <;> decide
  have hsignature : "constructor" ∉ kind.signatureTags := by cases kind <;> decide
  refine seeksClass_withClass tokens known rfl (Subject.isMember_of_memberKind h) _
    (Dict.contains_foldl_erase hown tags) fun s₁ name cls => ?_
  have hlog (notes : List Note) : (s₁.log notes).context = s₁.context := rfl
  dsimp only
  split
  · rename_i hfault
    exact .of_error (hlog _) (not_missesClass_signatureFault hfault)
  · refine .of_ok ?_ ?_
    · rw [inClass_insert, hlog]
    · exact Dict.contains_foldl_erase hsignature _

/-! ### Modules, classes and files -/

private theorem contains_constructor_describePart (mod : String) (alone : Bool) :
    Dict.contains (s.describePart tokens mod tags alone).2 "constructor" =
      tags.contains "constructor" := by
  rw [describePart]
  split
  · cases alone with
    | true =>
      exact (Dict.contains_erase_of_ne _ (by decide)).trans
        (Dict.contains_erase_of_ne tags (by decide))
    | false => exact Dict.contains_erase_of_ne tags (by decide)
  · rfl

/-- Placing module tags leaves the current class, the global class and the constructor alone. -/
private theorem keeps_placeModule (tags : TagMap) (alone : Bool) :
    (s.placeModule tokens tags alone).1.context.inClass = s.context.inClass ∧
      (s.placeModule tokens tags alone).1.context.globalClass = s.context.globalClass ∧
      (s.placeModule tokens tags alone).2.tags.contains "constructor" =
        tags.contains "constructor" := by
  have hrest : Dict.contains (tags.erase "module") "constructor" = tags.contains "constructor" :=
    Dict.contains_erase_of_ne tags (by decide)
  rw [placeModule]
  dsimp only
  split
  · exact ⟨rfl, rfl, hrest⟩
  · rename_i mod _
    obtain ⟨sub, warnings, hcontext⟩ := (s.addModules
      ((tags.all "module").filter (!·.isEmpty))).exists_context_describePart tokens
        (tags.erase "module") mod alone
    refine ⟨?_, ?_, (contains_constructor_describePart tokens mod alone).trans hrest⟩
    · rw [drainInto, hcontext]
      rfl
    · rw [drainInto, hcontext]
      rfl

/-- A comment about a module looks for no class. -/
theorem seeksClass_placeModule (h : Subject.ofTags tags = .mod) :
    s.SeeksClass tags ((s.placeModule tokens tags true).1,
      .ok (s.placeModule tokens tags true).2) := by
  obtain ⟨hin, hglobal, hconstructor⟩ := s.keeps_placeModule tokens tags true
  exact .of_same (not_namesMember h rfl) (not_declaresClass h (by decide)) hin hglobal hconstructor

/-- The module tags of a comment about a class look for none. -/
theorem keeps_placeOwnModule (tags : TagMap) :
    (s.placeOwnModule tokens tags).1.context.inClass = s.context.inClass ∧
      Dict.contains (s.placeOwnModule tokens tags).2 "constructor" =
        tags.contains "constructor" := by
  obtain ⟨hin, -, hconstructor⟩ := s.keeps_placeModule tokens tags false
  rw [placeOwnModule]
  split
  · exact ⟨hin, hconstructor⟩
  · exact ⟨rfl, rfl⟩

/-- What is done to a class after its module tags were placed leaves it the current one. -/
theorem inClass_class (rest : TagMap) (cls : String) (description : Option String)
    (f : ClassDoc → ClassDoc) :
    (((((s.claimSubmodule cls description).markGlobal rest cls).modifyClass cls f).placeClass
      cls).listInFile cls).context.inClass = s.context.inClass := by
  have hclaim : (s.claimSubmodule cls description).context.inClass = s.context.inClass := by
    rw [claimSubmodule]
    split <;> rfl
  have hmark (s : Session) : (s.markGlobal rest cls).context.inClass = s.context.inClass := by
    rw [markGlobal]
    split <;> rfl
  have hplace (s : Session) : (s.placeClass cls).context.inClass = s.context.inClass := by
    rw [placeClass]
    split <;> rfl
  have hlist (s : Session) : (s.listInFile cls).context.inClass = s.context.inClass := by
    rw [listInFile]
    split <;> rfl
  rw [hlist, hplace]
  exact (hmark _).trans hclaim

/-- A comment about a class makes that one the current class. -/
theorem seeksClass_placeClassComment (h : Subject.ofTags tags = .cls) (inner : Option String) :
    s.SeeksClass tags ((s.placeClassComment tokens tags inner).1,
      .ok (s.placeClassComment tokens tags inner).2) := by
  have hmember : ¬NamesMember tags := not_namesMember h rfl
  have herase : Dict.contains (tags.erase "class") "constructor" = tags.contains "constructor" :=
    Dict.contains_erase_of_ne tags (by decide)
  rw [placeClassComment]
  cases hname : tags.name? "class" with
  | none =>
    have hclass : ¬DeclaresClass tags := by
      rintro ⟨-, hsome⟩
      rw [hname] at hsome
      cases hsome
    exact .of_same hmember hclass rfl rfl herase
  | some name =>
    have hclass : DeclaresClass tags := ⟨h, by rw [hname]; rfl⟩
    obtain ⟨hin, hconstructor⟩ :=
      (s.defineClass tokens name).keeps_placeOwnModule tokens (tags.erase "class")
    rw [(context_defineClass s tokens name).1] at hin
    dsimp only
    generalize (s.defineClass tokens name).placeOwnModule tokens (tags.erase "class") = r
      at hin hconstructor ⊢
    obtain ⟨s₁, rest⟩ := r
    exact {
      misses := iff_of_false (not_missesClass_ok _) fun h => hmember h.2
      classless := by
        refine iff_of_false (fun hless => ?_) fun h => h.2 hclass
        have hnone := hless.1
        rw [inClass_class, hin] at hnone
        cases hnone
      constructor := fun p hp => by
        cases hp
        dsimp only
        rw [Dict.contains_erase_of_ne _ (by decide), Dict.contains_erase_of_ne _ (by decide),
          hconstructor, herase]
      failed := fun e he => by cases he }

/-- A file marker looks for no class. -/
theorem seeksClass_placeFileMarker (h : Subject.ofTags tags = .file) :
    s.SeeksClass tags ((s.placeFileMarker tags).1, .ok (s.placeFileMarker tags).2) := by
  have hmember : ¬NamesMember tags := not_namesMember h rfl
  have hclass : ¬DeclaresClass tags := not_declaresClass h (by decide)
  have hrest : Dict.contains (tags.erase "filemarker") "constructor" =
    tags.contains "constructor" := Dict.contains_erase_of_ne tags (by decide)
  rw [placeFileMarker]
  split
  · exact .of_same hmember hclass rfl rfl hrest
  · refine .of_same hmember hclass ?_ ?_ hrest <;> rw [placeFile] <;> split <;> rfl

/-- **The subject of every comment** is placed in this way. -/
theorem seeksClass_placeSubject (known : s.ContextKnown) (outer : Option String) :
    s.SeeksClass tags (s.placeSubject tokens tags outer) := by
  cases hkind : (Subject.ofTags tags).memberKind? with
  | some kind =>
    rw [placeSubject_eq_placeMember tokens tags hkind]
    exact seeksClass_placeMember tokens known hkind
  | none =>
    rw [placeSubject]
    cases h : Subject.ofTags tags with
    | file => exact seeksClass_placeFileMarker h
    | cls => exact seeksClass_placeClassComment tokens h outer
    | mod => exact seeksClass_placeModule tokens h
    | nothing =>
      have hmember : ¬NamesMember tags := not_namesMember h rfl
      have hclass : ¬DeclaresClass tags := not_declaresClass h (by decide)
      dsimp only
      split
      · exact .of_same (p := { tags }) hmember hclass rfl rfl rfl
      · have hin : (s.warn tokens .ambiguousBlock).context.inClass = s.context.inClass := rfl
        exact .of_same (p := { tags }) hmember hclass hin rfl rfl
    | method | event | property | attr | config =>
      rw [h] at hkind
      cases hkind

/-! ### Whole comments -/

/-- A constructor misses a class exactly in a classless session. -/
private theorem missesClass_placeConstructor_iff (tags : TagMap) (known : s.ContextKnown) :
    MissesClass (s.placeConstructor tokens tags).2 ↔ s.Classless := by
  rw [placeConstructor]
  rcases currentClass_cases tokens known "constructor" "" with ⟨hs, heq⟩ | ⟨hs, s₁, cls, heq, -⟩
  · rw [heq]
    exact iff_of_true ⟨_, rfl⟩ hs
  · rw [heq]
    refine iff_of_false ?_ hs
    have hparams := (readParams_spec (s := s₁) tags).2
    have hreturn := not_missesClass_readReturn tags
    dsimp only
    split
    · rename_i heq
      rw [heq] at hparams
      exact fun h => hparams (missesClass_error.1 h)
    · split
      · rename_i heq
        rw [heq] at hreturn
        exact fun h => hreturn (missesClass_error.1 h)
      · exact not_missesClass_ok _

/-- **Placing a comment misses a class** exactly if it needs one in a classless session. -/
theorem missesClass_place_iff (known : s.ContextKnown) (outer : Option String) :
    MissesClass (s.place tokens tags outer).2 ↔ s.Classless ∧ NeedsClass tags := by
  have hseeks : s.SeeksClass tags (s.placeSubject tokens tags outer) :=
    seeksClass_placeSubject tokens known outer
  have hknown : (s.placeSubject tokens tags outer).1.ContextKnown :=
    (places_subject tokens tags known outer).changes.contextKnown known
  rw [place]
  generalize s.placeSubject tokens tags outer = o at hseeks hknown ⊢
  obtain ⟨s₁, r⟩ := o
  cases r with
  | error e =>
    -- only a named member fails here, so the comment needs a class in any case
    have hmember : NamesMember tags := hseeks.failed e rfl
    rw [missesClass_error, hseeks.misses, NeedsClass]
    tauto
  | ok p =>
    -- what is left to fail is the constructor, in the session that the subject has left
    have hfound : ¬(s.Classless ∧ NamesMember tags) :=
      fun h => not_missesClass_ok p (hseeks.misses.2 h)
    have hconstructor := hseeks.constructor p rfl
    dsimp only
    rw [NeedsClass]
    split
    · rename_i hsome
      have hplace := missesClass_placeConstructor_iff tokens (p.tags.erase "constructor") hknown
      rw [hseeks.classless] at hplace
      rw [hconstructor] at hsome
      generalize s₁.placeConstructor tokens (p.tags.erase "constructor") = c at hplace ⊢
      obtain ⟨s₂, r⟩ := c
      cases r with
      | error e =>
        rw [missesClass_error, hplace]
        tauto
      | ok rest =>
        have hclass := mt hplace.2 (not_missesClass_ok rest)
        refine iff_of_false (not_missesClass_ok _) ?_
        tauto
    · rename_i hnone
      rw [hconstructor] at hnone
      refine iff_of_false (not_missesClass_ok _) ?_
      tauto

/-! ### Before a comment is placed -/

/-- A comment that is written for a class makes it the current one. -/
private theorem not_classless_enterFor (name : String) : ¬(s.enterFor tokens name).Classless := by
  have hdefine : ¬(s.defineClass tokens name).Classless := by
    rintro ⟨hnone, -⟩
    rw [(context_defineClass s tokens name).1] at hnone
    cases hnone
  rw [enterFor]
  split
  · rintro ⟨hnone, -⟩
    cases hnone
  · split
    · exact hdefine
    · split
      · exact hdefine
      · exact hdefine

/-- Before a comment is placed, a classless session gets a class from the tag `@for` only. -/
private theorem classless_prepare_iff (following : Option String) :
    (s.prepare tokens following).1.Classless ↔
      s.Classless ∧ ((collect tokens).tags.contains "for" = false ∨
        (collect tokens).tags.contains "class" = true) := by
  have hwarn (s : Session) (ws : List Warning) :
      (s.warnAll tokens ws).Classless ↔ s.Classless := by
    induction ws generalizing s with
    | nil => exact Iff.rfl
    | cons w ws ih => exact ih (s.warn tokens w)
  have hmodule (s : Session) (name : Option String) :
      (s.enterModule name).Classless ↔ s.Classless := by
    cases name <;> exact Iff.rfl
  have hspace (s : Session) (tags : TagMap) : (s.applyNamespace tags).Classless ↔ s.Classless := by
    rw [applyNamespace]
    split <;> exact Iff.rfl
  have hguess (s : Session) (tags : TagMap) :
      (s.guessSubject tags following).1.Classless ↔ s.Classless := by
    rw [guessSubject]
    split
    · exact Iff.rfl
    · split <;> exact Iff.rfl
  have hfirst : TagMap.first ((collect tokens).tags.erase "namespace") "for" =
      (collect tokens).tags.first "for" := by
    rw [TagMap.first_erase, if_neg (by decide)]
  have hclass : Dict.contains ((collect tokens).tags.erase "namespace") "class" =
      (collect tokens).tags.contains "class" := Dict.contains_erase_of_ne _ (by decide)
  rw [contains_collect tokens "for", prepare, hfirst, hclass]
  cases (collect tokens).tags.first "for" with
  | none => simp [hguess, hspace, hmodule, hwarn]
  | some name =>
    dsimp only
    split
    · rename_i hsome
      simp [hguess, hspace, hmodule, hwarn, hsome]
    · rename_i hnone
      simp [hguess, not_classless_enterFor, hnone]

/-! ### Whole runs -/

/-- **When a comment fails for want of a class**, after every run: the current class and the global
class exist where they are set, and a comment fails so exactly if there is neither, it is not
written for a class, and it needs one. -/
theorem missesClass_run (version : String) (v : UInt32) (inputs : List Input) :
    let s := (start version v).run inputs
    s.ContextKnown ∧ ∀ tokens following,
      (∃ fault tag, (s.readComment tokens following).2 = .error fault ∧
          fault.cause = .noClass tag) ↔
        s.Classless ∧ ((collect tokens).tags.contains "for" = false ∨
          (collect tokens).tags.contains "class" = true) ∧
            NeedsClass (s.prepare tokens following).2 := by
  intro s
  have known : s.ContextKnown := (changes_run (contextKnown_start version v) inputs).contextKnown
    (contextKnown_start version v)
  refine ⟨known, fun tokens following => ?_⟩
  have hprepare : (s.prepare tokens following).1.ContextKnown :=
    (changes_prepare s tokens following).contextKnown known
  rw [← and_assoc, ← classless_prepare_iff tokens following,
    ← missesClass_place_iff tokens hprepare
      (TagMap.first (s.prepare tokens following).2 "for"), readComment]
  dsimp only
  generalize (s.prepare tokens following).1.place tokens (s.prepare tokens following).2
    (TagMap.first (s.prepare tokens following).2 "for") = o
  obtain ⟨s₁, r⟩ := o
  cases r with
  | error cause => simp [MissesClass]
  | ok => simp [MissesClass]

/-- A constructor has no class to go to beside a file marker, but it has one beside a class. -/
example :
    let s := start "1.0.0" 3
    (s.readComment ["@filemarker a.js", "@constructor"] none).2.isOk = false ∧
      (s.readComment ["@class A", "@constructor"] none).2.isOk = true := by
  decide +kernel

end Session

end ApiDocs
