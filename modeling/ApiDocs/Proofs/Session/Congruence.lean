import ApiDocs.Proofs.Session.MemberComment

/-!
# Relations between sessions that reading keeps

Two sessions may differ in something that does not matter for what is read next. To show this one
gives a relation between sessions that look the same where reading looks at them, and that stays
when the same elementary change is made on both sides: a `Congruence`. **Then every comment does the
same in related sessions**: it gives the same result, and the sessions are related again
(`Congruence.readComment`). The tokens of a comment go to the log only, and may differ.
-/

namespace ApiDocs

/-- A context without the warnings. -/
def Context.quiet (c : Context) : Context := { c with warnings := [] }

namespace Session

/-- **A relation that every change keeps**, between sessions that look the same: their contexts
agree but for the warnings, and they have the same classes. -/
structure Congruence (R : Session → Session → Prop) : Prop where
  context : ∀ {s s'}, R s s' → s'.context.quiet = s.context.quiet
  contains : ∀ {s s'}, R s s' → ∀ cls,
    s'.model.classes.contains cls = s.model.classes.contains cls
  log : ∀ {s s'}, R s s' → ∀ notes notes', R (s.log notes) (s'.log notes')
  warn : ∀ {s s'}, R s s' → ∀ tokens tokens' w, R (s.warn tokens w) (s'.warn tokens' w)
  enterModule : ∀ {s s'}, R s s' → ∀ name, R (s.enterModule name) (s'.enterModule name)
  enterNamespace : ∀ {s s'}, R s s' → ∀ name, R (s.enterNamespace name) (s'.enterNamespace name)
  enterClass : ∀ {s s'}, R s s' → ∀ cls, R (s.enterClass cls) (s'.enterClass cls)
  defineClass : ∀ {s s'}, R s s' → ∀ tokens tokens' name,
    R (s.defineClass tokens name) (s'.defineClass tokens' name)
  /-- A change of a class that leaves its events alone. -/
  modifyClass : ∀ {s s'}, R s s' → ∀ cls (f : ClassDoc → ClassDoc),
    (∀ c events, f { c with events } = { f c with events }) →
      R (s.modifyClass cls f) (s'.modifyClass cls f)
  enterFile : ∀ {s s'}, R s s' → ∀ name, R (s.enterFile name) (s'.enterFile name)
  placeFile : ∀ {s s'}, R s s' → ∀ file, R (s.placeFile file) (s'.placeFile file)
  addModules : ∀ {s s'}, R s s' → ∀ names, R (s.addModules names) (s'.addModules names)
  addSubmodule : ∀ {s s'}, R s s' → ∀ mod sub description,
    R (s.addSubmodule mod sub description) (s'.addSubmodule mod sub description)
  describeModule : ∀ {s s'}, R s s' → ∀ tokens tokens' mod description,
    R (s.describeModule tokens mod description) (s'.describeModule tokens' mod description)
  drainInto : ∀ {s s'}, R s s' → ∀ mod, R (s.drainInto mod) (s'.drainInto mod)
  claimSubmodule : ∀ {s s'}, R s s' → ∀ cls description,
    R (s.claimSubmodule cls description) (s'.claimSubmodule cls description)
  markGlobal : ∀ {s s'}, R s s' → ∀ tags cls, R (s.markGlobal tags cls) (s'.markGlobal tags cls)
  placeClass : ∀ {s s'}, R s s' → ∀ cls, R (s.placeClass cls) (s'.placeClass cls)
  listInFile : ∀ {s s'}, R s s' → ∀ cls, R (s.listInFile cls) (s'.listInFile cls)
  insertMember : ∀ {s s'}, R s s' → ∀ tokens tokens' cls kind (doc : MemberDoc),
    doc.synthetic = false →
      R (s.insertMember tokens cls kind doc) (s'.insertMember tokens' cls kind doc)
  insertConfig : ∀ {s s'}, R s s' → ∀ tokens tokens' cls name,
    R (s.insertConfig tokens cls name) (s'.insertConfig tokens' cls name)
  applyLeftovers : ∀ {s s'}, R s s' → ∀ p, R (s.applyLeftovers p) (s'.applyLeftovers p)

/-- Related sessions, with the same result. -/
def Both (R : Session → Session → Prop) {α : Type} (o o' : Session × α) : Prop :=
  R o.1 o'.1 ∧ o'.2 = o.2

section Both

variable {R : Session → Session → Prop}

/-- Both results are the same, and the sessions are related. -/
private theorem Both.exists_eq {α : Type} {o o' : Session × α} (h : Both R o o') :
    ∃ s s' a, o = (s, a) ∧ o' = (s', a) ∧ R s s' := by
  obtain ⟨s, a⟩ := o
  obtain ⟨s', a'⟩ := o'
  obtain ⟨hrelated, rfl⟩ := h
  exact ⟨s, s', _, rfl, rfl, hrelated⟩

private theorem Both.ok {o o' : Session × Placed} (h : Both R o o') :
    Both R (α := Except Fault.Cause Placed) (o.1, .ok o.2) (o'.1, .ok o'.2) :=
  ⟨h.1, congrArg Except.ok h.2⟩

end Both

namespace Congruence

variable {R : Session → Session → Prop} (C : Congruence R) {s s' : Session} (h : R s s')
  (tokens tokens' : List String) (tags : TagMap)

include C h

/-! ### What a session looks like -/

private theorem inModule : s'.context.inModule = s.context.inModule :=
  (congrArg Context.inModule (C.context h) :)

private theorem inClass : s'.context.inClass = s.context.inClass :=
  (congrArg Context.inClass (C.context h) :)

private theorem globalClass : s'.context.globalClass = s.context.globalClass :=
  (congrArg Context.globalClass (C.context h) :)

private theorem fileName : s'.fileName = s.fileName :=
  (congrArg (·.inFile.getD "") (C.context h) :)

private theorem fullName (name : String) : s'.fullName name = s.fullName name :=
  (congrArg (fun c => (qualify (c.inNamespace.getD "") name).2) (C.context h) :)

/-! ### Before a comment is placed -/

private theorem warnAll (ws : List Warning) : R (s.warnAll tokens ws) (s'.warnAll tokens' ws) := by
  induction ws generalizing s s' with
  | nil => exact h
  | cons w ws ih => exact ih (C.warn h tokens tokens' w)

theorem applyNamespace : R (s.applyNamespace tags) (s'.applyNamespace tags) := by
  rw [Session.applyNamespace, Session.applyNamespace]
  split
  · exact C.enterNamespace h _
  · exact h

/-- The class that a comment is written for is known in both sessions or in none. -/
theorem enterFor (name : String) : R (s.enterFor tokens name) (s'.enterFor tokens' name) := by
  have hknown : s'.model.classes.contains = s.model.classes.contains := by
    funext cls
    exact C.contains h cls
  have hdefine := C.defineClass h tokens tokens' name
  rw [Session.enterFor, Session.enterFor, C.fullName h, hknown, C.inClass h]
  dsimp only
  split
  · exact C.enterClass h _
  · split
    · exact hdefine
    · split
      · exact hdefine
      · exact C.modifyClass hdefine _ _ fun _ _ => rfl

private theorem guessSubject (following : Option String) :
    Both R (s.guessSubject tags following) (s'.guessSubject tags following) := by
  obtain ⟨notes, heq⟩ := exists_guessSubject_eq (s := s) tags following
  obtain ⟨notes', heq'⟩ := exists_guessSubject_eq (s := s') tags following
  rw [heq, heq']
  exact ⟨C.log h notes notes', rfl⟩

/-! ### Files, modules and classes -/

private theorem placeFileMarker : Both R (s.placeFileMarker tags) (s'.placeFileMarker tags) := by
  rw [Session.placeFileMarker, Session.placeFileMarker]
  split
  · exact ⟨h, rfl⟩
  · rename_i name _
    exact ⟨C.placeFile (C.enterFile h name) name, rfl⟩

private theorem describePart (mod : String) (alone : Bool) :
    Both R (s.describePart tokens mod tags alone) (s'.describePart tokens' mod tags alone) := by
  rw [Session.describePart, Session.describePart]
  split
  · exact ⟨C.addSubmodule h mod _ _, rfl⟩
  · exact ⟨C.describeModule h tokens tokens' mod _, rfl⟩

private theorem placeModule (alone : Bool) :
    Both R (s.placeModule tokens tags alone) (s'.placeModule tokens' tags alone) := by
  rw [Session.placeModule, Session.placeModule]
  dsimp only
  have hadd := C.addModules h ((tags.all "module").filter (!·.isEmpty))
  split
  · exact ⟨hadd, rfl⟩
  · rename_i mod _
    obtain ⟨s₁, s₁', rest, heq, heq', hpart⟩ :=
      (C.describePart hadd tokens tokens' (tags.erase "module") mod alone).exists_eq
    rw [heq, heq']
    dsimp only
    rw [C.inModule hpart]
    exact ⟨C.drainInto hpart _, rfl⟩

private theorem placeOwnModule :
    Both R (s.placeOwnModule tokens tags) (s'.placeOwnModule tokens' tags) := by
  obtain ⟨s₁, s₁', p, heq, heq', hplaced⟩ := (C.placeModule h tokens tokens' tags false).exists_eq
  rw [Session.placeOwnModule, Session.placeOwnModule, heq, heq']
  split
  · exact ⟨hplaced, rfl⟩
  · exact ⟨h, rfl⟩

private theorem placeClassComment (inner : Option String) :
    Both R (s.placeClassComment tokens tags inner) (s'.placeClassComment tokens' tags inner) := by
  rw [Session.placeClassComment, Session.placeClassComment]
  dsimp only
  split
  · exact ⟨h, rfl⟩
  · rename_i name _
    obtain ⟨s₁, s₁', rest, heq, heq', hown⟩ := (C.placeOwnModule
      (C.defineClass h tokens tokens' name) tokens tokens' (tags.erase "class")).exists_eq
    rw [heq, heq', C.fullName h]
    dsimp only
    have hclaim := C.claimSubmodule hown (s.fullName name) (rest.first "description")
    have hmark := C.markGlobal hclaim rest (s.fullName name)
    have hrelate := C.modifyClass hmark (s.fullName name)
      (relateClass rest (inner.filter (· ≠ s.fullName name))) fun _ _ => rfl
    exact ⟨C.listInFile (C.placeClass hrelate _) _, rfl⟩

/-! ### Members -/

private theorem currentClass (tag name : String) :
    Both R (s.currentClass tokens tag name) (s'.currentClass tokens' tag name) := by
  rw [Session.currentClass, Session.currentClass, C.inClass h, C.globalClass h]
  split
  · rw [C.contains h]
    split
    · exact ⟨h, rfl⟩
    · exact ⟨h, rfl⟩
  · split
    · exact ⟨h, rfl⟩
    · rename_i cls _
      have henter := C.enterClass (C.warn h tokens tokens' (.outOfPosition tag name cls)) cls
      dsimp only
      rw [C.contains henter]
      split
      · exact ⟨henter, rfl⟩
      · exact ⟨henter, rfl⟩

/-- The same insertion is made in both sessions. -/
private theorem insert (i : Insertion) (hdoc : i.doc.synthetic = false) :
    R (s.insert tokens i) (s'.insert tokens' i) := by
  rw [Session.insert, Session.insert]
  split
  · exact C.insertConfig h tokens tokens' i.cls i.doc.name
  · exact C.insertMember h tokens tokens' i.cls _ i.doc hdoc

private theorem placeMember (subject : Subject) (kind : MemberKind) :
    Both R (s.placeMember tokens tags subject kind) (s'.placeMember tokens' tags subject kind) := by
  rw [Session.placeMember, Session.placeMember, withClass, withClass]
  split
  · exact ⟨h, rfl⟩
  · rename_i name _
    obtain ⟨s₁, s₁', r, heq, heq', hclass⟩ :=
      (C.currentClass h tokens tokens' subject.word name).exists_eq
    rw [heq, heq']
    cases r with
    | error e => exact ⟨hclass, rfl⟩
    | ok cls =>
      have hlog := C.log hclass (signatureNotes (kind.ownTags.foldl Dict.erase tags) kind)
        (signatureNotes (kind.ownTags.foldl Dict.erase tags) kind)
      dsimp only
      split
      · exact ⟨hlog, rfl⟩
      · refine ⟨C.insert hlog tokens tokens' _ ?_, rfl⟩
        cases kind <;> rfl

private theorem placeSubject (outer : Option String) :
    Both R (s.placeSubject tokens tags outer) (s'.placeSubject tokens' tags outer) := by
  cases hkind : (Subject.ofTags tags).memberKind? with
  | some kind =>
    rw [placeSubject_eq_placeMember tokens tags hkind,
      placeSubject_eq_placeMember tokens' tags hkind]
    exact C.placeMember h tokens tokens' tags _ kind
  | none =>
    rw [Session.placeSubject, Session.placeSubject]
    generalize Subject.ofTags tags = subject at hkind ⊢
    cases subject with
    | file => exact (C.placeFileMarker h tags).ok
    | cls => exact (C.placeClassComment h tokens tokens' tags outer).ok
    | mod => exact (C.placeModule h tokens tokens' tags true).ok
    | nothing =>
      dsimp only
      split
      · exact ⟨h, rfl⟩
      · exact ⟨C.warn h tokens tokens' _, rfl⟩
    | method | event | property | attr | config => cases hkind

private theorem placeConstructor :
    Both R (s.placeConstructor tokens tags) (s'.placeConstructor tokens' tags) := by
  obtain ⟨s₁, s₁', r, heq, heq', hclass⟩ :=
    (C.currentClass h tokens tokens' "constructor" "").exists_eq
  have hlog := C.log hclass (Signature.paramNotes (tags.all "param"))
    (Signature.paramNotes (tags.all "param"))
  rw [Session.placeConstructor, Session.placeConstructor, heq, heq']
  cases r with
  | error e => exact ⟨hclass, rfl⟩
  | ok cls =>
    dsimp only
    rw [readParams, readParams]
    cases Signature.params (tags.all "param") with
    | error body => exact ⟨hlog, rfl⟩
    | ok params =>
      dsimp only
      cases readReturn tags with
      | error e => exact ⟨hlog, rfl⟩
      | ok returns => exact ⟨C.modifyClass hlog cls _ fun _ _ => rfl, rfl⟩

/-! ### Whole comments -/

private theorem place (outer : Option String) :
    Both R (s.place tokens tags outer) (s'.place tokens' tags outer) := by
  obtain ⟨s₁, s₁', r, heq, heq', hsubject⟩ :=
    (C.placeSubject h tokens tokens' tags outer).exists_eq
  rw [Session.place, Session.place, heq, heq']
  cases r with
  | error e => exact ⟨hsubject, rfl⟩
  | ok p =>
    dsimp only
    split
    · obtain ⟨s₂, s₂', r, heq, heq', hconstructor⟩ :=
        (C.placeConstructor hsubject tokens tokens' (p.tags.erase "constructor")).exists_eq
      rw [heq, heq']
      cases r with
      | error e => exact ⟨hconstructor, rfl⟩
      | ok rest => exact ⟨C.applyLeftovers hconstructor _, rfl⟩
    · exact ⟨C.applyLeftovers hsubject p, rfl⟩

private theorem prepare (following : Option String) :
    Both R (s.prepare tokens following) (s'.prepare tokens following) := by
  have hstart := C.applyNamespace
    (C.enterModule (C.warnAll h tokens tokens (collect tokens).warnings) (collect tokens).inModule)
    (collect tokens).tags
  rw [Session.prepare, Session.prepare]
  split
  · split
    · exact C.guessSubject hstart _ following
    · exact C.guessSubject (C.enterFor hstart tokens tokens _) _ following
  · exact C.guessSubject hstart _ following

omit h in
/-- **A comment that is prepared alike** in related sessions gives the same result there, success or
the same fault, and leaves them related. -/
theorem readComment_of_prepare {following following' : Option String}
    (hprepare : Both R (s.prepare tokens following) (s'.prepare tokens' following')) :
    Both R (s.readComment tokens following) (s'.readComment tokens' following') := by
  obtain ⟨s₁, s₁', tags, heq, heq', hprepared⟩ := hprepare.exists_eq
  obtain ⟨s₂, s₂', r, hplace, hplace', hdone⟩ :=
    (C.place hprepared tokens tokens' tags (tags.first "for")).exists_eq
  rw [Session.readComment, Session.readComment, heq, heq']
  dsimp only
  rw [hplace, hplace']
  cases r with
  | ok => exact ⟨hdone, rfl⟩
  | error cause =>
    refine ⟨hdone, ?_⟩
    dsimp only
    rw [C.fileName hdone]

/-- **A comment does the same in related sessions**, also if it fails. -/
theorem readComment (following : Option String) :
    Both R (s.readComment tokens following) (s'.readComment tokens following) :=
  C.readComment_of_prepare tokens tokens (C.prepare h tokens following)

end Congruence

end Session

end ApiDocs
