import ApiDocs.Proofs.Tag.Collect
import ApiDocs.Session.Block

/-!
# The form of a comment about a member

Comments about methods, events, properties and configs are placed in one way: the member's class
is looked for, its signature is read, and the member is inserted. `Session.placeMember` is this way
with the kind of member as a parameter, and it is how the subject of every comment about a member
is placed (`placeSubject_eq_placeMember`).
-/

namespace ApiDocs

/-- A comment is about a member. -/
def Subject.isMember : Subject → Bool
  | method | event | property | attr | config => true
  | _ => false

/-- The kind of member that a comment is about, if it is about one. -/
def Subject.memberKind? : Subject → Option MemberKind
  | method => some .method
  | event => some .event
  | property => some .property
  | attr | config => some .config
  | _ => none

/-- Each subject that is a member has a kind. -/
theorem Subject.exists_memberKind {subject : Subject} (h : subject.isMember = true) :
    ∃ kind, subject.memberKind? = some kind := by
  cases subject with
  | method | event | property | attr | config => exact ⟨_, rfl⟩
  | file | cls | mod | nothing => cases h

theorem Subject.isMember_of_memberKind {subject : Subject} {kind : MemberKind}
    (h : subject.memberKind? = some kind) : subject.isMember = true := by
  cases subject with
  | method | event | property | attr | config => rfl
  | file | cls | mod | nothing => cases h

/-- The tags that name the subject of a comment about a member. A config may be called an
attribute. -/
def MemberKind.ownTags : MemberKind → List String
  | method => ["method"]
  | event => ["event"]
  | property => ["property"]
  | config => ["config", "attribute"]

/-- The tags that give the signature of a member. -/
def MemberKind.signatureTags : MemberKind → List String
  | method => ["param", "return"]
  | event => ["param"]
  | property | config => []

namespace Session

/-! ### Parts -/

/-- A member that is put into a class, as a comment gives it. -/
structure Insertion where
  cls : String
  kind : MemberKind
  doc : MemberDoc
  deriving DecidableEq, Repr

/-- Puts a member into a class; a config brings its events. -/
def insert (s : Session) (tokens : List String) (i : Insertion) : Session :=
  match i.kind with
  | .config => s.insertConfig tokens i.cls i.doc.name
  | kind => s.insertMember tokens i.cls kind i.doc

/-- The member of a kind and a name that the tags of a comment describe. Methods and events have
parameters, and only methods return something. -/
def describedMember (tags : TagMap) (kind : MemberKind) (name : String) : MemberDoc :=
  let params := (Signature.params (tags.all "param")).toOption.getD []
  match kind with
  | .method => { name, params, returns := (readReturn tags).toOption.getD none }
  | .event => { name, params }
  | .property | .config => { name }

/-- What is wrong with the signature that the tags give a member, if anything is. -/
def signatureFault? (tags : TagMap) : MemberKind → Option Fault.Cause
  | .method =>
    match Signature.params (tags.all "param"), readReturn tags with
    | .error body, _ => some (.malformed "param" body)
    | .ok _, .error e => some e
    | .ok _, .ok _ => none
  | .event =>
    match Signature.params (tags.all "param") with
    | .error body => some (.malformed "param" body)
    | .ok _ => none
  | .property | .config => none

/-- What reading the signature of a member adds to the log. -/
def signatureNotes (tags : TagMap) : MemberKind → List Note
  | .method | .event => Signature.paramNotes (tags.all "param")
  | .property | .config => []

/-- The form that the placing of members has in common. -/
def withClass (tokens : List String) (tags : TagMap) (s : Session) (tag : String)
    (rest : TagMap) (use : Session → String → String → Outcome Placed) : Outcome Placed :=
  match tags.name? tag with
  | none => (s, .ok { tags := rest })
  | some name =>
    match s.currentClass tokens tag name with
    | (s, .error e) => (s, .error e)
    | (s, .ok cls) => use s name cls

/-- **Places a comment about a member of a kind.** -/
def placeMember (s : Session) (tokens : List String) (tags : TagMap) (subject : Subject)
    (kind : MemberKind) : Outcome Placed :=
  let rest := kind.ownTags.foldl Dict.erase tags
  s.withClass tokens tags subject.word rest fun s name cls =>
    let s := s.log (signatureNotes rest kind)
    match signatureFault? rest kind with
    | some e => (s, .error e)
    | none =>
      (s.insert tokens ⟨cls, kind, describedMember rest kind name⟩,
        .ok { tags := kind.signatureTags.foldl Dict.erase rest
              target := some (.member cls kind name) })

/-- The tags that name the subject do not describe it. -/
theorem describedMember_ownTags (tags : TagMap) (kind : MemberKind) (name : String) :
    describedMember (kind.ownTags.foldl Dict.erase tags) kind name =
      describedMember tags kind name := by
  have hreturn (tag : String) (h : tag ≠ "return") :
      readReturn (tags.erase tag) = readReturn tags := by
    rw [readReturn, readReturn, TagMap.first_erase, if_neg h.symm]
  cases kind with
  | method =>
    simp only [describedMember, MemberKind.ownTags, List.foldl_cons, List.foldl_nil,
      TagMap.all_erase, hreturn "method" (by decide)]
    rfl
  | event =>
    simp only [describedMember, MemberKind.ownTags, List.foldl_cons, List.foldl_nil,
      TagMap.all_erase]
    rfl
  | property => rfl
  | config => rfl

/-- The tags that name the subject give no signature. -/
theorem signatureFault?_ownTags (tags : TagMap) (kind : MemberKind) :
    signatureFault? (kind.ownTags.foldl Dict.erase tags) kind = signatureFault? tags kind := by
  cases kind with
  | method =>
    have hreturn : readReturn (tags.erase "method") = readReturn tags := by
      rw [readReturn, readReturn, TagMap.first_erase, if_neg (by decide)]
    simp only [signatureFault?, MemberKind.ownTags, List.foldl_cons, List.foldl_nil,
      TagMap.all_erase, hreturn]
    rfl
  | event =>
    simp only [signatureFault?, MemberKind.ownTags, List.foldl_cons, List.foldl_nil,
      TagMap.all_erase]
    rfl
  | property => rfl
  | config => rfl

/-! ### The common form -/

theorem log_nil (s : Session) : s.log [] = s := by
  rw [log, List.append_nil]

variable {s : Session} (tokens : List String) (tags : TagMap)

/-- Only what is done with the class matters. -/
private theorem withClass_congr {tag : String} {rest : TagMap}
    {use use' : Session → String → String → Outcome Placed}
    (h : ∀ s name cls, use s name cls = use' s name cls) :
    s.withClass tokens tags tag rest use = s.withClass tokens tags tag rest use' := by
  have huse : use = use' := by
    funext s name cls
    exact h s name cls
  rw [huse]

/-- Methods have parameters and a return value. -/
private theorem placeMethod_eq :
    s.placeMethod tokens tags = s.placeMember tokens tags .method .method := by
  refine withClass_congr tokens tags fun s name cls => ?_
  dsimp only [MemberKind.ownTags, List.foldl_cons, List.foldl_nil]
  generalize tags.erase "method" = rest
  cases hparams : Signature.params (TagMap.all rest "param") with
  | error body => simp [readParams, signatureFault?, signatureNotes, hparams]
  | ok params =>
    cases hreturn : readReturn rest with
    | error e => simp [readParams, signatureFault?, signatureNotes, hparams, hreturn]
    | ok returns =>
      simp [readParams, signatureFault?, signatureNotes, describedMember, hparams, hreturn, insert,
        MemberKind.signatureTags, Except.toOption]

/-- Events have parameters. -/
private theorem placeEvent_eq :
    s.placeEvent tokens tags = s.placeMember tokens tags .event .event := by
  refine withClass_congr tokens tags fun s name cls => ?_
  dsimp only [MemberKind.ownTags, List.foldl_cons, List.foldl_nil]
  generalize tags.erase "event" = rest
  cases hparams : Signature.params (TagMap.all rest "param") with
  | error body => simp [readParams, signatureFault?, signatureNotes, hparams]
  | ok params =>
    simp [readParams, signatureFault?, signatureNotes, describedMember, hparams, insert,
      MemberKind.signatureTags, Except.toOption]

/-- Properties have no signature. -/
private theorem placeProperty_eq :
    s.placeProperty tokens tags = s.placeMember tokens tags .property .property := by
  refine withClass_congr tokens tags fun s name cls => ?_
  dsimp only [signatureNotes]
  rw [log_nil]
  rfl

/-- Configs have no signature, and are called by either of two tags. -/
private theorem placeConfig_eq (subject : Subject) :
    s.placeConfig tokens tags subject.word = s.placeMember tokens tags subject .config := by
  refine withClass_congr tokens tags fun s name cls => ?_
  dsimp only [signatureNotes]
  rw [log_nil]
  rfl

/-- **The subject of a comment about a member** is placed in the common form. -/
theorem placeSubject_eq_placeMember {kind : MemberKind}
    (h : (Subject.ofTags tags).memberKind? = some kind) (outer : Option String) :
    s.placeSubject tokens tags outer = s.placeMember tokens tags (Subject.ofTags tags) kind := by
  rw [placeSubject]
  generalize Subject.ofTags tags = subject at h ⊢
  cases subject with
  | method =>
    cases h
    exact placeMethod_eq tokens tags
  | event =>
    cases h
    exact placeEvent_eq tokens tags
  | property =>
    cases h
    exact placeProperty_eq tokens tags
  | attr =>
    cases h
    exact placeConfig_eq tokens tags .attr
  | config =>
    cases h
    exact placeConfig_eq tokens tags .config
  | file => cases h
  | cls => cases h
  | mod => cases h
  | nothing => cases h

end Session

end ApiDocs
