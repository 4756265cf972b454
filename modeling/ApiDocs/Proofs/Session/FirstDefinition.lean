import ApiDocs.Proofs.Session.Signatures

/-!
# The first definition of a member stays

The members that the comments of a run put into classes are its `insertions`. When a comment makes
one is a matter of its tags and of the context (`Inserts`, `insertion?_eq_some_iff`). `Records` says
what a list of insertions leaves behind, whoever else was at work: a member that was not written
before has the signature of the first insertion of it, and every other insertion of it is reported
as a redefinition. Insertions that follow each other add up (`Records.append`), one comment records
the member that it inserts, if any (`records_step`), and so **the first definition of a member wins
in every run, and each later one gives one warning** (`firstDefinition_run`).
-/

namespace ApiDocs

namespace Session

/-- An insertion is one of the member of a class with a kind and a name. -/
def Insertion.isFor (i : Insertion) (cls : String) (kind : MemberKind) (name : String) : Bool :=
  i.cls = cls ∧ i.kind = kind ∧ i.doc.name = name

/-- The insertion that was made if a comment with the given tags documents a member. -/
def insertionOf (tags : TagMap) : Option Target → Option Insertion
  | some (.member cls kind name) => some ⟨cls, kind, describedMember tags kind name⟩
  | _ => none

/-- The member that an input puts into a class: the subject of a comment is a member with a name,
its class is found, and its signature can be read. What the rest of the comment does, and whether
it fails, does not matter. -/
def insertion? (s : Session) : Input → Option Insertion
  | .comment tokens following =>
    let (s, tags) := s.prepare tokens following
    insertionOf tags
      ((s.placeSubject tokens tags (tags.first "for")).2.toOption.bind Placed.target)
  | .root => none

/-- The members that a run puts into classes, in order. -/
def insertions (s : Session) : List Input → List Insertion
  | [] => []
  | i :: rest => (s.insertion? i).toList ++ (s.step i).insertions rest

/-- **A comment inserts a member**: it is about one, it gives its name, there is a class for it to
go to, and its signature can be read. -/
inductive Inserts (s : Session) (tags : TagMap) : Insertion → Prop
  | intro {kind : MemberKind} {name cls : String}
      (subject : (Subject.ofTags tags).memberKind? = some kind)
      (named : tags.name? (Subject.ofTags tags).word = some name) (home : s.home? = some cls)
      (signature : signatureFault? tags kind = none) :
      Inserts s tags ⟨cls, kind, describedMember tags kind name⟩

/-! ### What insertions leave behind -/

/-- **What a list of insertions leaves behind.** Of the insertions of a member, the first gives
the signature unless there is one, and the others are reported. -/
structure Records (l : List Insertion) (s s' : Session) : Prop where
  signature : ∀ cls kind name, s'.model.signature? cls kind name =
    (s.model.signature? cls kind name).or
      ((l.filter (·.isFor cls kind name)).head?.map (·.doc.signature))
  redefined : ∀ cls kind name, s'.redefinitions cls kind name =
    s.redefinitions cls kind name + ((l.filter (·.isFor cls kind name)).length -
      if (s.model.signature? cls kind name).isSome then 0 else 1)

private theorem Steady.records {s s' : Session} (h : s.Steady s') : Records [] s s' where
  signature cls kind name := by
    rw [h.signature]
    simp
  redefined cls kind name := by
    rw [h.redefined]
    simp

namespace Records

variable {s s' s'' : Session} {l l' : List Insertion}

/-- **Insertions add up.** -/
theorem append (h : Records l s s') (h' : Records l' s' s'') : Records (l ++ l') s s'' where
  signature cls kind name := by
    rw [h'.signature, h.signature, List.filter_append, List.head?_append, Option.map_or,
      Option.or_assoc]
  redefined cls kind name := by
    rw [h'.redefined, h.redefined, h.signature, List.filter_append, List.length_append]
    -- the first insertion of all is not reported, wherever it is
    cases s.model.signature? cls kind name with
    | some _ => simp [Nat.add_assoc]
    | none =>
      cases l.filter (·.isFor cls kind name) with
      | nil => simp
      | cons i rest =>
        simp only [Option.none_or, List.head?_cons, Option.map_some, Option.isSome_some, if_true,
          Option.isSome_none, Bool.false_eq_true, if_false, List.length_cons]
        omega

private theorem trans_steady (h : Records l s s') (h' : s'.Steady s'') : Records l s s'' := by
  have happend := h.append h'.records
  rwa [List.append_nil] at happend

end Records

private theorem Steady.trans_records {s s' s'' : Session} {l : List Insertion} (h : s.Steady s')
    (h' : Records l s' s'') : Records l s s'' :=
  h.records.append h'

/-! ### One insertion -/

theorem Insertion.isFor_iff {i : Insertion} {cls : String} {kind : MemberKind} {name : String} :
    i.isFor cls kind name = true ↔ i.cls = cls ∧ i.kind = kind ∧ i.doc.name = name :=
  decide_eq_true_iff

/-- One insertion concerns its own member and leaves all others alone. -/
private theorem Records.of_single {s s' : Session} {i : Insertion}
    (signature : s'.model.signature? i.cls i.kind i.doc.name =
      (s.model.signature? i.cls i.kind i.doc.name).or (some i.doc.signature))
    (redefined : s'.redefinitions i.cls i.kind i.doc.name =
      s.redefinitions i.cls i.kind i.doc.name +
        if (s.model.signature? i.cls i.kind i.doc.name).isSome then 1 else 0)
    (others : ∀ cls kind name, ¬i.isFor cls kind name = true →
      s'.model.signature? cls kind name = s.model.signature? cls kind name ∧
        s'.redefinitions cls kind name = s.redefinitions cls kind name) :
    Records [i] s s' := by
  refine ⟨fun cls kind name => ?_, fun cls kind name => ?_⟩
  · by_cases hfor : i.isFor cls kind name = true
    · rw [List.filter_cons, if_pos hfor, List.filter_nil]
      obtain ⟨rfl, rfl, rfl⟩ := Insertion.isFor_iff.1 hfor
      exact signature
    · rw [List.filter_cons, if_neg hfor, List.filter_nil, (others cls kind name hfor).1]
      exact Option.or_none.symm
  · by_cases hfor : i.isFor cls kind name = true
    · rw [List.filter_cons, if_pos hfor, List.filter_nil]
      obtain ⟨rfl, rfl, rfl⟩ := Insertion.isFor_iff.1 hfor
      rw [redefined]
      split <;> rfl
    · rw [List.filter_cons, if_neg hfor, List.filter_nil, (others cls kind name hfor).2]
      rw [List.length_nil, Nat.zero_sub, Nat.add_zero]

section Insert

variable {s : Session} (tokens : List String) {cls : String} {kind : MemberKind}
  {doc : MemberDoc}

/-- The insertion of a member that is written already is reported. -/
private theorem records_insertMember_of_written {c : ClassDoc}
    (hc : s.model.classes.get? cls = some c)
    (hw : c.HasWritten kind doc.name) :
    Records [⟨cls, kind, doc⟩] s (s.insertMember tokens cls kind doc) := by
  have hsome : (s.model.signature? cls kind doc.name).isSome = true := by
    rw [Model.signature?, hc]
    exact ClassDoc.hasWritten_iff_signature?.1 hw
  rw [insertMember_of_written tokens hc hw]
  refine .of_single ?_ ?_ fun cls' kind' name' hfor => ⟨rfl, ?_⟩
  · exact (Option.or_of_isSome hsome).symm
  · rw [if_pos hsome, redefinitions, redefinitions, warn, List.count_append,
      List.count_singleton_self]
  · have hne : Warning.memberRedefined kind doc.name cls ≠ .memberRedefined kind' name' cls' := by
      intro h
      cases h
      exact hfor (Insertion.isFor_iff.2 ⟨rfl, rfl, rfl⟩)
    rw [redefinitions, redefinitions, warn, List.count_append, List.count_singleton,
      if_neg (by simpa using hne), Nat.add_zero]

/-- A member that is not written yet gives its signature. -/
private theorem records_insertMember_of_free {c : ClassDoc} (hc : s.model.classes.get? cls = some c)
    (free : ¬c.HasWritten kind doc.name) (written : doc.synthetic = false) :
    Records [⟨cls, kind, doc⟩] s (s.insertMember tokens cls kind doc) := by
  have hsignature (cls' : String) (kind' : MemberKind) (name' : String) :
      (s.insertMember tokens cls kind doc).model.signature? cls' kind' name' =
        if (⟨cls, kind, doc⟩ : Insertion).isFor cls' kind' name' then some doc.signature
        else s.model.signature? cls' kind' name' := by
    rw [model_insertMember_of_free tokens doc hc free, Model.signature?, Model.get?_modifyClass,
      Model.signature?]
    by_cases hcls : cls' = cls
    · subst hcls
      rw [hc, Option.map_some, if_pos rfl, Option.bind_some, ClassDoc.signature?_insert written,
        Option.bind_some]
      simp [Insertion.isFor]
    · have hfor : ¬(⟨cls, kind, doc⟩ : Insertion).isFor cls' kind' name' = true :=
        fun h => hcls (Insertion.isFor_iff.1 h).1.symm
      rw [if_neg hfor]
      cases s.model.classes.get? cls' with
      | none => rfl
      | some c' => rw [Option.map_some, if_neg hcls]
  have hredefined (cls' : String) (kind' : MemberKind) (name' : String) :
      (s.insertMember tokens cls kind doc).redefinitions cls' kind' name' =
        s.redefinitions cls' kind' name' := by
    rw [redefinitions, context_insertMember_of_free tokens hc free]
    rfl
  have hnone : s.model.signature? cls kind doc.name = none := by
    rw [Model.signature?, hc]
    exact Option.not_isSome_iff_eq_none.1 fun h => free (ClassDoc.hasWritten_iff_signature?.2 h)
  refine .of_single ?_ ?_ fun cls' kind' name' hfor => ⟨?_, hredefined cls' kind' name'⟩
  · rw [hsignature, if_pos (Insertion.isFor_iff.2 ⟨rfl, rfl, rfl⟩), hnone]
    rfl
  · rw [hredefined, hnone]
    rfl
  · rw [hsignature, if_neg hfor]

/-- A member is inserted whether it is written already or not. -/
private theorem records_insertMember (known : s.Knows cls) (written : doc.synthetic = false) :
    Records [⟨cls, kind, doc⟩] s (s.insertMember tokens cls kind doc) := by
  obtain ⟨c, hc⟩ := Dict.contains_iff.1 known
  by_cases hw : c.HasWritten kind doc.name
  · exact records_insertMember_of_written tokens hc hw
  · exact records_insertMember_of_free tokens hc hw written

/-- The events that a config derives are not written ones. -/
private theorem steady_deriveEvents (known : s.Knows cls) (config : String) (v : UInt32) :
    s.Steady ((changeEvents config v).foldl (addDerivedEvent cls) s) := by
  have hderived : ∀ e ∈ changeEvents config v, e.synthetic = true :=
    fun _ => synthetic_of_mem_changeEvents
  obtain ⟨c, hc⟩ := Dict.contains_iff.1 known
  obtain ⟨classes, notes, hrest⟩ := exists_foldl_addDerivedEvent_eq s cls (changeEvents config v)
  refine ⟨fun cls' kind name => ?_, fun cls' kind name => ?_⟩
  · rw [model_foldl_addDerivedEvent hc]
    exact Model.signature?_modifyClass (fun c => ClassDoc.signature?_addNewEvents hderived) cls
  · rw [hrest]
    rfl

/-- **What the insertion of a described member leaves behind.** -/
theorem records_insert (known : s.Knows cls) (tags : TagMap) (name : String) :
    Records [⟨cls, kind, describedMember tags kind name⟩] s
      (s.insert tokens ⟨cls, kind, describedMember tags kind name⟩) := by
  have hmember : Records [⟨cls, kind, describedMember tags kind name⟩] s
      (s.insertMember tokens cls kind (describedMember tags kind name)) :=
    records_insertMember tokens known (by cases kind <;> rfl)
  cases kind with
  | method => exact hmember
  | event => exact hmember
  | property => exact hmember
  | config =>
    have hknown : (s.insertMember tokens cls .config { name }).Knows cls := by
      obtain ⟨c, hc, _⟩ := written_insertMember tokens .config { name } known rfl
      exact Dict.contains_of_get? hc
    exact hmember.trans_steady (steady_deriveEvents hknown name _)

end Insert

/-! ### One comment -/

section Comment

variable (s : Session) (tokens : List String) (tags : TagMap)

/-- Only a comment about a member documents one. -/
theorem insertionOf_placeSubject (outer : Option String)
    (h : (Subject.ofTags tags).isMember = false) :
    insertionOf tags ((s.placeSubject tokens tags outer).2.toOption.bind Placed.target) = none := by
  rw [placeSubject]
  cases hsubject : Subject.ofTags tags with
  | method | event | property | attr | config => simp [hsubject, Subject.isMember] at h
  | file =>
    dsimp only
    rw [placeFileMarker]
    split <;> rfl
  | cls =>
    dsimp only
    rw [placeClassComment]
    split <;> rfl
  | mod =>
    dsimp only
    rw [placeModule]
    dsimp only
    split <;> rfl
  | nothing =>
    dsimp only
    split <;> rfl

/-- A comment that inserts a member has it for its target. -/
private theorem Inserts.insertionOf_eq {s : Session} {tags : TagMap} {i : Insertion}
    (h : s.Inserts tags i) (outer : Option String) :
    insertionOf tags ((s.placeSubject tokens tags outer).2.toOption.bind Placed.target) =
      some i := by
  cases h with
  | @intro kind name cls hkind hname hhome hsignature =>
    obtain ⟨s₁, -, -, -, hplaced⟩ := placeMember_of_home tokens kind hname hhome
    rw [placeSubject_eq_placeMember tokens tags hkind, hplaced hsignature]
    rfl

/-- Nothing else makes a member the target of a comment. -/
private theorem inserts_of_insertionOf_eq (outer : Option String) {i : Insertion}
    (h : insertionOf tags ((s.placeSubject tokens tags outer).2.toOption.bind Placed.target) =
      some i) : s.Inserts tags i := by
  cases hmember : (Subject.ofTags tags).isMember with
  | false =>
    rw [s.insertionOf_placeSubject tokens tags outer hmember] at h
    cases h
  | true =>
    obtain ⟨kind, hkind⟩ := Subject.exists_memberKind hmember
    rw [placeSubject_eq_placeMember tokens tags hkind] at h
    cases hname : tags.name? (Subject.ofTags tags).word with
    | none =>
      rw [placeMember_of_unnamed tokens kind hname] at h
      cases h
    | some name =>
      cases hhome : s.home? with
      | none =>
        obtain ⟨s₁, e, -, hplaced⟩ := placeMember_of_homeless tokens kind hname hhome
        rw [hplaced] at h
        cases h
      | some cls =>
        obtain ⟨s₁, -, -, hfailed, hplaced⟩ := placeMember_of_home tokens kind hname hhome
        cases hsignature : signatureFault? tags kind with
        | some e =>
          rw [hfailed e hsignature] at h
          cases h
        | none =>
          rw [hplaced hsignature] at h
          cases h
          exact .intro hkind hname hhome hsignature

/-- **What counts as an insertion**: that of a comment which, once it is prepared, inserts the
member. -/
theorem insertion?_eq_some_iff (following : Option String) {i : Insertion} :
    s.insertion? (.comment tokens following) = some i ↔
      (s.prepare tokens following).1.Inserts (s.prepare tokens following).2 i :=
  ⟨inserts_of_insertionOf_eq _ tokens _ _, fun h => h.insertionOf_eq tokens _⟩

/-- **The subject of a comment** leaves behind what the insertion of its member does, if it is a
member that can be inserted. -/
theorem records_placeSubject (outer : Option String) :
    Records (insertionOf tags
      ((s.placeSubject tokens tags outer).2.toOption.bind Placed.target)).toList s
      (s.placeSubject tokens tags outer).1 := by
  cases hmember : (Subject.ofTags tags).isMember with
  | false =>
    rw [s.insertionOf_placeSubject tokens tags outer hmember]
    exact (s.steady_placeSubject tokens tags outer hmember).records
  | true =>
    have hplaces := s.placeSubject_member tokens tags outer hmember
    generalize s.placeSubject tokens tags outer = o at hplaces ⊢
    cases hplaces with
    | unnamed rest => exact (Steady.refl s).records
    | failed seeks e => exact seeks.steady.records
    | inserted seeks known kind name rest =>
      exact seeks.steady.trans_records (records_insert tokens known tags name)

end Comment

/-- **One input** leaves behind what the insertion of its member does, also if it is a comment that
fails later on. -/
theorem records_step (s : Session) (i : Input) : Records (s.insertion? i).toList s (s.step i) := by
  cases i with
  | root =>
    have hroot : s.Steady s.beginRoot := .of_eq rfl rfl
    exact hroot.records
  | comment tokens following =>
    rw [step, readComment_fst]
    exact ((s.steady_prepare tokens following).trans_records
      (records_placeSubject _ tokens _ _)).trans_steady (steady_after_subject _ tokens _ _)

/-! ### Whole runs -/

/-- A run leaves behind what its insertions do. -/
theorem records_run (s : Session) (inputs : List Input) :
    Records (s.insertions inputs) s (s.run inputs) := by
  induction inputs generalizing s with
  | nil => exact (Steady.refl s).records
  | cons i rest ih => exact (s.records_step i).append (ih (s.step i))

/-- **The first definition of a member wins.** After every run, a member that comments put into a
class is a written one with the signature of the first of them, whatever else was read before,
after and in between; each of the others gave one warning. A member that no comment put there is
not a written one. -/
theorem firstDefinition_run (version : String) (v : UInt32) (inputs : List Input) (cls : String)
    (kind : MemberKind) (name : String) :
    let definitions := ((start version v).insertions inputs).filter (·.isFor cls kind name)
    ((start version v).run inputs).model.signature? cls kind name =
        definitions.head?.map (·.doc.signature) ∧
      ((start version v).run inputs).redefinitions cls kind name = definitions.length - 1 := by
  have h := (start version v).records_run inputs
  have hnone : (start version v).model.signature? cls kind name = none := rfl
  refine ⟨?_, ?_⟩
  · rw [h.signature, hnone, Option.none_or]
  · rw [h.redefined, hnone]
    exact Nat.zero_add _

/-- A derived event gives way to the first written one without a warning, and the written one
stays when another comes. -/
theorem firstDefinition_run_size :
    let s := (start "1.0.0" 3).run
      [.comment ["@class A"] none, .comment ["@config size"] none,
        .comment ["@event sizeChangeEvent", "@param e"] none,
        .comment ["@event sizeChangeEvent"] none]
    s.model.signature? "A" .event "sizeChangeEvent" = some ([{ name := "e" }], none) ∧
      s.redefinitions "A" .event "sizeChangeEvent" = 1 := by
  obtain ⟨hsignature, hredefined⟩ := firstDefinition_run "1.0.0" 3
    [.comment ["@class A"] none, .comment ["@config size"] none,
      .comment ["@event sizeChangeEvent", "@param e"] none,
      .comment ["@event sizeChangeEvent"] none] "A" .event "sizeChangeEvent"
  exact ⟨hsignature.trans (by decide +kernel), hredefined.trans (by decide +kernel)⟩

end Session

end ApiDocs
