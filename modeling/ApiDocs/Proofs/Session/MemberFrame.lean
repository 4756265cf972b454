import ApiDocs.Proofs.Session.MemberComment

/-!
# What a plain comment leaves alone

A plain comment that fails has not been placed at all: the model is the one from before, and of
the context no more differs than that the module is the one that the comment names, the global
class has become the current one where there was none, and warnings were added
(`readComment_plain_error`). The reason is that whatever can fail is done before the first write.

A plain comment about a member that succeeds writes to the class of the member alone, and there to
the one place of the member. A config writes to the events of that class as well, but only where
an event that it derives was missing (`readComment_member_ok`).
-/

namespace ApiDocs

/-- **All that a member's comment may change of its class**: the member itself, which is a written
one then, and the missing events that a config derives in a model of major version `v`. -/
structure ClassDoc.DiffersAt (c c' : ClassDoc) (kind : MemberKind) (name : String) (v : UInt32) :
    Prop where
  rest : c' = { c with
    methods := c'.methods, events := c'.events, properties := c'.properties, configs := c'.configs }
  written : c'.HasWritten kind name
  own : ∀ k, k ≠ name → (c'.members kind).get? k = (c.members kind).get? k
  other : ∀ kind', kind' ≠ kind → (kind = .config → kind' ≠ .event) →
    c'.members kind' = c.members kind'
  derived : kind = .config → ∀ k,
    c'.events.get? k = (c.events.get? k).or ((changeEvents name v).find? (·.name = k))

namespace ClassDoc

variable (c : ClassDoc) (d : Described) (v : UInt32)

private theorem differsAt_mapMembers (hwritten : d.doc.synthetic = false) :
    c.DiffersAt (c.mapMembers (d.effect v)) d.kind d.doc.name v where
  rest := rfl
  written := by
    rw [hasWritten_iff, members_mapMembers, Described.effect, if_pos rfl, Dict.document,
      Dict.written_modify _ _ fun m => synthetic_applyTags m d.tags, Dict.contains_modify,
      Dict.written_define _ hwritten, Dict.contains, Dict.get?_define, if_pos rfl]
    rfl
  own k hk := by
    rw [members_mapMembers, Described.effect, if_pos rfl, Dict.get?_document, if_neg hk]
  other kind' hkind hevent := by
    rw [members_mapMembers, Described.effect, if_neg hkind]
    split
    · rename_i heq
      have hnone : d.events v = [] := if_neg fun hconfig => hevent hconfig heq
      rw [hnone]
      rfl
    · rfl
  derived hconfig k := by
    have hevent : ¬MemberKind.event = d.kind := by
      rw [hconfig]
      decide
    have hderived : d.events v = changeEvents d.doc.name v := if_pos hconfig
    have heffect : (c.mapMembers (d.effect v)).events = c.events.derive (d.events v) :=
      (if_neg hevent).trans (if_pos rfl)
    rw [heffect, Dict.get?_derive, hderived]

end ClassDoc

private theorem Model.modifyClass_of_some {m : Model} {name : String} {c : ClassDoc}
    (h : m.classes.get? name = some c) (f : ClassDoc → ClassDoc) :
    m.modifyClass name f = { m with classes := m.classes.insert name (f c) } := by
  have hclasses : m.classes.modify name f = m.classes.insert name (f c) := by
    refine Dict.ext_get? fun k => ?_
    rw [Dict.get?_modify, Dict.get?_insert]
    split
    · rename_i hk
      rw [hk, h]
      rfl
    · exact Option.map_id'
  rw [modifyClass, hclasses]

namespace Session

variable (s : Session) (tokens : List String) {tags : TagMap}

/-! ### Comments that fail -/

/-- Before it is placed, a plain comment has only opened the module that it names. -/
private theorem exists_prepare_eq (hplain : IsPlain tokens) (following : Option String) :
    ∃ s₁, s.prepare tokens following = (s₁, subjectTags tokens following) ∧
      s₁.model = s.model ∧
      ∃ ws, s₁.context =
        { s.context with
          inModule := (collect tokens).tags.moduleNames.getLast? <|> s.context.inModule
          warnings := s.context.warnings ++ ws } := by
  obtain ⟨notes, hprepare⟩ := prepare_of_isPlain (s := s) hplain following
  refine ⟨_, hprepare, rfl, (collect tokens).warnings, ?_⟩
  rw [← inModule_collect]

/-- Looking for the class of a member may make the global class the current one, with a warning,
and does nothing else. -/
private theorem currentClass_fst (tag name : String) :
    (s.currentClass tokens tag name).1.model = s.model ∧
      ∃ ws, (s.currentClass tokens tag name).1.context =
        { s.context with
          inClass := s.context.inClass <|> s.context.globalClass
          warnings := s.context.warnings ++ ws } := by
  have hkeep (h : (s.context.inClass <|> s.context.globalClass) = s.context.inClass) :
      ∃ ws, s.context =
        { s.context with
          inClass := s.context.inClass <|> s.context.globalClass
          warnings := s.context.warnings ++ ws } :=
    ⟨[], by rw [h, List.append_nil]⟩
  rw [currentClass]
  split
  · rename_i cls hin
    have hsame := hkeep (by rw [hin]; rfl)
    split
    · exact ⟨rfl, hsame⟩
    · exact ⟨rfl, hsame⟩
  · rename_i hin
    split
    · rename_i hglobal
      exact ⟨rfl, hkeep (by rw [hin, hglobal]; rfl)⟩
    · rename_i cls hglobal
      have hentered : ∃ ws,
          ((s.warn tokens (.outOfPosition tag name cls)).enterClass cls).context =
            { s.context with
              inClass := s.context.inClass <|> s.context.globalClass
              warnings := s.context.warnings ++ ws } := by
        rw [hin, hglobal]
        exact ⟨_, rfl⟩
      dsimp only
      split
      · exact ⟨rfl, hentered⟩
      · exact ⟨rfl, hentered⟩

variable {s}

/-- Only the subject of a comment about a member can fail, and it does so with nothing done but the
search for the class. -/
private theorem placeSubject_error {outer : Option String} {s₁ : Session} {e : Fault.Cause}
    (h : s.placeSubject tokens tags outer = (s₁, .error e)) :
    ∃ tag name notes, s₁ = (s.currentClass tokens tag name).1.log notes := by
  cases hkind : (Subject.ofTags tags).memberKind? with
  | some kind =>
    rw [placeSubject_eq_placeMember tokens tags hkind, placeMember, withClass] at h
    split at h
    · cases h
    · rename_i name _
      have hfst (s₂ : Session) (r) (heq : s.currentClass tokens (Subject.ofTags tags).word name =
          (s₂, r)) : s₂ = (s.currentClass tokens (Subject.ofTags tags).word name).1 := by rw [heq]
      -- the class is looked for, then the signature is read; only after that the member is inserted
      split at h
      · rename_i s₂ _ heq
        cases h
        exact ⟨_, name, [], by rw [log_nil, ← hfst _ _ heq]⟩
      · rename_i s₂ cls heq
        dsimp only at h
        split at h
        · cases h
          exact ⟨_, name, _, by rw [← hfst _ _ heq]⟩
        · cases h
  | none =>
    rw [placeSubject] at h
    generalize Subject.ofTags tags = subject at hkind h
    cases subject with
    | method | event | property | attr | config => cases hkind
    | file | cls | mod => cases h
    | nothing =>
      dsimp only at h
      split at h
      · cases h
      · cases h

/-- Placing the subject of a comment leaves the tag of the constructor alone. -/
private theorem contains_constructor_placeSubject {outer : Option String} {s₁ : Session}
    {p : Placed}
    (h : s.placeSubject tokens tags outer = (s₁, .ok p)) :
    p.tags.contains "constructor" = tags.contains "constructor" := by
  cases hkind : (Subject.ofTags tags).memberKind? with
  | some kind =>
    have hown : "constructor" ∉ kind.ownTags := by cases kind <;> decide
    have hsignature : "constructor" ∉ kind.signatureTags := by cases kind <;> decide
    have hrest := Dict.contains_foldl_erase hown tags
    rw [placeSubject_eq_placeMember tokens tags hkind, placeMember, withClass] at h
    split at h
    · cases h
      exact hrest
    · split at h
      · cases h
      · dsimp only at h
        split at h
        · cases h
        · cases h
          exact (Dict.contains_foldl_erase hsignature _).trans hrest
  | none =>
    rw [placeSubject] at h
    cases hsubject : Subject.ofTags tags with
    | method | event | property | attr | config =>
      rw [hsubject] at hkind
      cases hkind
    | file =>
      rw [hsubject] at h
      cases h
      exact (seeksClass_placeFileMarker (s := s) hsubject).constructor _ rfl
    | cls =>
      rw [hsubject] at h
      cases h
      exact (seeksClass_placeClassComment (s := s) tokens hsubject outer).constructor _ rfl
    | mod =>
      rw [hsubject] at h
      cases h
      exact (seeksClass_placeModule (s := s) tokens hsubject).constructor _ rfl
    | nothing =>
      rw [hsubject] at h
      dsimp only at h
      split at h
      · cases h
        rfl
      · cases h
        rfl

/-- Without a constructor nothing but the subject of a comment can fail. -/
private theorem placeSubject_of_place_error {outer : Option String} {s₁ : Session} {e : Fault.Cause}
    (hnone : tags.contains "constructor" = false)
    (h : s.place tokens tags outer = (s₁, .error e)) :
    s.placeSubject tokens tags outer = (s₁, .error e) := by
  rw [place] at h
  split at h
  · rename_i heq
    cases h
    exact heq
  · rename_i p heq
    rw [contains_constructor_placeSubject tokens heq, if_neg (by rw [hnone]; decide)] at h
    cases h

/-- **A plain comment that fails leaves the model as it was**, and of the context only the module,
which is the one that the comment names, the class, which is the global one if there was none, and
the warnings. -/
theorem readComment_plain_error {following : Option String} (hplain : IsPlain tokens)
    (h : (s.readComment tokens following).2.isOk = false) :
    (s.readComment tokens following).1.model = s.model ∧
      ∃ ws, (s.readComment tokens following).1.context =
        { s.context with
          inModule := (collect tokens).tags.moduleNames.getLast? <|> s.context.inModule
          inClass := s.context.inClass <|> s.context.globalClass
          warnings := s.context.warnings ++ ws } := by
  obtain ⟨s₁, hprepare, hmodel, ws, hcontext⟩ := s.exists_prepare_eq tokens hplain following
  have hnone := contains_constructor_subjectTags hplain following
  rw [readComment, hprepare] at h ⊢
  dsimp only at h ⊢
  split at h
  · cases h
  · rename_i cause hplace
    obtain ⟨tag, name, notes, rfl⟩ :=
      placeSubject_error tokens (placeSubject_of_place_error tokens hnone hplace)
    obtain ⟨hmodel', ws', hcontext'⟩ := s₁.currentClass_fst tokens tag name
    refine ⟨hmodel'.trans hmodel, ws ++ ws', hcontext'.trans ?_⟩
    rw [hcontext, List.append_assoc]

/-- A malformed parameter comes to light when the module and the global class have been entered. -/
theorem readComment_malformed_event :
    let s := (start "1.0.0" 3).run [.comment ["@class A", "@global"] none, .root]
    let tokens := ["@event e", "@module m", "@param $x"]
    IsPlain tokens ∧ (s.readComment tokens none).2.isOk = false ∧
      (s.readComment tokens none).1.model = s.model ∧
      ∃ ws, (s.readComment tokens none).1.context =
        { s.context with
          inModule := some "m", inClass := some "A", warnings := s.context.warnings ++ ws } := by
  intro s tokens
  have hplain : IsPlain tokens := by decide +kernel
  have hfails : (s.readComment tokens none).2.isOk = false := by decide +kernel
  exact ⟨hplain, hfails, readComment_plain_error tokens hplain hfails⟩

/-! ### Comments about a member -/

/-- The member that a comment describes is a written one of the name that it gives. -/
private theorem described_doc (tags : TagMap) (kind : MemberKind) (name : String) :
    (described tags kind name).doc.name = name ∧
      (described tags kind name).doc.synthetic = false := by
  cases kind <;> exact ⟨rfl, rfl⟩

/-- A comment about a member opens the module that it names, but does nothing else outside the
classes. -/
private theorem AboutMember.context_readComment {following : Option String} {kind : MemberKind}
    {name : String} (h : AboutMember tokens following kind name) :
    ∃ inClass warnings, (s.readComment tokens following).1.context =
      { s.context with
        inModule := (collect tokens).tags.moduleNames.getLast? <|> s.context.inModule
        inClass := inClass
        warnings := warnings } := by
  obtain ⟨s₁, hprepare, -, ws, hcontext⟩ := s.exists_prepare_eq tokens h.plain following
  have hkind := h.kind
  have hmodules : ¬PlacesModules (subjectTags tokens following) := by
    rintro (heq | ⟨heq, -⟩)
    · rw [heq] at hkind
      cases hkind
    · rw [heq] at hkind
      cases hkind
  have hfile : ¬MarksFile (subjectTags tokens following) := by
    rintro ⟨heq, -⟩
    rw [heq] at hkind
    cases hkind
  obtain ⟨classes, inClass, warnings, notes, honly⟩ := onlyClasses_place (s := s₁) tokens hmodules
    hfile ((subjectTags tokens following).first "for")
  refine ⟨inClass, warnings, ?_⟩
  rw [readComment_fst, hprepare, honly]
  dsimp only
  rw [hcontext]

/-- **A comment about a member touches only its own member**: one class, which is the current one
from then on, and there what `DiffersAt` allows; and of the context the module that the comment
names. -/
theorem readComment_member_ok {following : Option String} {kind : MemberKind} {name : String}
    (h : AboutMember tokens following kind name)
    (hok : (s.readComment tokens following).2 = .ok ()) :
    ∃ cls c c' warnings, (s.context.inClass <|> s.context.globalClass) = some cls ∧
      s.model.classes.get? cls = some c ∧ c.DiffersAt c' kind name s.model.majorVersion ∧
      (s.readComment tokens following).1.model =
        { s.model with classes := s.model.classes.insert cls c' } ∧
      (s.readComment tokens following).1.context =
        { s.context with
          inModule := (collect tokens).tags.moduleNames.getLast? <|> s.context.inModule
          inClass := some cls
          warnings := warnings } := by
  obtain ⟨⟨cls, hhome⟩, hsignature⟩ := h.readComment_eq_ok_iff.1 hok
  obtain ⟨-, hmodel, hclass⟩ := h.readComment_of_home hhome hsignature
  obtain ⟨inClass, warnings, hcontext⟩ := h.context_readComment (s := s)
  obtain ⟨hfirst, hknown⟩ := Option.filter_eq_some_iff.1 hhome
  obtain ⟨c, hc⟩ := Dict.contains_iff.1 hknown
  have hdoc := described_doc (subjectTags tokens following) kind name
  have hdiffers := c.differsAt_mapMembers (described (subjectTags tokens following) kind name)
    s.model.majorVersion hdoc.2
  rw [hdoc.1] at hdiffers
  refine ⟨cls, c, _, warnings, hfirst, hc, hdiffers, ?_, ?_⟩
  · rw [hmodel, Model.modifyClass_of_some hc]
  · have hin : inClass = some cls := by rw [← hclass, hcontext]
    rw [hcontext, hin]

/-- Tags about modules and classes become attributes of the config in whose comment they stand. -/
theorem readComment_global_config :
    let s := (start "1.0.0" 2).run [.comment ["@class A", "@global"] none, .root]
    let tokens :=
      ["@config width", "@module m", "@submodule part", "@uses B", "@extends C", "@global"]
    AboutMember tokens none .config "width" ∧ (s.readComment tokens none).2 = .ok () ∧
      ∃ c c', s.model.classes.get? "A" = some c ∧ c.DiffersAt c' .config "width" 2 ∧
        (s.readComment tokens none).1.model =
          { s.model with classes := s.model.classes.insert "A" c' } := by
  intro s tokens
  have hclass : (s.context.inClass <|> s.context.globalClass) = some "A" := by decide +kernel
  have habout : AboutMember tokens none .config "width" :=
    ⟨by decide +kernel, by decide +kernel, by decide +kernel⟩
  have hok : (s.readComment tokens none).2 = .ok () := by decide +kernel
  obtain ⟨cls, c, c', warnings, hcls, hc, hdiffers, hmodel, -⟩ :=
    readComment_member_ok tokens habout hok
  obtain rfl : "A" = cls := Option.some.inj (hclass.symm.trans hcls)
  exact ⟨habout, hok, c, c', hc, hdiffers, hmodel⟩

end Session

end ApiDocs
