import Mathlib.Data.List.Induction
import ApiDocs.Proofs.Session.Change
import ApiDocs.Proofs.Session.MemberForm

/-!
# Runs of a session

A session is driven by `Input`s: comments, whether they can be placed or not, and starts of new
source trees. `Session.run` feeds it a list of them. **Every input is a chain of elementary
changes** (`changes_step`), so that whatever each change keeps is kept by every run
(`run_induction`), also by one in which comments fail.
-/

namespace ApiDocs

/-- What is fed to a session. -/
inductive Input where
  /-- A comment, given by its tokens and the code after it. -/
  | comment (tokens : List String) (following : Option String)
  /-- The start of a new source tree. -/
  | root
  deriving DecidableEq, Repr

namespace Session

/-- Takes one input. A comment that cannot be placed leaves what was done up to its fault. -/
def step (s : Session) : Input → Session
  | .comment tokens following => (s.readComment tokens following).1
  | .root => s.beginRoot

/-- Takes inputs one after the other. -/
def run (s : Session) (inputs : List Input) : Session := inputs.foldl step s

/-! ### Before a comment is placed -/

private theorem changes_warnAll (s : Session) (tokens : List String) (ws : List Warning) :
    Changes s (s.warnAll tokens ws) := by
  induction ws generalizing s with
  | nil => exact .refl
  | cons w rest ih => exact .head (.warn s tokens w) (ih (s.warn tokens w))

/-- A comment may enter a namespace. -/
private theorem changes_applyNamespace (s : Session) (tags : TagMap) :
    Changes s (s.applyNamespace tags) := by
  rw [applyNamespace]
  split
  · exact .single (.enterNamespace s _)
  · exact .refl

/-- A comment that is written for a class may define it, as an inner one of the current class. -/
private theorem changes_enterFor (s : Session) (tokens : List String) (name : String) :
    Changes s (s.enterFor tokens name) := by
  rw [enterFor]
  split
  · rename_i known hfind
    exact .single (.enterClass s known (List.find?_some hfind))
  · have hdef : Changes s (s.defineClass tokens name) := .single (.defineClass s tokens name)
    split
    · exact hdef
    · split
      · exact hdef
      · rename_i outer _ hne
        exact hdef.tail (.addInner _ outer _ hne)

private theorem changes_guessSubject (s : Session) (tags : TagMap) (following : Option String) :
    Changes s (s.guessSubject tags following).1 := by
  rw [guessSubject]
  split
  · exact .refl
  · split
    · exact .refl
    · exact .single (.log s _)

theorem changes_prepare (s : Session) (tokens : List String) (following : Option String) :
    Changes s (s.prepare tokens following).1 := by
  have hstart : Changes s (((s.warnAll tokens (collect tokens).warnings).enterModule
      (collect tokens).inModule).applyNamespace (collect tokens).tags) :=
    ((changes_warnAll s tokens _).tail (.enterModule _ _)).trans (changes_applyNamespace _ _)
  rw [prepare]
  split
  · split
    · exact hstart.trans (changes_guessSubject _ _ _)
    · exact (hstart.trans (changes_enterFor _ tokens _)).trans (changes_guessSubject _ _ _)
  · exact hstart.trans (changes_guessSubject _ _ _)

/-! ### Files, modules and classes -/

private theorem changes_placeFileMarker (s : Session) (tags : TagMap) :
    Changes s (s.placeFileMarker tags).1 := by
  rw [placeFileMarker]
  split
  · exact .refl
  · rename_i name _
    refine .tail (.single (.enterFile s name)) (.placeFile _ name ?_)
    simp [enterFile, Model.addFile]

theorem changes_describePart (s : Session) (tokens : List String) (mod : String)
    (tags : TagMap) (alone : Bool) : Changes s (s.describePart tokens mod tags alone).1 := by
  rw [describePart]
  split
  · exact .single (.addSubmodule s mod _ _)
  · exact .single (.describeModule s tokens mod _)

private theorem changes_placeModule (s : Session) (tokens : List String) (tags : TagMap)
    (alone : Bool) : Changes s (s.placeModule tokens tags alone).1 := by
  have hadd : Changes s (s.addModules ((tags.all "module").filter (!·.isEmpty))) :=
    .single (.addModules s _)
  rw [placeModule]
  dsimp only
  split
  · exact hadd
  · exact (hadd.trans (changes_describePart _ tokens _ _ alone)).tail (.drainInto _ _)

theorem changes_placeOwnModule (s : Session) (tokens : List String) (tags : TagMap) :
    Changes s (s.placeOwnModule tokens tags).1 := by
  rw [placeOwnModule]
  split
  · exact changes_placeModule s tokens tags false
  · exact .refl

private theorem changes_placeClassComment (s : Session) (tokens : List String) (tags : TagMap)
    (inner : Option String) : Changes s (s.placeClassComment tokens tags inner).1 := by
  rw [placeClassComment]
  dsimp only
  split
  · exact .refl
  · rename_i name _
    have h₀ : Changes s (s.defineClass tokens name) := .single (.defineClass s tokens name)
    have hk₀ := knows_defineClass s tokens name
    generalize s.fullName name = cls at hk₀ ⊢
    have h₁ := changes_placeOwnModule (s.defineClass tokens name) tokens (tags.erase "class")
    have hother : inner.filter (· ≠ cls) ≠ some cls := by
      intro h
      simpa using (Option.filter_eq_some_iff.1 h).2
    refine h₀.trans (h₁.trans ?_)
    have hk₁ := h₁.knows hk₀
    generalize (s.defineClass tokens name).placeOwnModule tokens (tags.erase "class") = r
      at hk₁ ⊢
    obtain ⟨s₁, rest⟩ := r
    -- the class stays known while the rest of its comment is placed
    have c₁ : Changes s₁ _ := .single (.claimSubmodule s₁ cls (rest.first "description"))
    have c₂ : Changes s₁ _ := c₁.tail (.markGlobal _ rest cls (c₁.knows hk₁))
    have c₃ : Changes s₁ _ := c₂.tail (.relateClass _ cls rest _ hother)
    have c₄ : Changes s₁ _ := c₃.tail (.placeClass _ cls (c₃.knows hk₁))
    exact c₄.tail (.listInFile _ cls (c₄.knows hk₁))

/-! ### Members -/

private theorem changes_currentClass {s s' : Session} {tokens : List String} {tag name : String}
    {r : Except Fault.Cause String} (hs : s.ContextKnown)
    (h : s.currentClass tokens tag name = (s', r)) :
    Changes s s' ∧ ∀ cls, r = .ok cls → s'.Knows cls := by
  rw [currentClass] at h
  split at h
  · split at h
    · cases h
      refine ⟨.refl, fun cls hcls => ?_⟩
      cases hcls
      assumption
    · cases h
      exact ⟨.refl, fun cls hcls => by cases hcls⟩
  · split at h
    · cases h
      exact ⟨.refl, fun cls hcls => by cases hcls⟩
    · rename_i global hglobal
      have hk : s.Knows global := hs.globalClass global hglobal
      have hc : Changes s ((s.warn tokens (.outOfPosition tag name global)).enterClass global) :=
        .tail (.single (.warn s tokens _)) (.enterClass _ global hk)
      dsimp only at h
      split at h
      · cases h
        refine ⟨hc, fun cls hcls => ?_⟩
        cases hcls
        exact hk
      · cases h
        exact ⟨hc, fun cls hcls => by cases hcls⟩

private theorem changes_readParams {s s' : Session} {tags : TagMap}
    {r : Except Fault.Cause (List Param)} (h : s.readParams tags = (s', r)) : Changes s s' := by
  rw [readParams] at h
  split at h <;> cases h <;> exact .single (.log s _)

/-- A member that was inserted is a written one. -/
theorem written_insertMember {s : Session} (tokens : List String) {cls : String}
    (kind : MemberKind) (doc : MemberDoc) (hk : s.Knows cls) (hs : doc.synthetic = false) :
    (s.insertMember tokens cls kind doc).Written cls kind doc.name := by
  obtain ⟨c, hc⟩ := Dict.contains_iff.1 hk
  by_cases hw : c.HasWritten kind doc.name
  · exact ⟨c, by rw [model_insertMember_of_written tokens doc hc hw, hc], hw⟩
  · rw [Written, model_insertMember_of_free tokens doc hc hw]
    refine ⟨_, by rw [Model.get?_modifyClass, hc, Option.map_some, if_pos rfl], doc, ?_, hs⟩
    rw [ClassDoc.members_setMembers, if_pos rfl, Dict.get?_insert_self]

/-- A config that was inserted is a written one, and so it stays while its events are derived. -/
private theorem written_insertConfig {s : Session} (tokens : List String) {cls : String}
    (name : String)
    (hk : s.Knows cls) : (s.insertConfig tokens cls name).Written cls .config name := by
  obtain ⟨c, hc, hw⟩ := written_insertMember tokens .config { name } hk rfl
  rw [insertConfig, Written, model_foldl_addDerivedEvent hc]
  exact ⟨_, by rw [Model.get?_modifyClass, hc, Option.map_some, if_pos rfl], hw.addNewEvents _⟩

/-- The member that a comment describes is inserted by a change, and is a written one then. -/
private theorem changes_insert {s : Session} (tokens : List String) {cls : String}
    (hk : s.Knows cls)
    (kind : MemberKind) (tags : TagMap) (name : String) :
    Changes s (s.insert tokens ⟨cls, kind, describedMember tags kind name⟩) ∧
      (s.insert tokens ⟨cls, kind, describedMember tags kind name⟩).Written cls kind name := by
  cases kind with
  | config =>
    exact ⟨.single (.insertConfig s tokens cls name hk), written_insertConfig tokens name hk⟩
  | method =>
    exact ⟨.single (.insertMember s tokens cls .method _ hk (by decide) rfl),
      written_insertMember tokens .method (describedMember tags .method name) hk rfl⟩
  | event =>
    exact ⟨.single (.insertMember s tokens cls .event _ hk (by decide) rfl),
      written_insertMember tokens .event (describedMember tags .event name) hk rfl⟩
  | property =>
    exact ⟨.single (.insertMember s tokens cls .property _ hk (by decide) rfl),
      written_insertMember tokens .property (describedMember tags .property name) hk rfl⟩

/-- What the handling of a comment's subject amounts to: a chain of changes, after which what the
comment documents is ready to take its remaining tags. -/
structure Places (s : Session) (o : Outcome Placed) : Prop where
  changes : Changes s o.1
  ready : ∀ p, o.2 = .ok p → o.1.Ready p.target

private theorem Places.of_error {s s' : Session} (h : Changes s s') (e : Fault.Cause) :
    Places s (s', .error e) :=
  ⟨h, fun p hp => by cases hp⟩

/-- Nothing needs to be ready if no member is documented. -/
private theorem Places.of_no_member {s s' : Session} (h : Changes s s') {p : Placed}
    (hp : ∀ cls kind name, p.target ≠ some (.member cls kind name)) : Places s (s', .ok p) := by
  refine ⟨h, fun q hq cls kind name ht => ?_⟩
  cases hq
  exact absurd ht (hp cls kind name)

private theorem Places.of_written {s s' : Session} (h : Changes s s') {tags : TagMap}
    {cls name : String}
    {kind : MemberKind} (hw : s'.Written cls kind name) :
    Places s (s', .ok { tags, target := some (.member cls kind name) }) := by
  refine ⟨h, fun p hp cls' kind' name' ht => ?_⟩
  cases hp
  cases ht
  exact hw

section Members

variable {s : Session} (tokens : List String) (tags : TagMap) (hs : s.ContextKnown)

include hs

/-- **A comment about a member** looks for its class and inserts it, if nothing fails. -/
theorem places_member (subject : Subject) (kind : MemberKind) :
    Places s (s.placeMember tokens tags subject kind) := by
  rw [placeMember, withClass]
  split
  · exact .of_no_member .refl (by simp)
  · rename_i name _
    split
    · rename_i hc
      exact .of_error (changes_currentClass hs hc).1 _
    · rename_i s₁ cls hc
      obtain ⟨h₁, hk₁⟩ := changes_currentClass hs hc
      have hlog : Changes s₁ (s₁.log (signatureNotes (kind.ownTags.foldl Dict.erase tags) kind)) :=
        .single (.log s₁ _)
      have h₂ := h₁.trans hlog
      have hk₂ := hlog.knows (hk₁ cls rfl)
      dsimp only
      split
      · exact .of_error h₂ _
      · obtain ⟨hchanges, hwritten⟩ :=
          changes_insert tokens hk₂ kind (kind.ownTags.foldl Dict.erase tags) name
        exact .of_written (h₂.trans hchanges) hwritten

/-- **The subject of a comment** is handled by changes, also where it fails. -/
theorem places_subject (outer : Option String) :
    Places s (s.placeSubject tokens tags outer) := by
  cases hkind : (Subject.ofTags tags).memberKind? with
  | some kind =>
    rw [placeSubject_eq_placeMember tokens tags hkind]
    exact places_member tokens tags hs _ kind
  | none =>
    rw [placeSubject]
    generalize Subject.ofTags tags = subject at hkind ⊢
    cases subject with
    | file =>
      refine .of_no_member (changes_placeFileMarker s tags) ?_
      intro cls kind name
      split <;> simp
    | cls =>
      refine .of_no_member (changes_placeClassComment s tokens tags outer) ?_
      intro cls kind name
      split <;> simp
    | mod =>
      refine .of_no_member (changes_placeModule s tokens tags true) ?_
      intro cls kind name
      split <;> simp
    | nothing =>
      dsimp only
      split
      · exact .of_no_member .refl (by simp)
      · exact .of_no_member (.single (.warn s tokens _)) (by simp)
    | method | event | property | attr | config => cases hkind

theorem changes_placeConstructor : Changes s (s.placeConstructor tokens tags).1 := by
  rw [placeConstructor]
  split
  · rename_i hc
    exact (changes_currentClass hs hc).1
  · rename_i s₁ cls hc
    obtain ⟨h₁, hk₁⟩ := changes_currentClass hs hc
    split
    · rename_i hp
      exact h₁.trans (changes_readParams hp)
    · rename_i s₂ params hp
      have h₂ := changes_readParams hp
      split
      · exact h₁.trans h₂
      · exact (h₁.trans h₂).tail (.addConstructor s₂ cls _ (h₂.knows (hk₁ cls rfl)))

/-- What follows the subject of a comment, up to its end or its fault. -/
theorem changes_after_subject {s₁ : Session} {p : Placed} {outer : Option String}
    (h : s.placeSubject tokens tags outer = (s₁, .ok p)) :
    Changes s₁ (s.place tokens tags outer).1 := by
  have hp := places_subject tokens tags hs outer
  rw [h] at hp
  have hready : s₁.Ready p.target := hp.ready p rfl
  rw [place, h]
  dsimp only
  -- a constructor is placed in between, and may fail; the member stays a written one
  split
  · have hc := changes_placeConstructor tokens (p.tags.erase "constructor")
      (hp.changes.contextKnown hs)
    split
    · rename_i heq
      rw [heq] at hc
      exact hc
    · rename_i s₂ rest heq
      rw [heq] at hc
      refine .tail hc (.applyLeftovers s₂ _ ?_)
      exact fun cls kind name ht => hc.written (hready cls kind name ht)
  · exact .single (.applyLeftovers s₁ p hready)

/-- Placing a comment is a chain of elementary changes, also if it fails. -/
private theorem changes_place (outer : Option String) :
    Changes s (s.place tokens tags outer).1 := by
  have hp := places_subject tokens tags hs outer
  cases hsub : s.placeSubject tokens tags outer with
  | mk s₁ r =>
    rw [hsub] at hp
    cases r with
    | ok p => exact hp.changes.trans (changes_after_subject tokens tags hs hsub)
    | error e =>
      rw [place, hsub]
      exact hp.changes

end Members

/-! ### Whole runs -/

theorem run_concat (s : Session) (inputs : List Input) (i : Input) :
    s.run (inputs ++ [i]) = (s.run inputs).step i := by
  rw [run, run, List.foldl_append]
  rfl

/-- An input of a run with one more input is one of the run before, or the last. -/
private theorem concat_prefix_concat_iff {earlier inputs : List Input} {i j : Input} :
    earlier ++ [i] <+: inputs ++ [j] ↔ earlier ++ [i] <+: inputs ∨ earlier = inputs ∧ i = j := by
  constructor
  · intro h
    rcases List.prefix_concat_iff.1 h with heq | h
    · obtain ⟨hinputs, hij⟩ := List.append_inj' heq rfl
      exact .inr ⟨hinputs, (List.cons.inj hij).1⟩
    · exact .inl h
  · rintro (h | ⟨rfl, rfl⟩)
    · exact h.trans (List.prefix_append inputs [j])
    · exact List.prefix_refl _

/-- **Where something comes from.** What does not hold at the start and stays once it holds, holds
after a run exactly if some input of the run brought it about. -/
theorem run_iff_exists {P : Session → Prop} {Q : Session → Input → Prop} {s : Session}
    (hstart : ¬P s) (hstep : ∀ inputs i,
      P ((s.run inputs).step i) ↔ P (s.run inputs) ∨ Q (s.run inputs) i) (inputs : List Input) :
    P (s.run inputs) ↔ ∃ earlier i, earlier ++ [i] <+: inputs ∧ Q (s.run earlier) i := by
  induction inputs using List.reverseRecOn with
  | nil =>
    refine ⟨fun h => absurd h hstart, ?_⟩
    rintro ⟨earlier, i, hprefix, -⟩
    simp at hprefix
  | append_singleton inputs i ih =>
    rw [run_concat, hstep, ih]
    constructor
    · rintro (⟨earlier, j, hprefix, hj⟩ | hi)
      · exact ⟨earlier, j, concat_prefix_concat_iff.2 (.inl hprefix), hj⟩
      · exact ⟨inputs, i, concat_prefix_concat_iff.2 (.inr ⟨rfl, rfl⟩), hi⟩
    · rintro ⟨earlier, j, hprefix, hj⟩
      rcases concat_prefix_concat_iff.1 hprefix with hprefix | ⟨rfl, rfl⟩
      · exact .inl ⟨earlier, j, hprefix, hj⟩
      · exact .inr hj

/-- **What every step has to do.** What holds at the start, and is kept by an input exactly if the
input does its part, holds all along a run exactly if every input does. -/
theorem forall_run_iff {P : Session → Prop} {Q : Session → Input → Prop} {s : Session}
    (hstart : P s) (hstep : ∀ inputs i, P (s.run inputs) →
      (P ((s.run inputs).step i) ↔ Q (s.run inputs) i)) (inputs : List Input) :
    (∀ earlier, earlier <+: inputs → P (s.run earlier)) ↔
      ∀ earlier i, earlier ++ [i] <+: inputs → Q (s.run earlier) i := by
  constructor
  · intro h earlier i hprefix
    have hearlier := h earlier ((List.prefix_append earlier [i]).trans hprefix)
    rw [← hstep earlier i hearlier, ← run_concat]
    exact h _ hprefix
  · intro h earlier hprefix
    induction earlier using List.reverseRecOn with
    | nil => exact hstart
    | append_singleton earlier i ih =>
      have hearlier := ih ((List.prefix_append earlier [i]).trans hprefix)
      rw [run_concat, hstep earlier i hearlier]
      exact h earlier i hprefix

/-- The session after a comment is the one that placing it left, with or without a fault. -/
theorem readComment_fst (s : Session) (tokens : List String) (following : Option String) :
    (s.readComment tokens following).1 =
      ((s.prepare tokens following).1.place tokens (s.prepare tokens following).2
        (TagMap.first (s.prepare tokens following).2 "for")).1 := by
  rw [readComment]
  dsimp only
  split
  · rename_i heq
    rw [heq]
  · rename_i heq
    rw [heq]

/-- **Every input is a chain of changes**, whether a comment can be placed or not. -/
theorem changes_step {s : Session} (hs : s.ContextKnown) (i : Input) : Changes s (s.step i) := by
  cases i with
  | root => exact .single (.beginRoot s)
  | comment tokens following =>
    have h := changes_prepare s tokens following
    rw [step, readComment_fst]
    exact h.trans (changes_place tokens _ (h.contextKnown hs) _)

/-- A run is a chain of elementary changes. -/
theorem changes_run {s : Session} (hs : s.ContextKnown) (inputs : List Input) :
    Changes s (s.run inputs) := by
  induction inputs generalizing s with
  | nil => exact .refl
  | cons i rest ih =>
    have h := changes_step hs i
    exact h.trans (ih (h.contextKnown hs))

theorem contextKnown_start (version : String) (v : UInt32) :
    (start version v).ContextKnown :=
  ⟨fun cls h => absurd h (by simp [start]), fun cls h => absurd h (by simp [start])⟩

/-- **Induction over runs.** What holds of a session that has read nothing and is kept by every
elementary change holds after every run. -/
theorem run_induction {P : Session → Prop} {version : String} {v : UInt32}
    (hstart : P (start version v)) (hchange : ∀ s s', Change s s' → P s → P s')
    (inputs : List Input) : P ((start version v).run inputs) := by
  have h := changes_run (contextKnown_start version v) inputs
  generalize (start version v).run inputs = t at h ⊢
  induction h with
  | refl => exact hstart
  | tail _ h ih => exact hchange _ _ h ih

end Session

end ApiDocs
