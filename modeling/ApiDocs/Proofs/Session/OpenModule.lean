import Mathlib.Data.List.Find
import ApiDocs.Proofs.Session.Writes

/-!
# The open module and what waits for one

What is found while no module is open waits for one. A session is `Settled` if nothing waits while
a module is open, and the open module exists.

Any comment may name a module, and from then on that module is the open one. But only a comment
about a module, or about a class with a name, also creates the module and puts what waits into it
(`PlacesModules`). **A settled session is settled after a comment if and only if the comment
`Opens` the module that it names** (`settled_step_iff`), and so a run goes from settled session to
settled session exactly as long as all its comments do (`settled_run_iff`). A comment about a
member that names a module while a class waits is an example of one that does not.
-/

namespace ApiDocs.Session

/-- A module is the open one, it exists, and nothing waits for a module. -/
structure OpenAt (s : Session) (mod : String) : Prop where
  inModule : s.context.inModule = some mod
  drained : s.context.pending = []
  created : s.model.modules.contains mod = true

/-- **Nothing waits while a module is open**, and the open module exists. -/
def Settled (s : Session) : Prop := ∀ mod, s.context.inModule = some mod → s.OpenAt mod

/-! ### Modules stay -/

section Modules

variable {s s' : Session} {mod : String}

/-- Modules never go away. -/
private theorem contains_modifyModule {m : Model} (h : m.modules.contains mod = true)
    (name : String)
    (f : ModuleDoc → ModuleDoc) : (m.modifyModule name f).modules.contains mod = true := by
  obtain ⟨d, hd⟩ := Dict.contains_iff.1 h
  rw [Dict.contains, Model.get?_modifyModule]
  split
  · rfl
  · rw [hd]
    rfl

/-- A module that is changed is there. -/
private theorem contains_modifyModule_self (m : Model) (name : String) (f : ModuleDoc → ModuleDoc) :
    (m.modifyModule name f).modules.contains name = true := by
  rw [Dict.contains, Model.get?_modifyModule, if_pos rfl]
  rfl

/-- Exactly the named modules come up. -/
private theorem contains_addModules (names : List String) {m : Model} :
    (names.foldl Model.addModule m).modules.contains mod = true ↔
      m.modules.contains mod = true ∨ mod ∈ names := by
  induction names generalizing m with
  | nil => simp
  | cons name names ih =>
    rw [List.foldl_cons, ih, Model.addModule, Dict.contains_insertNew, List.mem_cons]
    simp only [Bool.or_eq_true, beq_iff_eq]
    rw [or_comm (a := mod = name), or_assoc]

/-- Links take no module away. -/
private theorem contains_linkAll {m : Model} (h : m.modules.contains mod = true) (into : String)
    (items : List Pending) : (m.linkAll into items).modules.contains mod = true := by
  induction items generalizing m with
  | nil => exact h
  | cons item items ih =>
    refine ih ?_
    cases item with
    | cls name => exact contains_modifyModule h into _
    | file name => exact contains_modifyModule h into _

end Modules

/-! ### Changes that keep the open module -/

/-- The open module stays the open one, nothing is put to wait for it, and no module is lost. -/
structure KeepsOpen (s s' : Session) : Prop where
  inModule : s'.context.inModule = s.context.inModule
  pending : s.context.inModule ≠ none → ∀ x ∈ s'.context.pending, x ∈ s.context.pending
  modules : ∀ mod, s.model.modules.contains mod = true → s'.model.modules.contains mod = true

namespace KeepsOpen

variable {s s' s'' : Session}

theorem refl (s : Session) : s.KeepsOpen s := ⟨rfl, fun _ _ h => h, fun _ h => h⟩

theorem trans (h : s.KeepsOpen s') (h' : s'.KeepsOpen s'') : s.KeepsOpen s'' where
  inModule := h'.inModule.trans h.inModule
  pending hopen x hx := h.pending hopen x (h'.pending (h.inModule ▸ hopen) x hx)
  modules mod hmod := h'.modules mod (h.modules mod hmod)

/-- The context stays as it is where it concerns modules. -/
private theorem of_context (hcontext : s'.context.inModule = s.context.inModule)
    (hpending : s'.context.pending = s.context.pending)
    (hmodules : ∀ mod, s.model.modules.contains mod = true →
      s'.model.modules.contains mod = true) : s.KeepsOpen s' :=
  ⟨hcontext, fun _ _ hx => hpending ▸ hx, hmodules⟩

/-- The open module stays open. -/
private theorem openAt (h : s.KeepsOpen s') {mod : String} (hs : s.OpenAt mod) : s'.OpenAt mod where
  inModule := h.inModule.trans hs.inModule
  drained := by
    have hpending := h.pending (by simp [hs.inModule])
    rw [hs.drained] at hpending
    exact List.eq_nil_iff_forall_not_mem.2 fun x hx => List.not_mem_nil (hpending x hx)
  created := h.modules mod hs.created

private theorem settled (h : s.KeepsOpen s') (hs : s.Settled) : s'.Settled := by
  intro mod hmod
  rw [h.inModule] at hmod
  exact h.openAt (hs mod hmod)

end KeepsOpen

/-- Changes of classes do not concern modules. -/
private theorem OnlyClasses.keepsOpen {s s' : Session} (h : s.OnlyClasses s') : s.KeepsOpen s' :=
  .of_context h.inModule h.pending fun mod hmod => by rwa [h.modules]

variable (s : Session) (tokens : List String) (tags : TagMap)

/-- Describing a module touches the open submodule and the warnings of the context only. -/
theorem exists_context_describePart (mod : String) (alone : Bool) :
    ∃ sub warnings, (s.describePart tokens mod tags alone).1.context =
      { s.context with openSubmodule := sub, warnings := warnings } := by
  rw [describePart]
  split
  · exact ⟨_, _, rfl⟩
  · unfold describeModule
    dsimp only
    split <;> split <;> exact ⟨_, _, rfl⟩

/-- Every single write of a comment keeps the open module. -/
private theorem Write.keepsOpen {named : List String} {part : Option Part} {s s' : Session}
    (h : Write named part s s') : s.KeepsOpen s' := by
  cases h with
  | seek | redefine | remember | modifyClass | relateClass | insertMember | tagClass | tagMember
  | modifyFile | addFile | enterFile => exact .of_context rfl rfl fun _ h => h
  | modifyModule | describePart | tagModule =>
    exact .of_context rfl rfl fun _ h => contains_modifyModule h _ _
  | defer _ _ closed => exact ⟨rfl, fun hopen => absurd closed hopen, fun _ h => h⟩
  | drain => exact ⟨rfl, fun _ _ hx => absurd hx List.not_mem_nil, fun _ h => h⟩

/-- All that a comment writes keeps the open module. -/
theorem Writes.keepsOpen {named : List String} {parts : List Part} {s s' : Session}
    (h : Writes named parts s s') : s.KeepsOpen s' :=
  h.rel .refl (fun _ _ _ => .trans) fun _ _ _ _ h => h.keepsOpen

/-- Describing a module or a part of it keeps the open module. -/
theorem keepsOpen_describePart (mod : String) (alone : Bool) :
    s.KeepsOpen (s.describePart tokens mod tags alone).1 :=
  (s.writes_describePart tokens tags (.inr (List.mem_singleton_self mod)) alone).keepsOpen

private theorem keepsOpen_after_subject (outer : Option String) :
    (s.placeSubject tokens tags outer).1.KeepsOpen (s.place tokens tags outer).1 :=
  (s.writes_after_subject tokens tags outer).keepsOpen

/-- **Placing a comment keeps the open module.** -/
theorem keepsOpen_place (outer : Option String) : s.KeepsOpen (s.place tokens tags outer).1 :=
  (s.onlyClasses_defineDeclared tokens tags).keepsOpen.trans
    (s.writes_place tokens tags outer).keepsOpen

/-! ### Comments that name a module -/

/-- The module tags of a comment are placed: it is about a module, or about a class with a name. -/
def PlacesModules (tags : TagMap) : Prop :=
  Subject.ofTags tags = .mod ∨ Subject.ofTags tags = .cls ∧ (tags.name? "class").isSome

/-- A comment is a file marker with a name. -/
def MarksFile (tags : TagMap) : Prop :=
  Subject.ofTags tags = .file ∧ (tags.name? "filemarker").isSome

/-- **A comment opens the module that it names** if it places its module tags. Otherwise nothing
may wait, and the module must be there already or be created for the file of a file marker. -/
def Opens (s : Session) (tags : TagMap) (mod : String) : Prop :=
  PlacesModules tags ∨
    s.context.pending = [] ∧ (s.model.modules.contains mod = true ∨ MarksFile tags)

section Naming

variable {s tags} {mod : String}

/-- A module that is named exists after its tags were placed, and nothing waits. -/
private theorem openAt_placeModule (hmod : s.context.inModule = some mod)
    (hlast : tags.moduleNames.getLast? = some mod) (alone : Bool) :
    (s.placeModule tokens tags alone).1.OpenAt mod := by
  obtain ⟨s₁, hs₁⟩ : ∃ s₁, s₁ = s.addModules tags.moduleNames := ⟨_, rfl⟩
  have hmod₁ : s₁.context.inModule = some mod := by
    rw [hs₁]
    exact hmod
  have hcreated : s₁.model.modules.contains mod = true := by
    rw [hs₁]
    exact (contains_addModules _).2 (.inr (List.mem_of_getLast? hlast))
  have hdescribed := s₁.keepsOpen_describePart tokens (tags.erase "module") mod alone
  have hplace : (s.placeModule tokens tags alone).1 =
      (s₁.describePart tokens mod (tags.erase "module") alone).1.drainInto mod := by
    rw [placeModule, ← TagMap.moduleNames]
    dsimp only
    rw [hlast, ← hs₁]
    dsimp only
    rw [hdescribed.inModule, hmod₁, Option.getD_some]
  rw [hplace]
  exact ⟨hdescribed.inModule.trans hmod₁, rfl,
    contains_linkAll (hdescribed.modules mod hcreated) mod _⟩

/-- A class that names a module opens it, since its module tags are placed first. -/
private theorem openAt_placeClassComment (hmod : s.context.inModule = some mod)
    (hlast : tags.moduleNames.getLast? = some mod) (hname : (tags.name? "class").isSome)
    (inner : Option String) : (s.placeClassComment tokens tags inner).1.OpenAt mod := by
  obtain ⟨name, hname⟩ := Option.isSome_iff_exists.1 hname
  have hdefine := s.onlyClasses_defineClass tokens name
  have hrest : (TagMap.moduleNames (tags.erase "class")).getLast? = some mod := by
    rw [TagMap.moduleNames_erase_of_ne tags (by decide)]
    exact hlast
  have hcontains : Dict.contains (tags.erase "class") "module" = true :=
    TagMap.contains_of_mem_moduleNames (List.mem_of_getLast? hrest)
  have hown : ((s.defineClass tokens name).placeOwnModule tokens (tags.erase "class")).1.OpenAt
      mod := by
    rw [placeOwnModule, if_pos hcontains]
    exact openAt_placeModule tokens (hdefine.inModule.trans hmod) hrest false
  rw [placeClassComment, hname]
  exact (writes_after_modules [] _ _ _ _ _).keepsOpen.openAt hown

/-- What follows the subject of a comment leaves the module open. -/
theorem openAt_place (hmod : s.context.inModule = some mod)
    (hlast : tags.moduleNames.getLast? = some mod) (h : PlacesModules tags)
    (outer : Option String) : (s.place tokens tags outer).1.OpenAt mod := by
  refine (s.keepsOpen_after_subject tokens tags outer).openAt ?_
  rcases h with hsubject | ⟨hsubject, hname⟩
  · rw [placeSubject, hsubject]
    exact openAt_placeModule tokens hmod hlast true
  · rw [placeSubject, hsubject]
    exact openAt_placeClassComment tokens hmod hlast hname outer

/-- A file marker creates the open module for its file, if need be, but nothing that waits goes
into it. -/
private theorem place_marker (hmod : s.context.inModule = some mod) (h : MarksFile tags)
    (outer : Option String) :
    (s.place tokens tags outer).1.context.pending = s.context.pending ∧
      (s.place tokens tags outer).1.model.modules.contains mod = true := by
  obtain ⟨name, hname⟩ := Option.isSome_iff_exists.1 h.2
  have hsubject : (s.placeSubject tokens tags outer).1 =
      { s.enterFile name with model := (s.enterFile name).model.linkFile name mod } := by
    have henter : (s.enterFile name).context.inModule = some mod := hmod
    rw [placeSubject, h.1]
    dsimp only
    rw [placeFileMarker, hname]
    dsimp only
    rw [placeFile, henter]
  have hafter := s.after_subject tokens tags outer
    (R := fun s s' => s'.context.pending = s.context.pending)
    (fun _ => rfl) (fun _ _ _ h h' => h'.trans h)
    (fun s tags => (s.onlyClasses_placeConstructor tokens tags).pending)
    (fun s' p _ => by rw [applyLeftovers]; split <;> rfl)
  have hkeeps := s.keepsOpen_after_subject tokens tags outer
  rw [hsubject] at hafter hkeeps
  exact ⟨hafter, hkeeps.modules mod (contains_modifyModule_self _ mod _)⟩

/-- The subject of any other comment does not touch the modules and what waits. -/
private theorem placeSubject_other (h : ¬PlacesModules tags) (hfile : ¬MarksFile tags)
    (outer : Option String) :
    s.OnlyClasses (s.placeSubject tokens tags outer).1 ∧
      ∀ mod, (s.placeSubject tokens tags outer).2.toOption.bind Placed.target ≠
        some (.mod mod) := by
  have hmember (h : (Subject.ofTags tags).isMember = true) :=
    s.placeSubject_member tokens tags outer h
  cases hsubject : Subject.ofTags tags with
  | method | event | property | attr | config =>
    have hplaces := hmember (by rw [hsubject]; rfl)
    exact ⟨hplaces.onlyClasses, hplaces.target_ne_mod tokens⟩
  | mod => exact absurd (.inl hsubject) h
  | file =>
    have hname : tags.name? "filemarker" = none :=
      Option.not_isSome_iff_eq_none.1 fun hname => hfile ⟨hsubject, hname⟩
    rw [placeSubject, hsubject]
    dsimp only
    rw [placeFileMarker, hname]
    exact ⟨.refl s, fun mod => by simp [Except.toOption]⟩
  | cls =>
    have hname : tags.name? "class" = none :=
      Option.not_isSome_iff_eq_none.1 fun hname => h (.inr ⟨hsubject, hname⟩)
    rw [placeSubject, hsubject]
    dsimp only
    rw [placeClassComment, hname]
    exact ⟨.refl s, fun mod => by simp [Except.toOption]⟩
  | nothing =>
    rw [placeSubject, hsubject]
    dsimp only
    split
    · exact ⟨.refl s, fun mod => by simp [Except.toOption]⟩
    · exact ⟨(s.seeks_warn tokens rfl).onlyClasses, fun mod => by simp [Except.toOption]⟩

/-- **Any other comment leaves the modules and what waits as they are.** -/
theorem onlyClasses_place (h : ¬PlacesModules tags) (hfile : ¬MarksFile tags)
    (outer : Option String) : s.OnlyClasses (s.place tokens tags outer).1 := by
  obtain ⟨hsubject, htarget⟩ := placeSubject_other (s := s) tokens h hfile outer
  refine hsubject.trans (s.after_subject tokens tags outer .refl (fun _ _ _ => .trans)
    (fun s tags => s.onlyClasses_placeConstructor tokens tags) fun s' p hp => ?_)
  rw [applyLeftovers]
  split
  · exact onlyClasses_modifyClass _ _ _
  · exact onlyClasses_modifyClass _ _ _
  · rename_i name hname
    exact absurd (hp.trans hname) (htarget name)
  · exact .refl s'
  · exact .refl s'

/-- A comment that names a module opens it exactly if `Opens` says so. -/
private theorem openAt_place_iff (hmod : s.context.inModule = some mod)
    (hlast : tags.moduleNames.getLast? = some mod) (outer : Option String) :
    (s.place tokens tags outer).1.OpenAt mod ↔ s.Opens tags mod := by
  by_cases hplaces : PlacesModules tags
  · exact ⟨fun _ => .inl hplaces, fun _ => openAt_place tokens hmod hlast hplaces outer⟩
  have hkeeps := s.keepsOpen_place tokens tags outer
  rw [Opens, or_iff_right hplaces]
  by_cases hfile : MarksFile tags
  · obtain ⟨hpending, hcreated⟩ := place_marker tokens hmod hfile outer
    constructor
    · intro h
      exact ⟨hpending.symm.trans h.drained, .inr hfile⟩
    · rintro ⟨hdrained, _⟩
      exact ⟨hkeeps.inModule.trans hmod, hpending.trans hdrained, hcreated⟩
  · have honly := onlyClasses_place (s := s) tokens hplaces hfile outer
    constructor
    · intro h
      exact ⟨honly.pending.symm.trans h.drained, .inl (honly.modules ▸ h.created)⟩
    · rintro ⟨hdrained, hcreated⟩
      exact hkeeps.openAt ⟨hmod, hdrained, hcreated.resolve_right hfile⟩

end Naming

/-! ### Before a comment is placed -/

section Prepare

/-- A tag that no subject has does not matter to what a comment is about. -/
private theorem ofTags_erase {tag : String} (h : tag ∉ Subject.precedence.map (·.1)) :
    Subject.ofTags (tags.erase tag) = Subject.ofTags tags := by
  have hfind : Subject.precedence.find? (fun e => Dict.contains (tags.erase tag) e.1) =
      Subject.precedence.find? fun e => tags.contains e.1 := by
    refine List.find?_congr fun e he => Dict.contains_erase_of_ne tags ?_
    rintro rfl
    exact h (List.mem_map_of_mem he)
  rw [Subject.ofTags, hfind]
  rfl

/-- A tag that is taken out changes the names of no other. -/
private theorem name?_erase_of_ne {tag k : String} (h : k ≠ tag) :
    TagMap.name? (tags.erase tag) k = tags.name? k := by
  rw [TagMap.name?, TagMap.first_erase, if_neg h]
  rfl

/-- Whether a comment opens a module depends on the tags that name a subject. -/
private theorem opens_erase {tag mod : String} (h : tag ∉ Subject.precedence.map (·.1)) :
    s.Opens (tags.erase tag) mod ↔ s.Opens tags mod := by
  have hclass : "class" ≠ tag := by
    rintro rfl
    exact h (by decide)
  have hmarker : "filemarker" ≠ tag := by
    rintro rfl
    exact h (by decide)
  rw [Opens, Opens, PlacesModules, PlacesModules, MarksFile, MarksFile, ofTags_erase tags h,
    name?_erase_of_ne tags hclass, name?_erase_of_ne tags hmarker]

variable (following : Option String)

/-- What is done before a comment is placed: the module it names becomes the open one, but it is
not created, and what waits still waits. -/
theorem prepare_fst :
    (s.prepare tokens following).1.context.inModule =
        ((collect tokens).inModule <|> s.context.inModule) ∧
      (s.prepare tokens following).1.context.pending = s.context.pending ∧
      (s.prepare tokens following).1.model.modules = s.model.modules := by
  obtain ⟨s₁, hs₁⟩ : ∃ s₁, s₁ = s.warnAll tokens (collect tokens).warnings := ⟨_, rfl⟩
  obtain ⟨s₂, hs₂⟩ : ∃ s₂, s₂ = s₁.enterModule (collect tokens).inModule := ⟨_, rfl⟩
  obtain ⟨s₃, hs₃⟩ : ∃ s₃, s₃ = s₂.applyNamespace (collect tokens).tags := ⟨_, rfl⟩
  have h₁ : s.OnlyClasses s₁ := hs₁ ▸ (s.seeks_warnAll tokens fun _ => warnings_collect).onlyClasses
  have h₂ : s₂.context.inModule = ((collect tokens).inModule <|> s₁.context.inModule) ∧
      s₂.context.pending = s₁.context.pending ∧ s₂.model.modules = s₁.model.modules := by
    rw [hs₂]
    cases (collect tokens).inModule <;> exact ⟨rfl, rfl, rfl⟩
  have h₃ : s₃.context.inModule = s₂.context.inModule ∧
      s₃.context.pending = s₂.context.pending ∧ s₃.model.modules = s₂.model.modules := by
    rw [hs₃, applyNamespace]
    split <;> exact ⟨rfl, rfl, rfl⟩
  have h₄ : s₃.OnlyClasses (s.prepare tokens following).1 := by
    rw [prepare, ← hs₁, ← hs₂, ← hs₃]
    split
    · split
      · exact (s₃.seeks_guessSubject _ following).onlyClasses
      · exact (s₃.onlyClasses_enterFor tokens _).trans (seeks_guessSubject _ _ _).onlyClasses
    · exact (s₃.seeks_guessSubject _ following).onlyClasses
  refine ⟨?_, ?_, ?_⟩
  · rw [h₄.inModule, h₃.1, h₂.1, h₁.inModule]
  · rw [h₄.pending, h₃.2.1, h₂.2.1, h₁.pending]
  · rw [h₄.modules, h₃.2.2, h₂.2.2, h₁.modules]

/-- A comment that names a module is placed with its own tags, but for those that are used up
before. -/
private theorem prepare_snd (h : (collect tokens).tags.contains "module" = true) :
    (s.prepare tokens following).2 = (collect tokens).tags.erase "namespace" ∨
      (s.prepare tokens following).2 = ((collect tokens).tags.erase "namespace").erase "for" := by
  have hguess (s : Session) {tags : TagMap} (h : tags.contains "module" = true) :
      (s.guessSubject tags following).2 = tags := by
    rw [guessSubject, if_pos]
    exact List.any_eq_true.2 ⟨"module", by decide, h⟩
  have herase : Dict.contains ((collect tokens).tags.erase "namespace") "module" = true :=
    (Dict.contains_erase_of_ne _ (by decide)).trans h
  rw [prepare]
  split
  · split
    · exact .inl (hguess _ herase)
    · exact .inr (hguess _ ((Dict.contains_erase_of_ne _ (by decide)).trans herase))
  · exact .inl (hguess _ herase)

end Prepare

/-! ### Whole runs -/

private theorem settled_iff_openAt {s : Session} {mod : String}
    (h : s.context.inModule = some mod) :
    s.Settled ↔ s.OpenAt mod := by
  refine ⟨fun hs => hs mod h, fun hs mod' hmod' => ?_⟩
  rw [h] at hmod'
  cases hmod'
  exact hs

/-- After a comment that names a module, the module is open if and only if the comment opens it. -/
theorem openAt_step_iff {mod : String} (h : (collect tokens).inModule = some mod)
    (following : Option String) :
    (s.step (.comment tokens following)).OpenAt mod ↔ s.Opens (collect tokens).tags mod := by
  obtain ⟨hmod, hpending, hmodules⟩ := s.prepare_fst tokens following
  have hlast : (collect tokens).tags.moduleNames.getLast? = some mod :=
    (inModule_collect tokens).symm.trans h
  have hcontains : (collect tokens).tags.contains "module" = true :=
    TagMap.contains_of_mem_moduleNames (List.mem_of_getLast? hlast)
  have hopens (tags : TagMap) :
      (s.prepare tokens following).1.Opens tags mod ↔ s.Opens tags mod := by
    rw [Opens, Opens, hpending, hmodules]
  have htags : TagMap.moduleNames (s.prepare tokens following).2 =
        (collect tokens).tags.moduleNames ∧
      (s.Opens (s.prepare tokens following).2 mod ↔ s.Opens (collect tokens).tags mod) := by
    rcases s.prepare_snd tokens following hcontains with htags | htags
    · rw [htags, TagMap.moduleNames_erase_of_ne _ (by decide), opens_erase s _ (by decide)]
      exact ⟨rfl, Iff.rfl⟩
    · rw [htags, TagMap.moduleNames_erase_of_ne _ (by decide),
        TagMap.moduleNames_erase_of_ne _ (by decide), opens_erase s _ (by decide),
        opens_erase s _ (by decide)]
      exact ⟨rfl, Iff.rfl⟩
  have hopen : (s.prepare tokens following).1.context.inModule = some mod := by
    rw [hmod, h]
    rfl
  rw [step, readComment_fst, openAt_place_iff tokens hopen (htags.1 ▸ hlast), hopens, htags.2]

/-- What an input has to do for a settled session: a comment opens the module that it names. -/
def OpensNamed (s : Session) : Input → Prop
  | .comment tokens _ =>
    ∀ mod, (collect tokens).inModule = some mod → s.Opens (collect tokens).tags mod
  | .root => True

/-- **A settled session stays settled exactly if an input opens the module that it names.** -/
theorem settled_step_iff {s : Session} (hs : s.Settled) (i : Input) :
    (s.step i).Settled ↔ s.OpensNamed i := by
  cases i with
  | root =>
    refine ⟨fun _ => trivial, fun _ mod hmod => ?_⟩
    cases hmod
  | comment tokens following =>
    obtain ⟨hmod, hpending, hmodules⟩ := s.prepare_fst tokens following
    have hkeeps := (s.prepare tokens following).1.keepsOpen_place tokens
      (s.prepare tokens following).2 (TagMap.first (s.prepare tokens following).2 "for")
    rw [← readComment_fst] at hkeeps
    cases hnamed : (collect tokens).inModule with
    | none =>
      have hsame : (s.prepare tokens following).1.context.inModule = s.context.inModule := by
        rw [hmod, hnamed]
        rfl
      have hprepare : s.KeepsOpen (s.prepare tokens following).1 :=
        .of_context hsame hpending fun _ h => by rwa [hmodules]
      refine ⟨fun _ mod h => ?_, fun _ => (hprepare.trans hkeeps).settled hs⟩
      rw [hnamed] at h
      cases h
    | some mod =>
      have hopen : (s.step (.comment tokens following)).context.inModule = some mod := by
        refine hkeeps.inModule.trans ?_
        rw [hmod, hnamed]
        rfl
      rw [settled_iff_openAt hopen, s.openAt_step_iff tokens hnamed]
      constructor
      · intro h mod' hmod'
        rw [hnamed] at hmod'
        cases hmod'
        exact h
      · intro h
        exact h mod hnamed

/-- **The sessions of a run are settled exactly if each of its comments opens the module that it
names**: nothing waits while a module is open, and the open module exists. -/
theorem settled_run_iff (version : String) (v : UInt32) (inputs : List Input) :
    (∀ earlier, earlier <+: inputs → ((start version v).run earlier).Settled) ↔
      ∀ earlier i, earlier ++ [i] <+: inputs → ((start version v).run earlier).OpensNamed i :=
  forall_run_iff (P := Settled) (fun _ h => by cases h) (fun _ i h => settled_step_iff h i) inputs

/-- A method that names a module opens none, and so a class goes on waiting. -/
example :
    let s := (start "1.0.0" 3).run
      [.comment ["@class A"] none, .comment ["@method x", "@module m"] none]
    s.context.inModule = some "m" ∧ s.context.pending = [.cls "A"] ∧
      s.model.modules.contains "m" = false := by
  decide +kernel

end ApiDocs.Session
