import ApiDocs.Proofs.Session.Draining

/-!
# Submodules and the classes that claim them

A module lists its submodules and keeps data for each of them. A comment about a module adds to
both at once, and leaves the submodule open for the next class. That class writes its name into the
data of the module that is open when it is declared, whichever this is. **The lists and the data of
all modules agree all along a run exactly if every class claims a submodule that is listed by the
open module** (`partsAgree_run_iff`).

A class whose comment has module tags never does any harm: its tags close the open submodule, and
one that they open instead belongs to the open module (`claimable_placeModule`). So what matters
is the class comment without a module tag, after the open module was changed by a comment that does
not place its module tags.
-/

namespace ApiDocs

/-- **The submodules of a module are those that it has data for.** -/
def ModuleDoc.PartsAgree (d : ModuleDoc) : Prop :=
  ∀ sub, sub ∈ d.submodules ↔ d.subData.contains sub = true

namespace Model

/-- The submodules of every module are those that it has data for. -/
def PartsAgree (m : Model) : Prop := ∀ mod d, m.modules.get? mod = some d → d.PartsAgree

/-- A module as it is, or as it would be created. -/
def moduleAt (m : Model) (mod : String) : ModuleDoc := (m.modules.get? mod).getD { name := mod }

variable {m m' m'' : Model}

/-- Modules agree with their parts one by one; one that is missing has none. -/
private theorem partsAgree_iff_moduleAt : m.PartsAgree ↔ ∀ mod, (m.moduleAt mod).PartsAgree := by
  constructor
  · intro h mod
    rw [moduleAt]
    cases hd : m.modules.get? mod with
    | none =>
      intro sub
      simp [Dict.contains]
    | some d => exact h mod d hd
  · intro h mod d hd
    have hmod := h mod
    rwa [moduleAt, hd] at hmod

/-- A module that is missing is changed as an empty one. -/
private theorem moduleAt_modifyModule (m : Model) (name mod : String) (f : ModuleDoc → ModuleDoc) :
    (m.modifyModule name f).moduleAt mod =
      if mod = name then f (m.moduleAt name) else m.moduleAt mod := by
  rw [moduleAt, get?_modifyModule]
  split <;> rfl

/-! ### Changes that keep the submodules -/

/-- The modules have the same submodules, and keep the same data for them. -/
structure SameParts (m m' : Model) : Prop where
  submodules : ∀ mod, (m'.moduleAt mod).submodules = (m.moduleAt mod).submodules
  subData : ∀ mod, (m'.moduleAt mod).subData = (m.moduleAt mod).subData

namespace SameParts

/-- Only modules have parts. -/
private theorem of_modules (h : m'.modules = m.modules) : m.SameParts m' := by
  have hsame (mod : String) : m'.moduleAt mod = m.moduleAt mod := by rw [moduleAt, h]; rfl
  exact ⟨fun mod => by rw [hsame], fun mod => by rw [hsame]⟩

theorem refl (m : Model) : m.SameParts m := .of_modules rfl

theorem trans (h : m.SameParts m') (h' : m'.SameParts m'') : m.SameParts m'' where
  submodules mod := (h'.submodules mod).trans (h.submodules mod)
  subData mod := (h'.subData mod).trans (h.subData mod)

/-- A module keeps its parts when other fields of it are changed. -/
private theorem modifyModule (m : Model) (name : String) {f : ModuleDoc → ModuleDoc}
    (hf : ∀ d, (f d).submodules = d.submodules ∧ (f d).subData = d.subData) :
    m.SameParts (m.modifyModule name f) := by
  refine ⟨fun mod => ?_, fun mod => ?_⟩
  · rw [moduleAt_modifyModule]
    split
    · rename_i hmod
      rw [(hf _).1, hmod]
    · rfl
  · rw [moduleAt_modifyModule]
    split
    · rename_i hmod
      rw [(hf _).2, hmod]
    · rfl

/-- Agreement is a matter of the parts alone. -/
private theorem partsAgree_iff (h : m.SameParts m') : m'.PartsAgree ↔ m.PartsAgree := by
  rw [partsAgree_iff_moduleAt, partsAgree_iff_moduleAt]
  refine forall_congr' fun mod => ?_
  rw [ModuleDoc.PartsAgree, ModuleDoc.PartsAgree, h.submodules mod, h.subData mod]

end SameParts

/-- A submodule may be declared together with its data. -/
private theorem PartsAgree.declare (h : m.PartsAgree) (mod sub : String) (data : Submodule) :
    (m.modifyModule mod fun d =>
      { d with
        submodules := pushNew d.submodules sub
        subData := d.subData.insert sub data }).PartsAgree := by
  rw [partsAgree_iff_moduleAt] at h ⊢
  intro other part
  rw [moduleAt_modifyModule]
  split
  · simp [mem_pushNew, h mod part, or_comm]
  · exact h other part

/-- **Data alone may be written exactly for the submodules that are listed.** -/
theorem PartsAgree.describe_iff (h : m.PartsAgree) (mod sub : String)
    (data : ModuleDoc → Submodule) :
    (m.modifyModule mod fun d => { d with subData := d.subData.insert sub (data d) }).PartsAgree ↔
      sub ∈ (m.moduleAt mod).submodules := by
  rw [partsAgree_iff_moduleAt] at h ⊢
  constructor
  · intro hafter
    have hsub := hafter mod sub
    rw [moduleAt_modifyModule, if_pos rfl] at hsub
    exact hsub.2 (by simp)
  · intro hsub other part
    rw [moduleAt_modifyModule]
    split
    · rw [h mod part, Dict.contains_insert, Bool.or_eq_true, beq_iff_eq, or_iff_right_of_imp]
      rintro rfl
      exact (h mod part).1 hsub
    · exact h other part

end Model

namespace Session

/-- A write to anything but submodules keeps them. -/
private theorem Write.sameParts {named : List String} {part : Option Part} {s s' : Session}
    (h : Write named part s s') (hpart : part ≠ some .submodules) : s.model.SameParts s'.model := by
  cases h with
  | seek | redefine | remember | defer | drain | modifyClass | relateClass | insertMember | tagClass
  | tagMember | modifyFile | addFile | enterFile => exact .of_modules rfl
  | modifyModule _ mod => exact .modifyModule s.model mod fun d => ⟨rfl, rfl⟩
  | tagModule _ mod tags =>
    refine .modifyModule s.model mod fun d => ?_
    obtain ⟨title, description, attributes, heq⟩ := d.exists_applyTags_eq tags
    rw [heq]
    exact ⟨rfl, rfl⟩
  | describePart => exact absurd rfl hpart

/-- Writes keep the parts unless one is to the submodules. -/
private theorem Writes.sameParts {named : List String} {parts : List Part} {s s' : Session}
    (h : Writes named parts s s') (hparts : .submodules ∉ parts) :
    s.model.SameParts s'.model :=
  h.rel (R := fun s s' => s.model.SameParts s'.model) (fun s => .refl s.model)
    (fun _ _ _ => .trans) fun _ _ _ hpart h => h.sameParts fun hsub => hparts (hpart _ hsub)

/-- Changes of classes keep the parts of modules. -/
private theorem OnlyClasses.sameParts {s s' : Session} (h : s.OnlyClasses s') :
    s.model.SameParts s'.model := .of_modules h.modules

variable {s : Session} (tokens : List String) (tags : TagMap)

/-! ### Claiming -/

/-- The open submodule, if there is one while a module is open, is listed by that module. -/
def Claimable (s : Session) : Prop :=
  ∀ sub mod, s.context.openSubmodule = some sub → s.context.inModule = some mod →
    sub ∈ (s.model.moduleAt mod).submodules

/-- **A class may claim the open submodule exactly if the open module lists it.** -/
theorem partsAgree_claimSubmodule_iff (hs : s.model.PartsAgree) (cls : String)
    (description : Option String) :
    (s.claimSubmodule cls description).model.PartsAgree ↔ s.Claimable := by
  rw [claimSubmodule]
  split
  · rename_i sub mod hsub hmod
    refine (hs.describe_iff mod sub _).trans ⟨fun h sub' mod' hsub' hmod' => ?_, fun h => ?_⟩
    · cases hsub.symm.trans hsub'
      cases hmod.symm.trans hmod'
      exact h
    · exact h sub mod hsub hmod
  · rename_i hnone
    exact ⟨fun _ sub mod hsub hmod => absurd hmod (hnone sub mod hsub), fun _ => hs⟩

/-- Describing a module opens no submodule. -/
private theorem openSubmodule_describeModule (s : Session) (mod : String)
    (description : Option String) :
    (s.describeModule tokens mod description).context.openSubmodule = s.context.openSubmodule := by
  unfold describeModule
  dsimp only
  split <;> split <;> rfl

/-- While no submodule is open, describing a module or a part of it opens none but a part that the
module lists. -/
private theorem partsAgree_describePart (hs : s.model.PartsAgree)
    (hclosed : s.context.openSubmodule = none) (mod : String) (alone : Bool) :
    (s.describePart tokens mod tags alone).1.model.PartsAgree ∧
      ∀ sub, (s.describePart tokens mod tags alone).1.context.openSubmodule = some sub →
        sub ∈ ((s.describePart tokens mod tags alone).1.model.moduleAt mod).submodules := by
  rw [describePart]
  split
  · rename_i sub _
    refine ⟨hs.declare mod sub _, fun sub' hsub' => ?_⟩
    cases hsub'
    show sub ∈ ((s.model.modifyModule mod _).moduleAt mod).submodules
    rw [Model.moduleAt_modifyModule, if_pos rfl]
    exact mem_pushNew.2 (.inr rfl)
  · have hsame := (s.writes_describeModule tokens (.inr (List.mem_singleton_self mod))
      (if alone then TagMap.first tags "description" else none)).sameParts List.not_mem_nil
    refine ⟨hsame.partsAgree_iff.2 hs, fun sub' hsub' => ?_⟩
    rw [openSubmodule_describeModule, hclosed] at hsub'
    cases hsub'

/-- **Module tags leave no submodule open but one of the module that they open.** -/
theorem claimable_placeModule (hs : s.model.PartsAgree)
    (hopen : ∀ mod, tags.moduleNames.getLast? = some mod → s.context.inModule = some mod)
    (alone : Bool) :
    (s.placeModule tokens tags alone).1.model.PartsAgree ∧
      (s.placeModule tokens tags alone).1.Claimable := by
  have hadd : (s.addModules tags.moduleNames).model.PartsAgree :=
    ((s.writes_addModules fun _ h => h).sameParts List.not_mem_nil).partsAgree_iff.2 hs
  have hclosed : (s.addModules tags.moduleNames).context.openSubmodule = none := rfl
  have hmodule : (s.addModules tags.moduleNames).context.inModule = s.context.inModule := rfl
  rw [placeModule, ← TagMap.moduleNames]
  dsimp only
  generalize s.addModules tags.moduleNames = added at hadd hclosed hmodule ⊢
  split
  · refine ⟨hadd, fun sub mod hsub _ => ?_⟩
    rw [hclosed] at hsub
    cases hsub
  · rename_i mod hlast
    rw [hopen mod hlast] at hmodule
    have hdescribed := partsAgree_describePart tokens (tags.erase "module") hadd hclosed mod alone
    have hkeeps := added.keepsOpen_describePart tokens (tags.erase "module") mod alone
    have hinModule := hkeeps.inModule.trans hmodule
    generalize (added.describePart tokens mod (tags.erase "module") alone).1 = described
      at hdescribed hinModule ⊢
    have hdrain : described.model.SameParts
        (described.drainInto (described.context.inModule.getD mod)).model :=
      (described.writes_drainInto (.inr (List.mem_singleton_self _))).sameParts List.not_mem_nil
    refine ⟨hdrain.partsAgree_iff.2 hdescribed.1, fun sub mod' hsub hmod' => ?_⟩
    cases hinModule.symm.trans hmod'
    rw [hdrain.submodules]
    exact hdescribed.2 sub hsub

/-! ### Placing a comment -/

private theorem openSubmodule_defineClass (s : Session) (name : String) :
    (s.defineClass tokens name).context.openSubmodule = s.context.openSubmodule := by
  obtain ⟨_, _, _, _, h⟩ := s.onlyClasses_defineClass tokens name
  rw [h]

section Place

variable (hs : s.model.PartsAgree)
  (hopen : ∀ mod, tags.moduleNames.getLast? = some mod → s.context.inModule = some mod)

include hs hopen

/-- A class with a module tag claims from that module, and another one from the module that is
open. -/
private theorem partsAgree_placeClassComment_iff {name : String}
    (hname : tags.name? "class" = some name)
    (inner : Option String) :
    (s.placeClassComment tokens tags inner).1.model.PartsAgree ↔
      (tags.contains "module" = false → s.Claimable) := by
  have hdefine := s.onlyClasses_defineClass tokens name
  have hagree : (s.defineClass tokens name).model.PartsAgree :=
    hdefine.sameParts.partsAgree_iff.2 hs
  have hsame : (s.defineClass tokens name).Claimable ↔ s.Claimable := by
    rw [Claimable, Claimable, s.openSubmodule_defineClass, hdefine.inModule]
    simp only [hdefine.sameParts.submodules]
  have hmodule : Dict.contains (tags.erase "class") "module" = tags.contains "module" :=
    Dict.contains_erase_of_ne _ (by decide)
  have hown :
      ((s.defineClass tokens name).placeOwnModule tokens (tags.erase "class")).1.model.PartsAgree ∧
        (((s.defineClass tokens name).placeOwnModule tokens (tags.erase "class")).1.Claimable ↔
          (tags.contains "module" = false → s.Claimable)) := by
    rw [placeOwnModule, hmodule]
    split
    · rename_i hcontains
      have hplaced := claimable_placeModule tokens (tags.erase "class") hagree
        (by
          rw [TagMap.moduleNames_erase_of_ne tags (by decide), hdefine.inModule]
          exact hopen) false
      refine ⟨hplaced.1, fun _ hnone => ?_, fun _ => hplaced.2⟩
      rw [hcontains] at hnone
      cases hnone
    · rename_i hcontains
      exact ⟨hagree, hsame.trans ⟨fun h _ => h, fun h => h (by simpa using hcontains)⟩⟩
  rw [placeClassComment, hname]
  dsimp only
  rw [((writes_after_claim [] _ _ _ _).sameParts (by decide)).partsAgree_iff,
    partsAgree_claimSubmodule_iff hown.1, hown.2]

/-- **Placing a comment keeps the lists and the data of the modules in agreement exactly if** a
class that it declares without a module tag may claim the open submodule. -/
theorem partsAgree_place_iff (outer : Option String) :
    (s.place tokens tags outer).1.model.PartsAgree ↔
      ((s.declaredClass tags).isSome = true → tags.contains "module" = false → s.Claimable) := by
  rw [((s.writes_after_subject tokens tags outer).sameParts (by decide)).partsAgree_iff]
  have hother (hsubject : Subject.ofTags tags ≠ .cls) : (s.declaredClass tags).isSome = false := by
    rw [declaredClass]
    split
    · rename_i hcls
      exact absurd hcls hsubject
    · rfl
  have hkept {s' : Session} (h : s'.model.PartsAgree)
      (hnone : (s.declaredClass tags).isSome = false) : s'.model.PartsAgree ↔
        ((s.declaredClass tags).isSome = true → tags.contains "module" = false → s.Claimable) := by
    simp [hnone, h]
  refine s.placeSubject_cases tokens tags outer
    (P := fun o => o.1.model.PartsAgree ↔
      ((s.declaredClass tags).isSome = true → tags.contains "module" = false → s.Claimable))
    (fun hmember o h => ?_) (fun hsubject => ?_) (fun hsubject => ?_) (fun hsubject => ?_)
    fun hsubject s' h => ?_
  · refine hkept ((h.onlyClasses tokens).sameParts.partsAgree_iff.2 hs) (hother fun hcls => ?_)
    rw [hcls] at hmember
    cases hmember
  · have hwrites : Writes [] [.currentFile] s (s.placeFileMarker tags).1 :=
      s.writes_placeFileMarker tags
    exact hkept ((hwrites.sameParts (by decide)).partsAgree_iff.2 hs)
      (hother (by rw [hsubject]; decide))
  · rw [declaredClass, hsubject]
    cases hname : tags.name? "class" with
    | none =>
      rw [placeClassComment, hname]
      simp [hs]
    | some name =>
      rw [partsAgree_placeClassComment_iff tokens tags hs hopen hname]
      exact ⟨fun h _ => h, fun h => h rfl⟩
  · exact hkept (claimable_placeModule tokens tags hs hopen true).1
      (hother (by rw [hsubject]; decide))
  · exact hkept (h.onlyClasses.sameParts.partsAgree_iff.2 hs) (hother (by rw [hsubject]; decide))

end Place

/-! ### Inputs and runs -/

private theorem openSubmodule_prepare (s : Session) (following : Option String) :
    (s.prepare tokens following).1.context.openSubmodule = s.context.openSubmodule := by
  refine s.before_subject tokens following
    (R := fun s s' => s'.context.openSubmodule = s.context.openSubmodule)
    (fun _ _ _ h h' => h'.trans h) (fun s s' h => ?_) (fun s name => ?_) (fun _ _ => rfl)
    fun s name => ?_
  · obtain ⟨_, _, _, _, rfl⟩ := h
    rfl
  · cases name <;> rfl
  · obtain ⟨_, _, _, _, h⟩ := s.onlyClasses_enterFor tokens name
    rw [h]

/-- **What an input has to do**: a class that is declared without a module tag claims a submodule of
the open module, if it claims any. -/
def ClaimsOwn (s : Session) : Input → Prop
  | .comment tokens following =>
    (s.declares tokens following).isSome = true →
      (collect tokens).tags.contains "module" = false → s.Claimable
  | .root => True

/-- One input keeps modules and parts in agreement exactly if its class claims from its own
module. -/
theorem partsAgree_step_iff (hs : s.model.PartsAgree) (i : Input) :
    (s.step i).model.PartsAgree ↔ s.ClaimsOwn i := by
  cases i with
  | root => exact ⟨fun _ => trivial, fun _ => hs⟩
  | comment tokens following =>
    obtain ⟨hinModule, -, hmodules⟩ := s.prepare_fst tokens following
    have hsame : s.model.SameParts (s.prepare tokens following).1.model := .of_modules hmodules
    have hcontains : Dict.contains (s.prepare tokens following).2 "module" =
        (collect tokens).tags.contains "module" := by
      rw [Dict.contains, s.get?_prepare tokens following (by decide)]
      rfl
    have hclaimable (hnone : (collect tokens).tags.contains "module" = false) :
        (s.prepare tokens following).1.Claimable ↔ s.Claimable := by
      have hnames : (collect tokens).tags.moduleNames = [] := by
        refine List.eq_nil_iff_forall_not_mem.2 fun mod hmod => ?_
        rw [TagMap.contains_of_mem_moduleNames hmod] at hnone
        cases hnone
      have hkept : (s.prepare tokens following).1.context.inModule = s.context.inModule := by
        rw [hinModule, inModule_collect, hnames]
        rfl
      rw [Claimable, Claimable, s.openSubmodule_prepare tokens, hkept]
      simp only [hsame.submodules]
    rw [step, readComment_fst, partsAgree_place_iff tokens _ (hsame.partsAgree_iff.2 hs)
      fun mod hlast => inModule_prepare_of_named hlast, hcontains]
    exact imp_congr_right fun _ => imp_congr_right hclaimable

/-- **The lists and the data of the modules agree all along a run exactly if every class claims a
submodule of the open module.** -/
theorem partsAgree_run_iff (version : String) (v : UInt32) (inputs : List Input) :
    (∀ earlier, earlier <+: inputs → ((start version v).run earlier).model.PartsAgree) ↔
      ∀ earlier i, earlier ++ [i] <+: inputs → ((start version v).run earlier).ClaimsOwn i :=
  forall_run_iff (P := fun s => s.model.PartsAgree) (fun _ _ h => by cases h)
    (fun _ i h => partsAgree_step_iff h i) inputs

/-- A file marker opens a module but does not declare it, and so the class claims there what another
module has declared. -/
example :
    let s := (start "1.0.0" 3).run
      [.comment ["Base bits.", "@module m", "@submodule s"] none,
        .comment ["@filemarker a.js", "@module n"] none, .comment ["@class A"] none]
    (s.model.moduleAt "m").submodules = ["s"] ∧ (s.model.moduleAt "n").submodules = [] ∧
      (s.model.moduleAt "n").subData.get? "s" = some { name := "A" } := by
  decide +kernel

end Session

end ApiDocs
