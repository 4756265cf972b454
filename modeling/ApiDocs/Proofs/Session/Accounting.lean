import ApiDocs.Proofs.Session.Listings

/-!
# Classes and files that fall out of the modules

A class or a file that has neither a module nor waits for one is in no listing, and no later
module takes it in. What becomes of the others is easily followed: an item that waits gets a
module when one is opened, and one that has a module keeps one. So a session accounts for exactly
those items that some comment of the run `introduces` (`accounts_run`): a comment about a class its
class, and a file marker its file.

**Every file is accounted for, and a class if and only if a comment about it was read**
(`accounted_run`). A class can also come up without one, as an inner class that a comment about
something else is written for, and such a class is left out. The files stay in because nothing but
a file marker brings in a file: a class is listed in the current file only (`KeepsFiles`).
-/

namespace ApiDocs

namespace Pending

/-- The module of an item. -/
def home? (L : Links) : Pending → Option String
  | .cls name => L.home? .classInModule name
  | .file name => L.home? .fileInModule name

/-- **An item is accounted for**: it has a module, or it is among those that wait. -/
def Accounted (L : Links) (waiting : List Pending) (item : Pending) : Prop :=
  (item.home? L).isSome = true ∨ item ∈ waiting

variable {L : Links} {waiting : List Pending} {item : Pending}

/-- An item that is attached has its home there; the others keep theirs. -/
private theorem home?_attach (x : Pending) (mod : String) :
    item.home? (L.attach (x.attachment mod)) = if item = x then some mod else item.home? L := by
  cases item <;> cases x <;> simp [home?, Links.attach, attachment]

/-- Listing a class in a file gives no item a module. -/
private theorem home?_attach_file (cls file : String) :
    item.home? (L.attach ⟨.classInFile, cls, file⟩) = item.home? L := by
  cases item <;> simp [home?, Links.attach]

/-- After a list of items was attached each of them has a home, and so has whatever had one
before. -/
private theorem isSome_home?_foldl_attach (items : List Pending) (mod : String) :
    (item.home? ((items.map (attachment mod)).foldl Links.attach L)).isSome = true ↔
      (item.home? L).isSome = true ∨ item ∈ items := by
  induction items generalizing L with
  | nil => simp
  | cons x items ih =>
    rw [List.map_cons, List.foldl_cons, ih, home?_attach]
    by_cases hx : item = x
    · simp [hx]
    · simp [hx]

/-- What waits may be put into a module all at once. -/
private theorem accounted_drain (mod : String) :
    item.Accounted ((waiting.map (attachment mod)).foldl Links.attach L) [] ↔
      item.Accounted L waiting := by
  rw [Accounted, isSome_home?_foldl_attach, Accounted]
  simp

/-- A new item is put into the open module, or waits. -/
private theorem accounted_place (inModule : Option String) (x : Pending) :
    item.Accounted ((inModule.toList.map (attachment · x)).foldl Links.attach L)
        (if inModule.isSome then waiting else defer waiting x) ↔
      item.Accounted L waiting ∨ item = x := by
  cases inModule with
  | none =>
    show _ ∨ item ∈ defer waiting x ↔ _
    rw [mem_defer, ← or_assoc]
    exact Iff.rfl
  | some mod =>
    show (item.home? (L.attach (x.attachment mod))).isSome = true ∨ item ∈ waiting ↔ _
    rw [home?_attach, Accounted]
    by_cases hx : item = x
    · simp [hx]
    · simp [hx]

end Pending

namespace Session

variable (s : Session) (tokens : List String) (tags : TagMap)

/-! ### What waits after a comment -/

/-- The item that a comment is about, if it can belong to a module. -/
def introducedBy : Option Pending :=
  match Subject.ofTags tags with
  | .cls => (tags.name? "class").map fun name => .cls (s.fullName name)
  | .file => (tags.name? "filemarker").map .file
  | _ => none

/-- What still waits when the module tags of a comment were placed. -/
def remaining : List Pending :=
  match tags.moduleNames.getLast? with
  | none => s.context.pending
  | some _ => []

/-- What waits when a comment was placed. -/
def waitingAfter : List Pending :=
  match Subject.ofTags tags with
  | .mod => s.remaining tags
  | .cls =>
    match tags.name? "class" with
    | none => s.context.pending
    | some name =>
      if s.context.inModule.isSome then s.remaining tags
      else Pending.defer (s.remaining tags) (.cls (s.fullName name))
  | .file =>
    match tags.name? "filemarker" with
    | none => s.context.pending
    | some file =>
      if s.context.inModule.isSome then s.context.pending
      else Pending.defer s.context.pending (.file file)
  | _ => s.context.pending

/-- A comment about a module leaves waiting what it does not drain. -/
private theorem pending_placeModule (alone : Bool) :
    (s.placeModule tokens tags alone).1.context.pending = s.remaining tags := by
  rw [placeModule, ← TagMap.moduleNames, remaining]
  dsimp only
  cases tags.moduleNames.getLast? <;> rfl

/-- The same is left waiting by the module tags of a comment about a class. -/
private theorem pending_placeOwnModule :
    (s.placeOwnModule tokens tags).1.context.pending = s.remaining tags := by
  rw [placeOwnModule]
  split
  · exact s.pending_placeModule tokens tags false
  · rename_i hnone
    have hnames : tags.moduleNames = [] := by
      refine List.eq_nil_iff_forall_not_mem.2 fun mod hmod => ?_
      exact hnone (TagMap.contains_of_mem_moduleNames hmod)
    rw [remaining, hnames]
    rfl

/-- A class is placed with the module that is open after its module tags. -/
private theorem pending_class (cls : String) (description : Option String)
    (f : ClassDoc → ClassDoc) :
    (((((s.claimSubmodule cls description).markGlobal tags cls).modifyClass cls
        f).placeClass cls).listInFile cls).context.pending =
      if s.context.inModule.isSome then s.context.pending
      else Pending.defer s.context.pending (.cls cls) := by
  have hlist (s : Session) : (s.listInFile cls).context.pending = s.context.pending := by
    rw [listInFile]
    split <;> rfl
  have hplace (s : Session) : (s.placeClass cls).context.pending =
      if s.context.inModule.isSome then s.context.pending
      else Pending.defer s.context.pending (.cls cls) := by
    rw [placeClass]
    split
    · rename_i mod hmod
      rw [hmod]
      rfl
    · rename_i hmod
      rw [hmod]
      rfl
  have hclaim : (s.claimSubmodule cls description).context.pending = s.context.pending := by
    rw [claimSubmodule]
    split <;> rfl
  have hmark (s : Session) : (s.markGlobal tags cls).context.pending = s.context.pending := by
    rw [markGlobal]
    split <;> rfl
  have hwrites :
      Writes [] [.submodules] s ((s.claimSubmodule cls description).markGlobal tags cls) :=
    (s.writes_claimSubmodule cls description).trans (writes_markGlobal _ tags cls)
  obtain ⟨marked, hmarked⟩ :
      ∃ m, m = (s.claimSubmodule cls description).markGlobal tags cls := ⟨_, rfl⟩
  have hmod : marked.context.inModule = s.context.inModule := by
    rw [hmarked]
    exact hwrites.keepsOpen.inModule
  have hpending : marked.context.pending = s.context.pending := by
    rw [hmarked, hmark, hclaim]
  rw [hlist, hplace, ← hmarked, ← hmod, ← hpending]
  rfl

/-- A class waits once its module tags were placed, unless a module is open. -/
private theorem pending_placeClassComment (inner : Option String) :
    (s.placeClassComment tokens tags inner).1.context.pending =
      match tags.name? "class" with
      | none => s.context.pending
      | some name =>
        if s.context.inModule.isSome then s.remaining tags
        else Pending.defer (s.remaining tags) (.cls (s.fullName name)) := by
  rw [placeClassComment]
  cases tags.name? "class" with
  | none => rfl
  | some name =>
    have hdefine := s.onlyClasses_defineClass tokens name
    have hremaining : (s.defineClass tokens name).remaining (tags.erase "class") =
        s.remaining tags := by
      rw [remaining, remaining, TagMap.moduleNames_erase_of_ne tags (by decide), hdefine.pending]
    have hpending := (s.defineClass tokens name).pending_placeOwnModule tokens (tags.erase "class")
    have hmod := ((s.defineClass tokens name).writes_placeOwnModule tokens (tags.erase "class")
      fun _ h => h).keepsOpen.inModule
    rw [hremaining] at hpending
    rw [hdefine.inModule] at hmod
    dsimp only
    rw [pending_class, hmod, hpending]

/-- A file waits unless a module is open. -/
private theorem pending_placeFileMarker :
    (s.placeFileMarker tags).1.context.pending =
      match tags.name? "filemarker" with
      | none => s.context.pending
      | some file =>
        if s.context.inModule.isSome then s.context.pending
        else Pending.defer s.context.pending (.file file) := by
  rw [placeFileMarker]
  cases tags.name? "filemarker" with
  | none => rfl
  | some file =>
    have hmod : (s.enterFile file).context.inModule = s.context.inModule := rfl
    dsimp only
    rw [placeFile, hmod]
    cases s.context.inModule <;> rfl

/-- **What waits when a comment was placed**, also where it fails. -/
theorem pending_place (outer : Option String) :
    (s.place tokens tags outer).1.context.pending = s.waitingAfter tags := by
  have hafter := s.after_subject tokens tags outer
    (R := fun s s' => s'.context.pending = s.context.pending)
    (fun _ => rfl) (fun _ _ _ h h' => h'.trans h)
    (fun s tags => (s.onlyClasses_placeConstructor tokens tags).pending)
    (fun s' p _ => by rw [applyLeftovers]; split <;> rfl)
  rw [hafter]
  refine s.placeSubject_cases tokens tags outer
    (P := fun o => o.1.context.pending = s.waitingAfter tags) (fun hmember o h => ?_)
    (fun hsubject => ?_) (fun hsubject => ?_) (fun hsubject => ?_) fun hsubject s' h => ?_
  · rw [(h.onlyClasses tokens).pending, waitingAfter]
    cases hsubject : Subject.ofTags tags with
    | method | event | property | attr | config | nothing => rfl
    | file | cls | mod =>
      rw [hsubject] at hmember
      cases hmember
  · rw [waitingAfter, hsubject]
    exact s.pending_placeFileMarker tags
  · rw [waitingAfter, hsubject]
    exact s.pending_placeClassComment tokens tags outer
  · rw [waitingAfter, hsubject]
    exact s.pending_placeModule tokens tags true
  · rw [h.onlyClasses.pending, waitingAfter, hsubject]

/-! ### What is accounted for -/

/-- A session accounts for an item: it has a module, or it waits for one. -/
def AccountsFor (item : Pending) : Prop := item.Accounted s.model.links s.context.pending

instance (s : Session) (item : Pending) : Decidable (s.AccountsFor item) :=
  inferInstanceAs (Decidable (_ = true ∨ _ ∈ _))

/-- What an input introduces. -/
def introduces : Input → Option Pending
  | .comment tokens following =>
    let (s, tags) := s.prepare tokens following
    s.introducedBy tags
  | .root => none

variable {s tags} {item : Pending}

/-- Placing the module tags of a comment only turns items that wait into ones with a module. -/
private theorem accounted_remaining :
    item.Accounted ((s.drained tags).foldl Links.attach s.model.links) (s.remaining tags) ↔
      s.AccountsFor item := by
  rw [drained, remaining]
  cases tags.moduleNames.getLast? with
  | none => exact Iff.rfl
  | some mod => exact Pending.accounted_drain _

/-- A class that is placed is attached to the open module or waits for one. -/
private theorem accounted_attachmentsOfClass {L : Links} {waiting : List Pending} (cls : String) :
    item.Accounted ((s.attachmentsOfClass cls).foldl Links.attach L)
        (if s.context.inModule.isSome then waiting else Pending.defer waiting (.cls cls)) ↔
      item.Accounted L waiting ∨ item = .cls cls := by
  have hfile (L : Links) (waiting : List Pending) :
      item.Accounted ((s.context.inFile.toList.map fun file =>
        (⟨.classInFile, cls, file⟩ : Attachment)).foldl Links.attach L) waiting ↔
          item.Accounted L waiting := by
    cases s.context.inFile with
    | none => exact Iff.rfl
    | some file => exact or_congr_left (by rw [← Pending.home?_attach_file cls file]; rfl)
  rw [attachmentsOfClass, List.foldl_append, hfile]
  exact Pending.accounted_place s.context.inModule (.cls cls)

/-- **A comment adds the item that it is about**, and loses none. -/
theorem accountsFor_place (hs : s.Intact) (outer : Option String) :
    (s.place tokens tags outer).1.AccountsFor item ↔
      s.AccountsFor item ∨ s.introducedBy tags = some item := by
  rw [AccountsFor, links_place tokens tags hs, pending_place, attachmentsOf, waitingAfter,
    introducedBy]
  have hnone : s.AccountsFor item ↔ s.AccountsFor item ∨ none = some item := by simp
  cases Subject.ofTags tags with
  | method | event | property | attr | config | nothing => exact hnone
  | mod => exact accounted_remaining.trans hnone
  | cls =>
    cases tags.name? "class" with
    | none => exact hnone
    | some name =>
      dsimp only
      rw [List.foldl_append, accounted_attachmentsOfClass, accounted_remaining, Option.map_some,
        Option.some.injEq, eq_comm]
  | file =>
    cases tags.name? "filemarker" with
    | none => exact hnone
    | some file =>
      rw [Option.map_some, Option.some.injEq, eq_comm (b := item)]
      exact Pending.accounted_place s.context.inModule (.file file)

/-- One input accounts for what it introduces, and for what was accounted for before. -/
theorem accountsFor_step (hs : s.Intact) (i : Input) :
    (s.step i).AccountsFor item ↔ s.AccountsFor item ∨ s.introduces i = some item := by
  cases i with
  | root => simp [step, beginRoot, AccountsFor, introduces]
  | comment tokens following =>
    have hprepare : (s.prepare tokens following).1.Intact :=
      Changes.intact (changes_prepare s tokens following) hs
    have hsame : (s.prepare tokens following).1.AccountsFor item ↔ s.AccountsFor item := by
      rw [AccountsFor, links_prepare, (s.prepare_fst tokens following).2.1]
      exact Iff.rfl
    rw [step, readComment_fst, accountsFor_place tokens hprepare, hsame]
    rfl

/-- **A run accounts for exactly what its comments introduce.** -/
theorem accountsFor_run_iff (version : String) (v : UInt32) (inputs : List Input)
    (item : Pending) :
    ((start version v).run inputs).AccountsFor item ↔
      ∃ earlier i, earlier ++ [i] <+: inputs ∧
        ((start version v).run earlier).introduces i = some item := by
  refine run_iff_exists (P := fun s => s.AccountsFor item)
    (Q := fun s i => s.introduces i = some item) ?_ (fun inputs i => ?_) inputs
  · rintro (hhome | hwaits)
    · cases item <;> cases hhome
    · cases hwaits
  · exact accountsFor_step ((intact_start version v).run (contextKnown_start version v) inputs) i

/-! ### Files -/

/-- The current file stays, and no other file comes up. -/
structure KeepsFiles (s s' : Session) : Prop where
  inFile : s'.context.inFile = s.context.inFile
  files : ∀ file, s'.model.files.contains file = true →
    s.model.files.contains file = true ∨ s.context.inFile = some file

namespace KeepsFiles

variable {s s' s'' : Session}

theorem refl (s : Session) : s.KeepsFiles s := ⟨rfl, fun _ h => .inl h⟩

theorem trans (h : s.KeepsFiles s') (h' : s'.KeepsFiles s'') : s.KeepsFiles s'' where
  inFile := h'.inFile.trans h.inFile
  files file hfile := by
    rcases h'.files file hfile with hold | hcurrent
    · exact h.files file hold
    · exact .inr (h.inFile ▸ hcurrent)

/-- Files are kept as long as they and the current file stay the same. -/
theorem of_same (hfile : s'.context.inFile = s.context.inFile)
    (hfiles : s'.model.files = s.model.files) : s.KeepsFiles s' :=
  ⟨hfile, fun _ h => .inl (hfiles ▸ h)⟩

/-- Changes of classes keep the files. -/
private theorem of_onlyClasses (h : s.OnlyClasses s') : s.KeepsFiles s' := by
  obtain ⟨_, _, _, _, rfl⟩ := h
  exact .of_same rfl rfl

end KeepsFiles

/-- A write to anything but the current file keeps the files. -/
private theorem Write.keepsFiles {named : List String} {part : Option Part} {s s' : Session}
    (h : Write named part s s') (hpart : part ≠ some .currentFile) : s.KeepsFiles s' := by
  cases h with
  | seek | redefine | remember | defer | drain | modifyClass | relateClass | insertMember | tagClass
  | tagMember | modifyModule | describePart | tagModule => exact .of_same rfl rfl
  | modifyFile _ name f => exact ⟨rfl, fun file h => .inl (by rwa [← Dict.contains_modify _ name])⟩
  | addFile _ name current =>
    refine ⟨rfl, fun file h => ?_⟩
    have hadded : (s.model.files.insertNew name { name := name }).contains file = true := h
    rw [Dict.contains_insertNew, Bool.or_eq_true, beq_iff_eq] at hadded
    rcases hadded with rfl | hold
    · exact .inr current
    · exact .inl hold
  | enterFile => exact absurd rfl hpart

/-- Writes keep the files unless one is to the current file. -/
private theorem Writes.keepsFiles {named : List String} {parts : List Part} {s s' : Session}
    (h : Writes named parts s s') (hparts : .currentFile ∉ parts) : s.KeepsFiles s' :=
  h.rel .refl (fun _ _ _ => .trans) fun _ _ _ hpart h =>
    h.keepsFiles fun hfile => hparts (hpart _ hfile)

section

variable (s tags)

/-- Before a comment is placed its files stay as they are. -/
private theorem keepsFiles_prepare (following : Option String) :
    s.KeepsFiles (s.prepare tokens following).1 := by
  refine s.before_subject tokens following (fun _ _ _ => .trans)
    (fun _ _ h => .of_onlyClasses h.onlyClasses) (fun s name => ?_) (fun _ _ => .of_same rfl rfl)
    fun s name => .of_onlyClasses (s.onlyClasses_enterFor tokens name)
  cases name <;> exact .of_same rfl rfl

private theorem keepsFiles_after_subject (outer : Option String) :
    (s.placeSubject tokens tags outer).1.KeepsFiles (s.place tokens tags outer).1 :=
  (s.writes_after_subject tokens tags outer).keepsFiles (by decide)

/-- Only a file marker may bring a new file up. -/
private theorem keepsFiles_placeSubject (outer : Option String) (h : ¬MarksFile tags) :
    s.KeepsFiles (s.placeSubject tokens tags outer).1 := by
  by_cases hsubject : Subject.ofTags tags = .file
  · have hname : tags.name? "filemarker" = none :=
      Option.not_isSome_iff_eq_none.1 fun hname => h ⟨hsubject, hname⟩
    rw [placeSubject, hsubject]
    dsimp only
    rw [placeFileMarker, hname]
    exact .refl s
  · have hparts : .currentFile ∉ (Subject.ofTags tags).parts := by
      cases hcases : Subject.ofTags tags with
      | file => exact absurd hcases hsubject
      | cls | mod | method | event | property | attr | config | nothing => decide
    exact (KeepsFiles.of_onlyClasses (s.onlyClasses_defineDeclared tokens tags)).trans
      ((s.writes_placeSubject tokens tags outer).keepsFiles hparts)

/-- The file of a file marker is the current one, and the only one that may be new. -/
private theorem files_placeFileMarker {name : String}
    (hname : tags.name? "filemarker" = some name) :
    (s.placeFileMarker tags).1.context.inFile = some name ∧
      ∀ file, (s.placeFileMarker tags).1.model.files.contains file = true →
        file = name ∨ s.model.files.contains file = true := by
  have hadd (file : String) (h : (s.enterFile name).model.files.contains file = true) :
      file = name ∨ s.model.files.contains file = true := by
    have hadded : (s.model.files.insertNew name { name := name }).contains file = true := h
    rwa [Dict.contains_insertNew, Bool.or_eq_true, beq_iff_eq] at hadded
  rw [placeFileMarker, hname]
  dsimp only
  rw [placeFile]
  split
  · refine ⟨rfl, fun file h => hadd file ?_⟩
    exact (Dict.contains_modify (s.enterFile name).model.files name file _).symm.trans h
  · exact ⟨rfl, hadd⟩

end

/-- **Only a file marker brings in a file.** Any other comment lists its class in the current one,
at most. -/
theorem files_place (outer : Option String) {file : String}
    (h : (s.place tokens tags outer).1.model.files.contains file = true ∨
      (s.place tokens tags outer).1.context.inFile = some file) :
    (s.model.files.contains file = true ∨ s.context.inFile = some file) ∨
      s.introducedBy tags = some (.file file) := by
  have hafter := s.keepsFiles_after_subject tokens tags outer
  by_cases hmarks : MarksFile tags
  · obtain ⟨hsubject, hname⟩ := hmarks
    obtain ⟨name, hname⟩ := Option.isSome_iff_exists.1 hname
    have hintroduced : s.introducedBy tags = some (.file name) := by
      rw [introducedBy, hsubject, hname]
      rfl
    have hplaced : (s.placeSubject tokens tags outer).1 = (s.placeFileMarker tags).1 := by
      rw [placeSubject, hsubject]
    obtain ⟨hcurrent, hfiles⟩ := s.files_placeFileMarker tags hname
    rw [hplaced] at hafter
    have hnew : file = name ∨ s.model.files.contains file = true := by
      rcases h with h | h
      · rcases hafter.files file h with h | h
        · exact hfiles file h
        · rw [hcurrent, Option.some.injEq] at h
          exact .inl h.symm
      · rw [hafter.inFile, hcurrent, Option.some.injEq] at h
        exact .inl h.symm
    rcases hnew with rfl | hold
    · exact .inr hintroduced
    · exact .inl (.inl hold)
  · have hkeeps := (s.keepsFiles_placeSubject tokens tags outer hmarks).trans hafter
    rcases h with h | h
    · exact .inl (hkeeps.files file h)
    · exact .inl (.inr (hkeeps.inFile ▸ h))

/-- A file is introduced by the input that it comes up with. -/
theorem files_step {i : Input} {file : String}
    (h : (s.step i).model.files.contains file = true ∨ (s.step i).context.inFile = some file) :
    (s.model.files.contains file = true ∨ s.context.inFile = some file) ∨
      s.introduces i = some (.file file) := by
  cases i with
  | root =>
    rcases h with h | h
    · exact .inl (.inl h)
    · cases h
  | comment tokens following =>
    have hprepare := s.keepsFiles_prepare tokens following
    rw [step, readComment_fst] at h
    rcases files_place tokens _ h with (h | h) | h
    · exact .inl (hprepare.files file h)
    · exact .inl (.inr (hprepare.inFile ▸ h))
    · exact .inr h

/-- **Every file has a module or waits for one**, and so does a class if and only if a comment about
it was read. -/
theorem accounted_run (version : String) (v : UInt32) (inputs : List Input) :
    let s := (start version v).run inputs
    (∀ file, s.model.files.contains file = true → s.AccountsFor (.file file)) ∧
      ∀ item, s.AccountsFor item ↔ ∃ earlier i, earlier ++ [i] <+: inputs ∧
        ((start version v).run earlier).introduces i = some item := by
  intro s
  refine ⟨fun file hfile => ?_, accountsFor_run_iff version v inputs⟩
  have hall : ∀ file, s.model.files.contains file = true ∨ s.context.inFile = some file →
      s.AccountsFor (.file file) := by
    clear hfile file
    induction inputs using List.reverseRecOn with
    | nil =>
      rintro file (h | h)
      · cases h
      · cases h
    | append_singleton inputs i ih =>
      intro file h
      have hrun : s = ((start version v).run inputs).step i := run_concat _ inputs i
      rw [hrun] at h ⊢
      rw [accountsFor_step ((intact_start version v).run (contextKnown_start version v) inputs)]
      exact (files_step h).imp_left (ih file)
  exact hall file (.inl hfile)

/-- An inner class that only another comment is written for is left out. -/
example :
    let s := (start "1.0.0" 3).run
      [.comment ["@class Outer"] none, .comment ["@for Inner", "@method poke"] none]
    s.model.classes.contains "Inner" = true ∧ ¬s.AccountsFor (.cls "Inner") := by
  decide +kernel

end Session

end ApiDocs
