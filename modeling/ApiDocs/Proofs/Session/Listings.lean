import ApiDocs.Proofs.Model.Attachment
import ApiDocs.Proofs.Session.OpenModule

/-!
# What modules and files list

A comment changes the links of the model by attaching items to places, and by nothing else:
`attachments` says which items one input attaches, and `links_step` that these are all. A module
comment attaches what waits for a module, a class comment also its class, and a file marker its
file. All attachments of one comment that are of one kind go to one place (`exists_place`).

The home of an item moves when the item is attached again, but no list is ever shortened. So **a
place lists exactly the items whose home it is or was** (`listings_run`), and an item that moved
is listed twice (`listed_after_moving`).
-/

namespace ApiDocs.Session

/-! ### The attachments of a comment -/

/-- What waits is attached when the tags of a comment name a module. -/
def drained (s : Session) (tags : TagMap) : List Attachment :=
  match tags.moduleNames.getLast? with
  | none => []
  | some mod => s.context.pending.map (Pending.attachment (s.context.inModule.getD mod))

/-- A class is attached to the current module and to the current file, where there are such. -/
def attachmentsOfClass (s : Session) (cls : String) : List Attachment :=
  s.context.inModule.toList.map (fun mod => ⟨.classInModule, cls, mod⟩) ++
    s.context.inFile.toList.map fun file => ⟨.classInFile, cls, file⟩

/-- **What placing a comment attaches**, in order. -/
def attachmentsOf (s : Session) (tags : TagMap) : List Attachment :=
  match Subject.ofTags tags with
  | .mod => s.drained tags
  | .cls =>
    match tags.name? "class" with
    | none => []
    | some name => s.drained tags ++ s.attachmentsOfClass (s.fullName name)
  | .file =>
    match tags.name? "filemarker" with
    | none => []
    | some file => s.context.inModule.toList.map fun mod => ⟨.fileInModule, file, mod⟩
  | _ => []

/-- What an input attaches. -/
def attachments (s : Session) : Input → List Attachment
  | .comment tokens following =>
    let (s, tags) := s.prepare tokens following
    s.attachmentsOf tags
  | .root => []

/-- All items of one kind that a comment attaches go to one place. -/
private theorem exists_place (s : Session) (tags : TagMap) :
    ∃ place : LinkKind → String, ∀ a ∈ s.attachmentsOf tags, a.place = place a.kind := by
  refine ⟨fun
    | .classInFile => s.context.inFile.getD ""
    | .classInModule | .fileInModule =>
      s.context.inModule.getD (tags.moduleNames.getLast?.getD ""), fun a ha => ?_⟩
  have hdrained (ha : a ∈ s.drained tags) : a.place = (match a.kind with
      | .classInFile => s.context.inFile.getD ""
      | .classInModule | .fileInModule =>
        s.context.inModule.getD (tags.moduleNames.getLast?.getD "")) := by
    rw [drained] at ha
    split at ha
    · cases ha
    · rename_i mod hmod
      obtain ⟨item, -, rfl⟩ := List.mem_map.1 ha
      rw [hmod]
      cases item <;> rfl
  rw [attachmentsOf] at ha
  split at ha
  · exact hdrained ha
  · split at ha
    · cases ha
    · rename_i name _
      rcases List.mem_append.1 ha with ha | ha
      · exact hdrained ha
      · rcases List.mem_append.1 ha with ha | ha
        · obtain ⟨mod, hmod, rfl⟩ := List.mem_map.1 ha
          rw [Option.mem_toList.1 hmod]
          rfl
        · obtain ⟨file, hfile, rfl⟩ := List.mem_map.1 ha
          rw [Option.mem_toList.1 hfile]
          rfl
  · split at ha
    · cases ha
    · obtain ⟨mod, hmod, rfl⟩ := List.mem_map.1 ha
      rw [Option.mem_toList.1 hmod]
      rfl
  · cases ha

/-! ### Changes that attach nothing -/

section Same

variable (s : Session) (tokens : List String) (tags : TagMap)

/-- A class that is new has no links. -/
private theorem links_defineClass (name : String) :
    (s.defineClass tokens name).model.links = s.model.links := by
  rw [defineClass]
  split
  · rfl
  · rename_i hnew
    exact Model.links_insertClass (by simpa [Dict.contains] using hnew) rfl rfl

/-- A comment that is written for a class links nothing. -/
private theorem links_enterFor (name : String) :
    (s.enterFor tokens name).model.links = s.model.links := by
  have hdefine := s.links_defineClass tokens name
  rw [enterFor]
  split
  · rfl
  · split
    · exact hdefine
    · split
      · exact hdefine
      · refine Eq.trans ?_ hdefine
        exact Model.links_modifyClass _ fun _ => ⟨rfl, rfl⟩

/-- Before a comment is placed nothing is linked. -/
theorem links_prepare (following : Option String) :
    (s.prepare tokens following).1.model.links = s.model.links := by
  have hstart : (((s.warnAll tokens (collect tokens).warnings).enterModule
      (collect tokens).inModule).applyNamespace (collect tokens).tags).model.links =
        s.model.links := by
    have hwarn : (s.warnAll tokens (collect tokens).warnings).model = s.model :=
      (s.seeks_warnAll tokens fun _ => warnings_collect).model
    have henter : ((s.warnAll tokens (collect tokens).warnings).enterModule
        (collect tokens).inModule).model = s.model := by
      rw [← hwarn]
      cases (collect tokens).inModule <;> rfl
    rw [← henter, applyNamespace]
    split <;> rfl
  have hguess (s : Session) (tags : TagMap) :
      (s.guessSubject tags following).1.model = s.model :=
    (s.seeks_guessSubject tags following).model
  rw [prepare]
  split
  · split
    · rw [hguess, hstart]
    · rw [hguess, links_enterFor, hstart]
  · rw [hguess, hstart]

/-- Members are linked to nothing. -/
private theorem links_insert {i : Insertion} (known : s.Knows i.cls) :
    (s.insert tokens i).model.links = s.model.links := by
  have hmember (kind : MemberKind) (doc : MemberDoc) :
      (s.insertMember tokens i.cls kind doc).model.links = s.model.links := by
    obtain ⟨c, hc⟩ := Dict.contains_iff.1 known
    by_cases hw : c.HasWritten kind doc.name
    · rw [model_insertMember_of_written tokens doc hc hw]
    · rw [model_insertMember_of_free tokens doc hc hw]
      exact Model.links_modifyClass _ fun c => by cases kind <;> exact ⟨rfl, rfl⟩
  rw [insert]
  split
  · obtain ⟨c, hc, -⟩ := written_insertMember tokens .config { name := i.doc.name } known rfl
    rw [insertConfig, model_foldl_addDerivedEvent hc,
      Model.links_modifyClass _ fun c => c.links_addNewEvents _]
    exact hmember _ _
  · exact hmember _ _

/-- A constructor is linked to nothing. -/
private theorem links_placeConstructor :
    (s.placeConstructor tokens tags).1.model.links = s.model.links := by
  obtain ⟨s₁, hseeks, heq | ⟨cls, doc, heq⟩⟩ := s.placeConstructor_cases tokens tags
  · rw [heq, hseeks.model]
  · rw [heq, ← hseeks.model]
    exact Model.links_modifyClass cls fun _ => ⟨rfl, rfl⟩

/-- The remaining tags of a comment link nothing. -/
private theorem links_applyLeftovers (p : Placed) :
    (s.applyLeftovers p).model.links = s.model.links := by
  rw [applyLeftovers]
  split
  · exact Model.links_modifyClass _ fun c => c.links_applyTags _
  · exact Model.links_modifyClass _ fun c => by
      rename_i kind _ _
      cases kind <;> exact ⟨rfl, rfl⟩
  · refine Model.links_modifyModule _ fun d => ?_
    obtain ⟨title, description, attributes, h⟩ := d.exists_applyTags_eq p.tags.leftovers
    rw [h]
    exact ⟨rfl, rfl⟩
  · rfl
  · rfl

/-- What follows the subject of a comment attaches nothing. -/
private theorem links_after_subject (outer : Option String) :
    (s.place tokens tags outer).1.model.links =
      (s.placeSubject tokens tags outer).1.model.links :=
  s.after_subject tokens tags outer (R := fun s s' => s'.model.links = s.model.links)
    (fun _ => rfl) (fun _ _ _ h h' => h'.trans h)
    (fun s tags => s.links_placeConstructor tokens tags) fun s' p _ => s'.links_applyLeftovers p

end Same

/-! ### Files, modules and classes -/

/-- **A part of a comment attaches** the items of a list, and leaves the current module and the
current file alone. -/
structure Attaches (l : List Attachment) (s s' : Session) : Prop where
  changes : Changes s s'
  inModule : s'.context.inModule = s.context.inModule
  inFile : s'.context.inFile = s.context.inFile
  links : s'.model.links = l.foldl Links.attach s.model.links

namespace Attaches

variable {s s' s'' : Session} {l l' : List Attachment}

theorem refl (s : Session) : Attaches [] s s := ⟨.refl, rfl, rfl, rfl⟩

theorem append (h : Attaches l s s') (h' : Attaches l' s' s'') : Attaches (l ++ l') s s'' where
  changes := h.changes.trans h'.changes
  inModule := h'.inModule.trans h.inModule
  inFile := h'.inFile.trans h.inFile
  links := by rw [h'.links, h.links, List.foldl_append]

/-- What attaches nothing may come first. -/
theorem trans (h : Attaches [] s s') (h' : Attaches l s' s'') : Attaches l s s'' := h.append h'

/-- Linking takes no class away. -/
private theorem knows (h : Attaches l s s') {cls : String} (known : s.Knows cls) : s'.Knows cls :=
  Changes.knows h.changes known

end Attaches

section Attach

variable {s : Session} (tokens : List String) (tags : TagMap)

/-- A class is not linked when it is defined. -/
private theorem attaches_defineClass (name : String) :
    Attaches [] s (s.defineClass tokens name) where
  changes := .single (.defineClass s tokens name)
  inModule := (s.onlyClasses_defineClass tokens name).inModule
  inFile := by
    rw [defineClass]
    split <;> rfl
  links := s.links_defineClass tokens name

private theorem attaches_addModules (names : List String) : Attaches [] s (s.addModules names) :=
  ⟨.single (.addModules s names), rfl, rfl, Model.links_addModules names⟩

private theorem attaches_describePart (mod : String) (alone : Bool) :
    Attaches [] s (s.describePart tokens mod tags alone).1 := by
  have hchanges := changes_describePart s tokens mod tags alone
  revert hchanges
  rw [describePart]
  split
  · intro hchanges
    exact ⟨hchanges, rfl, rfl, Model.links_modifyModule mod fun _ => ⟨rfl, rfl⟩⟩
  · unfold describeModule
    dsimp only
    split
    · split
      · intro hchanges
        exact ⟨hchanges, rfl, rfl, Model.links_modifyModule mod fun _ => ⟨rfl, rfl⟩⟩
      · exact fun _ => .refl s
    · split
      · exact fun hchanges => ⟨hchanges, rfl, rfl, rfl⟩
      · exact fun _ => .refl s

/-- What waits is attached to the module, in order. -/
private theorem attaches_drainInto (hs : s.Intact) (mod : String) :
    Attaches (s.context.pending.map (Pending.attachment mod)) s (s.drainInto mod) :=
  ⟨.single (.drainInto s mod), rfl, rfl, Model.links_linkAll mod hs.waiting⟩

/-- The tags of a module attach what waits. -/
private theorem attaches_placeModule (hs : s.Intact) (alone : Bool) :
    Attaches (s.drained tags) s (s.placeModule tokens tags alone).1 := by
  have hadd : Attaches [] s (s.addModules tags.moduleNames) := attaches_addModules _
  rw [placeModule, ← TagMap.moduleNames, drained]
  dsimp only
  cases tags.moduleNames.getLast? with
  | none => exact hadd
  | some mod =>
    have hdescribe := hadd.trans (attaches_describePart tokens (tags.erase "module") mod alone)
    obtain ⟨_, _, hcontext⟩ := (s.addModules tags.moduleNames).exists_context_describePart tokens
      (tags.erase "module") mod alone
    have hdrain := attaches_drainInto (Changes.intact hdescribe.changes hs)
      (s.context.inModule.getD mod)
    rw [hcontext] at hdrain
    dsimp only
    rw [hdescribe.inModule]
    exact hdescribe.trans hdrain

/-- The module tags of a comment about a class attach what waits. -/
private theorem attaches_placeOwnModule (hs : s.Intact) :
    Attaches (s.drained tags) s (s.placeOwnModule tokens tags).1 := by
  rw [placeOwnModule]
  split
  · exact attaches_placeModule tokens tags hs false
  · rename_i hnone
    have hnames : tags.moduleNames = [] := by
      refine List.eq_nil_iff_forall_not_mem.2 fun mod hmod => ?_
      exact hnone (TagMap.contains_of_mem_moduleNames hmod)
    rw [drained, hnames]
    exact .refl s

/-- A submodule that is claimed is no link. -/
private theorem attaches_claimSubmodule (cls : String) (description : Option String) :
    Attaches [] s (s.claimSubmodule cls description) := by
  have hchange := Change.claimSubmodule s cls description
  revert hchange
  rw [claimSubmodule]
  split
  · intro hchange
    exact ⟨.single hchange, rfl, rfl, Model.links_modifyModule _ fun _ => ⟨rfl, rfl⟩⟩
  · exact fun hchange => ⟨.single hchange, rfl, rfl, rfl⟩

/-- Related classes are no links. -/
private theorem attaches_relateClass {cls : String} {inner : Option String}
    (other : inner ≠ some cls) :
    Attaches [] s (s.modifyClass cls (relateClass tags inner)) :=
  ⟨.single (.relateClass s cls tags inner other), rfl, rfl,
    Model.links_modifyClass cls fun _ => ⟨rfl, rfl⟩⟩

section Class

variable {cls : String} (known : s.Knows cls)

include known

private theorem attaches_markGlobal : Attaches [] s (s.markGlobal tags cls) := by
  have hchange := Change.markGlobal s tags cls known
  revert hchange
  rw [markGlobal]
  split
  · exact fun hchange => ⟨.single hchange, rfl, rfl, rfl⟩
  · exact fun _ => .refl s

/-- A class is attached to the open module, if there is one. -/
private theorem attaches_placeClass :
    Attaches (s.context.inModule.toList.map fun mod => ⟨.classInModule, cls, mod⟩) s
      (s.placeClass cls) := by
  have hchange := Change.placeClass s cls known
  revert hchange
  rw [placeClass]
  cases s.context.inModule with
  | none => exact fun hchange => ⟨.single hchange, rfl, rfl, rfl⟩
  | some mod => exact fun hchange => ⟨.single hchange, rfl, rfl, Model.links_linkClass known mod⟩

/-- A class is attached to the current file, if there is one. -/
private theorem attaches_listInFile :
    Attaches (s.context.inFile.toList.map fun file => ⟨.classInFile, cls, file⟩) s
      (s.listInFile cls) := by
  have hchange := Change.listInFile s cls known
  revert hchange
  rw [listInFile]
  cases s.context.inFile with
  | none => exact fun _ => .refl s
  | some file => exact fun hchange => ⟨.single hchange, rfl, rfl, Model.links_listInFile known file⟩

/-- What is done to a class after its module tags were placed attaches it. -/
private theorem attaches_class (description : Option String) {inner : Option String}
    (other : inner ≠ some cls) :
    Attaches (s.attachmentsOfClass cls) s
      (((((s.claimSubmodule cls description).markGlobal tags cls).modifyClass cls
        (relateClass tags inner)).placeClass cls).listInFile cls) := by
  have hclaim : Attaches [] s (s.claimSubmodule cls description) := attaches_claimSubmodule _ _
  have hmark := hclaim.trans (attaches_markGlobal tags (hclaim.knows known))
  have hrelate := hmark.trans (attaches_relateClass tags other)
  have hplace := hrelate.trans (attaches_placeClass (hrelate.knows known))
  have hlist := hplace.append (attaches_listInFile (hplace.knows known))
  rwa [hrelate.inModule, hplace.inFile] at hlist

end Class

/-- **A comment about a class** attaches what waits, if it names a module, and then its class. -/
theorem attaches_placeClassComment (hs : s.Intact) (inner : Option String) :
    Attaches (match tags.name? "class" with
        | none => []
        | some name => s.drained tags ++ s.attachmentsOfClass (s.fullName name)) s
      (s.placeClassComment tokens tags inner).1 := by
  rw [placeClassComment]
  cases tags.name? "class" with
  | none => exact .refl s
  | some name =>
    have hdefine : Attaches [] s (s.defineClass tokens name) := attaches_defineClass tokens name
    have hintact : (s.defineClass tokens name).Intact := Changes.intact hdefine.changes hs
    have hown := hdefine.trans (attaches_placeOwnModule tokens (tags.erase "class") hintact)
    have hknown := (changes_placeOwnModule (s.defineClass tokens name) tokens
      (tags.erase "class")).knows (knows_defineClass s tokens name)
    have hdrained : (s.defineClass tokens name).drained (tags.erase "class") = s.drained tags := by
      rw [drained, drained, TagMap.moduleNames_erase_of_ne tags (by decide), hdefine.inModule,
        (s.onlyClasses_defineClass tokens name).pending]
    have hother : inner.filter (· ≠ s.fullName name) ≠ some (s.fullName name) := by
      intro h
      simpa using (Option.filter_eq_some_iff.1 h).2
    rw [hdrained] at hown
    dsimp only
    generalize (s.defineClass tokens name).placeOwnModule tokens (tags.erase "class") = r
      at hown hknown ⊢
    obtain ⟨s₁, rest⟩ := r
    have hclass := hown.append (attaches_class rest hknown (rest.first "description") hother)
    rwa [attachmentsOfClass, hown.inModule, hown.inFile] at hclass

/-- A file marker attaches its file, if a module is open. -/
private theorem links_placeFileMarker :
    (s.placeFileMarker tags).1.model.links =
      (match tags.name? "filemarker" with
        | none => []
        | some file => s.context.inModule.toList.map fun mod =>
          (⟨.fileInModule, file, mod⟩ : Attachment)).foldl Links.attach s.model.links := by
  rw [placeFileMarker]
  cases tags.name? "filemarker" with
  | none => rfl
  | some file =>
    have henter : (s.enterFile file).model.links = s.model.links := Model.links_addFile file
    have hmod : (s.enterFile file).context.inModule = s.context.inModule := rfl
    have hknown : (s.enterFile file).model.files.contains file = true := by
      simp [enterFile, Model.addFile]
    dsimp only
    rw [placeFile, hmod]
    cases s.context.inModule with
    | none => exact henter
    | some mod =>
      rw [← henter]
      exact Model.links_linkFile hknown mod

/-- **Placing a comment** attaches what its subject calls for, also where it fails. -/
theorem links_place (hs : s.Intact) (outer : Option String) :
    (s.place tokens tags outer).1.model.links =
      (s.attachmentsOf tags).foldl Links.attach s.model.links := by
  rw [links_after_subject]
  have hmember (h : (Subject.ofTags tags).isMember = true) :
      (s.placeSubject tokens tags outer).1.model.links = s.model.links := by
    have hplaces := s.placeSubject_member tokens tags outer h
    generalize s.placeSubject tokens tags outer = o at hplaces ⊢
    cases hplaces with
    | unnamed rest => rfl
    | failed seeks e => rw [seeks.model]
    | inserted seeks known kind name rest =>
      rw [← seeks.model]
      exact links_insert _ tokens known
  rw [attachmentsOf]
  cases hsubject : Subject.ofTags tags with
  | method | event | property | attr | config => exact hmember (by rw [hsubject]; rfl)
  | file =>
    rw [placeSubject, hsubject]
    exact links_placeFileMarker tags
  | cls =>
    rw [placeSubject, hsubject]
    exact (attaches_placeClassComment tokens tags hs outer).links
  | mod =>
    rw [placeSubject, hsubject]
    exact (attaches_placeModule tokens tags hs true).links
  | nothing =>
    rw [placeSubject, hsubject]
    dsimp only
    split <;> rfl

end Attach

/-! ### Whole runs -/

/-- **One input changes the links by its attachments only.** -/
theorem links_step {s : Session} (hs : s.Intact) (i : Input) :
    (s.step i).model.links = (s.attachments i).foldl Links.attach s.model.links := by
  cases i with
  | root => rfl
  | comment tokens following =>
    have hprepare : (s.prepare tokens following).1.Intact :=
      Changes.intact (changes_prepare s tokens following) hs
    rw [step, readComment_fst, links_place tokens _ hprepare, links_prepare]
    rfl

/-- An item that an input attaches has its home there afterwards. -/
theorem home?_of_mem_attachments {s : Session} {i : Input} {a : Attachment} {L : Links}
    (h : a ∈ s.attachments i) :
    ((s.attachments i).foldl Links.attach L).home? a.kind a.item = some a.place := by
  cases i with
  | root => cases h
  | comment tokens following =>
    obtain ⟨place, hplace⟩ :=
      (s.prepare tokens following).1.exists_place (s.prepare tokens following).2
    refine Links.home?_foldl_attach h fun b hb hkind => ?_
    rw [hplace b hb, hkind, hplace a h]

/-- The links of a run grow by the attachments of its last input. -/
private theorem links_run_concat (version : String) (v : UInt32) (inputs : List Input) (i : Input) :
    ((start version v).run (inputs ++ [i])).model.links =
      (((start version v).run inputs).attachments i).foldl Links.attach
        ((start version v).run inputs).model.links := by
  have hs := (intact_start version v).run (contextKnown_start version v) inputs
  rw [← links_step hs i, run_concat]

/-- What is listed somewhere has a home. -/
private theorem isSome_home?_of_listed {version : String} {v : UInt32} {inputs : List Input}
    {kind : LinkKind} {item place : String}
    (h : item ∈ ((start version v).run inputs).model.links.listed kind place) :
    (((start version v).run inputs).model.links.home? kind item).isSome = true := by
  induction inputs using List.reverseRecOn with
  | nil => cases kind <;> cases h
  | append_singleton inputs i ih =>
    rw [links_run_concat] at h ⊢
    rcases Links.mem_listed_foldl_attach.1 h with h | hmem
    · exact Links.isSome_home?_foldl_attach (ih h)
    · rw [home?_of_mem_attachments hmem]
      rfl

/-- A listing contains what was attached to the place at some time. -/
private theorem mem_listed_iff (version : String) (v : UInt32) (inputs : List Input)
    (kind : LinkKind)
    (item place : String) :
    item ∈ ((start version v).run inputs).model.links.listed kind place ↔
      ∃ earlier, earlier <+: inputs ∧
        ((start version v).run earlier).model.links.home? kind item = some place := by
  induction inputs using List.reverseRecOn with
  | nil =>
    constructor
    · intro h
      cases kind <;> cases h
    · rintro ⟨earlier, hprefix, h⟩
      obtain rfl := List.prefix_nil.1 hprefix
      cases kind <;> cases h
  | append_singleton inputs i ih =>
    have hlinks := links_run_concat version v inputs i
    constructor
    · intro h
      rw [hlinks, Links.mem_listed_foldl_attach] at h
      rcases h with h | hmem
      · obtain ⟨earlier, hprefix, hhome⟩ := ih.1 h
        exact ⟨earlier, hprefix.trans (List.prefix_append inputs [i]), hhome⟩
      · refine ⟨inputs ++ [i], List.prefix_refl _, ?_⟩
        rw [hlinks]
        exact home?_of_mem_attachments hmem
    · rintro ⟨earlier, hprefix, h⟩
      rw [hlinks, Links.mem_listed_foldl_attach]
      rcases List.prefix_concat_iff.1 hprefix with rfl | hprefix
      · rw [hlinks] at h
        rcases Links.mem_of_home?_foldl_attach h with h | hmem
        · exact .inl (ih.2 ⟨inputs, List.prefix_refl _, h⟩)
        · exact .inr hmem
      · exact .inl (ih.2 ⟨earlier, hprefix, h⟩)

/-- **A place lists exactly the items whose home it is or was.** After every run, a module lists a
class if and only if that is the module of the class now or was so earlier in the run, and a class
that is listed has a module. So it is for the files of a module and for the classes of a file. -/
theorem listings_run (version : String) (v : UInt32) (inputs : List Input) (kind : LinkKind)
    (item place : String) :
    let L := ((start version v).run inputs).model.links
    (item ∈ L.listed kind place ↔ ∃ earlier, earlier <+: inputs ∧
      ((start version v).run earlier).model.links.home? kind item = some place) ∧
    (item ∈ L.listed kind place → ∃ home, L.home? kind item = some home) :=
  ⟨mem_listed_iff version v inputs kind item place,
    fun h => Option.isSome_iff_exists.1 (isSome_home?_of_listed h)⟩

/-- A class that is declared again under another module stays in the list of the first one. -/
theorem listed_after_moving :
    let L := ((start "1.0.0" 3).run [.comment ["@class A", "@module m"] none,
      .comment ["@class A", "@module n"] none]).model.links
    "A" ∈ L.listed .classInModule "m" ∧ "A" ∈ L.listed .classInModule "n" ∧
      L.home? .classInModule "A" = some "n" := by
  decide +kernel

end ApiDocs.Session
