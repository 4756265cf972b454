import ApiDocs.Proofs.Session.Run

/-!
# Classes, modules and files refer to each other soundly

The model keeps each link on both sides: a class names its module, and the module lists the
class. `Model.Linked` says that the two sides agree and that nothing is listed which does not
exist, `ClassDoc.Tidy` and `ModuleDoc.Tidy` that no list has duplicates. `Session.Intact` adds
what waits for a module. **Every run keeps a session intact** (`intact_run`), also one in which
comments are left half-placed by a fault.
-/

namespace ApiDocs

/-- The lists of a class that is kept under the name `key` have no duplicates, and the class is
not an inner class of itself. -/
structure ClassDoc.Tidy (key : String) (c : ClassDoc) : Prop where
  uses : c.uses.Nodup
  inner : c.innerClasses.Nodup
  notOwn : key ∉ c.innerClasses

/-- The lists of a module have no duplicates. -/
structure ModuleDoc.Tidy (d : ModuleDoc) : Prop where
  classes : d.classList.Nodup
  files : d.fileList.Nodup
  parts : d.submodules.Nodup

namespace Model

/-- A class or a file that may wait for a module exists. -/
def Has (m : Model) : Pending → Prop
  | .cls name => m.classes.contains name = true
  | .file name => m.files.contains name = true

/-- **The links of a model agree.** -/
structure Linked (m : Model) : Prop where
  /-- A class is listed by the module that it names. -/
  class_module : ∀ {cls c mod}, m.classes.get? cls = some c → c.inModule = some mod →
    ∃ d, m.modules.get? mod = some d ∧ cls ∈ d.classList
  /-- A file is listed by the module that it names. -/
  file_module : ∀ {file f mod}, m.files.get? file = some f → f.inModule = some mod →
    ∃ d, m.modules.get? mod = some d ∧ file ∈ d.fileList
  /-- A class is listed by the file that it names. -/
  class_file : ∀ {cls c file}, m.classes.get? cls = some c → c.inFile = some file →
    ∃ f, m.files.get? file = some f ∧ cls ∈ f.classList
  /-- A module lists classes that exist. -/
  module_class : ∀ {mod d cls}, m.modules.get? mod = some d → cls ∈ d.classList →
    m.classes.contains cls = true
  /-- A module lists files that exist. -/
  module_file : ∀ {mod d file}, m.modules.get? mod = some d → file ∈ d.fileList →
    m.files.contains file = true
  /-- A file lists classes that exist. -/
  file_class : ∀ {file f cls}, m.files.get? file = some f → cls ∈ f.classList →
    m.classes.contains cls = true
  /-- No list of a module has duplicates. -/
  module_tidy : ∀ {mod d}, m.modules.get? mod = some d → d.Tidy
  /-- No file lists a class twice. -/
  file_nodup : ∀ {file f}, m.files.get? file = some f → f.classList.Nodup
  /-- No namespace is listed twice. -/
  namespaces : m.namespaces.Nodup

/-- Linking takes nothing away. -/
theorem has_link {m : Model} (mod : String) (item : Pending) {item' : Pending} (h : m.Has item') :
    (m.link mod item).Has item' := by
  cases item' with
  | cls name =>
    cases item with
    | cls other => simpa [link, linkClass, Has, modifyClass] using h
    | file other => simpa [link, linkFile, Has] using h
  | file name =>
    cases item with
    | cls other => simpa [link, linkClass, Has] using h
    | file other => simpa [link, linkFile, Has, modifyFile] using h

namespace Linked

variable {m : Model}

/-- A class may be changed if each module and file that it names afterwards lists it. -/
private theorem modifyClass (h : m.Linked) {name : String} {f : ClassDoc → ClassDoc}
    (hmod : ∀ c mod, (f c).inModule = some mod → c.inModule = some mod ∨
      ∃ d, m.modules.get? mod = some d ∧ name ∈ d.classList)
    (hfile : ∀ c file, (f c).inFile = some file → c.inFile = some file ∨
      ∃ d, m.files.get? file = some d ∧ name ∈ d.classList) :
    (m.modifyClass name f).Linked := by
  have hkeep : ∀ {cls}, m.classes.contains cls = true →
      (m.modifyClass name f).classes.contains cls = true := by
    intro cls hcls
    rw [Model.modifyClass, Dict.contains_modify]
    exact hcls
  refine { h with
    class_module := ?_, class_file := ?_
    module_class := fun hd hcls => hkeep (h.module_class hd hcls)
    file_class := fun hd hcls => hkeep (h.file_class hd hcls) }
  · intro cls c' mod hc' hm
    rw [get?_modifyClass] at hc'
    obtain ⟨c, hc, rfl⟩ := Option.map_eq_some_iff.1 hc'
    split at hm
    · rename_i hname
      subst hname
      exact (hmod c mod hm).elim (h.class_module hc) id
    · exact h.class_module hc hm
  · intro cls c' file hc' hf
    rw [get?_modifyClass] at hc'
    obtain ⟨c, hc, rfl⟩ := Option.map_eq_some_iff.1 hc'
    split at hf
    · rename_i hname
      subst hname
      exact (hfile c file hf).elim (h.class_file hc) id
    · exact h.class_file hc hf

/-- Changes of a class that leave its module and its file alone keep the links. -/
private theorem editClass (h : m.Linked) (name : String) {f : ClassDoc → ClassDoc}
    (hf : ∀ c, (f c).inModule = c.inModule ∧ (f c).inFile = c.inFile) :
    (m.modifyClass name f).Linked :=
  h.modifyClass (fun c _ hm => .inl ((hf c).1 ▸ hm)) fun c _ hfile => .inl ((hf c).2 ▸ hfile)

/-- A module may be changed if its lists only grow, by what exists. -/
private theorem modifyModule (h : m.Linked) (name : String) {f : ModuleDoc → ModuleDoc}
    (hcls : ∀ d, d.classList ⊆ (f d).classList)
    (hcls' : ∀ d, ∀ x ∈ (f d).classList, x ∈ d.classList ∨ m.classes.contains x = true)
    (hfile : ∀ d, d.fileList ⊆ (f d).fileList)
    (hfile' : ∀ d, ∀ x ∈ (f d).fileList, x ∈ d.fileList ∨ m.files.contains x = true)
    (htidy : ∀ d, d.Tidy → (f d).Tidy) : (m.modifyModule name f).Linked := by
  -- every module comes from one that was there, or from an empty one
  have hback : ∀ {mod d'}, (m.modifyModule name f).modules.get? mod = some d' →
      ∃ d, (m.modules.get? mod = some d ∨ d = { name := name }) ∧ (d' = d ∨ d' = f d) := by
    intro mod d' hd'
    rw [get?_modifyModule] at hd'
    split at hd'
    · rename_i hname
      subst hname
      refine ⟨_, ?_, .inr (Option.some.inj hd').symm⟩
      cases m.modules.get? mod with
      | none => exact .inr rfl
      | some d => exact .inl rfl
    · exact ⟨d', .inl hd', .inl rfl⟩
  have hforth : ∀ {mod d}, m.modules.get? mod = some d →
      ∃ d', (m.modifyModule name f).modules.get? mod = some d' ∧
        d.classList ⊆ d'.classList ∧ d.fileList ⊆ d'.fileList := by
    intro mod d hd
    rw [get?_modifyModule]
    split
    · rename_i hname
      subst hname
      rw [hd]
      exact ⟨f d, rfl, hcls d, hfile d⟩
    · exact ⟨d, hd, List.Subset.refl _, List.Subset.refl _⟩
  refine { h with
    class_module := ?_, file_module := ?_, module_class := ?_, module_file := ?_
    module_tidy := ?_ }
  · intro cls c mod hc hm
    obtain ⟨d, hd, hmem⟩ := h.class_module hc hm
    obtain ⟨d', hd', hsub, -⟩ := hforth hd
    exact ⟨d', hd', hsub hmem⟩
  · intro file g mod hg hm
    obtain ⟨d, hd, hmem⟩ := h.file_module hg hm
    obtain ⟨d', hd', -, hsub⟩ := hforth hd
    exact ⟨d', hd', hsub hmem⟩
  · intro mod d' cls hd' hmem
    obtain ⟨d, hd, hf⟩ := hback hd'
    have hmem' : cls ∈ d.classList ∨ m.classes.contains cls = true := by
      rcases hf with rfl | rfl
      · exact .inl hmem
      · exact hcls' d cls hmem
    rcases hmem' with hmem' | hk
    · rcases hd with hd | rfl
      · exact h.module_class hd hmem'
      · exact absurd hmem' List.not_mem_nil
    · exact hk
  · intro mod d' file hd' hmem
    obtain ⟨d, hd, hf⟩ := hback hd'
    have hmem' : file ∈ d.fileList ∨ m.files.contains file = true := by
      rcases hf with rfl | rfl
      · exact .inl hmem
      · exact hfile' d file hmem
    rcases hmem' with hmem' | hk
    · rcases hd with hd | rfl
      · exact h.module_file hd hmem'
      · exact absurd hmem' List.not_mem_nil
    · exact hk
  · intro mod d' hd'
    obtain ⟨d, hd, hf⟩ := hback hd'
    have ht : d.Tidy := by
      rcases hd with hd | rfl
      · exact h.module_tidy hd
      · exact ⟨.nil, .nil, .nil⟩
    rcases hf with rfl | rfl
    · exact ht
    · exact htidy d ht

/-- Changes of a module that leave its classes and files alone keep the links. -/
private theorem describeModule (h : m.Linked) (name : String) {f : ModuleDoc → ModuleDoc}
    (hf : ∀ d, (f d).classList = d.classList ∧ (f d).fileList = d.fileList)
    (hparts : ∀ d, d.submodules.Nodup → (f d).submodules.Nodup) :
    (m.modifyModule name f).Linked := by
  refine h.modifyModule name (fun d => ?_) (fun d x hx => .inl ?_) (fun d => ?_)
    (fun d x hx => .inl ?_) fun d ht => ⟨?_, ?_, hparts d ht.parts⟩
  · rw [(hf d).1]
    exact List.Subset.refl _
  · exact (hf d).1 ▸ hx
  · rw [(hf d).2]
    exact List.Subset.refl _
  · exact (hf d).2 ▸ hx
  · exact (hf d).1.symm ▸ ht.classes
  · exact (hf d).2.symm ▸ ht.files

/-- A new module has empty lists, which agree with everything. -/
private theorem addModule (h : m.Linked) (name : String) : (m.addModule name).Linked := by
  rw [← modifyModule_id]
  exact h.describeModule name (fun _ => ⟨rfl, rfl⟩) fun _ hd => hd

private theorem addModules (h : m.Linked) (names : List String) :
    (names.foldl Model.addModule m).Linked := by
  induction names generalizing m with
  | nil => exact h
  | cons name rest ih => exact ih (h.addModule name)

/-- A file may be changed if a module that it names afterwards lists it, and its list of classes
only grows, by what exists. -/
private theorem modifyFile (h : m.Linked) {name : String} {f : FileDoc → FileDoc}
    (hmod : ∀ d mod, (f d).inModule = some mod → d.inModule = some mod ∨
      ∃ e, m.modules.get? mod = some e ∧ name ∈ e.fileList)
    (hcls : ∀ d, d.classList ⊆ (f d).classList)
    (hcls' : ∀ d, ∀ x ∈ (f d).classList, x ∈ d.classList ∨ m.classes.contains x = true)
    (hnodup : ∀ d, d.classList.Nodup → (f d).classList.Nodup) :
    (m.modifyFile name f).Linked := by
  refine { h with
    file_module := ?_, class_file := ?_, module_file := ?_, file_class := ?_, file_nodup := ?_ }
  · intro file d' mod hd' hm
    rw [get?_modifyFile] at hd'
    obtain ⟨d, hd, rfl⟩ := Option.map_eq_some_iff.1 hd'
    split at hm
    · rename_i hname
      subst hname
      exact (hmod d mod hm).elim (h.file_module hd) id
    · exact h.file_module hd hm
  · intro cls c file hc hf
    obtain ⟨d, hd, hmem⟩ := h.class_file hc hf
    rw [get?_modifyFile, hd, Option.map_some]
    refine ⟨_, rfl, ?_⟩
    split
    · exact hcls d hmem
    · exact hmem
  · intro mod d file hd hmem
    rw [Model.modifyFile, Dict.contains_modify]
    exact h.module_file hd hmem
  · intro file d' cls hd' hmem
    rw [get?_modifyFile] at hd'
    obtain ⟨d, hd, rfl⟩ := Option.map_eq_some_iff.1 hd'
    split at hmem
    · exact (hcls' d cls hmem).elim (h.file_class hd) id
    · exact h.file_class hd hmem
  · intro file d' hd'
    rw [get?_modifyFile] at hd'
    obtain ⟨d, hd, rfl⟩ := Option.map_eq_some_iff.1 hd'
    split
    · exact hnodup d (h.file_nodup hd)
    · exact h.file_nodup hd

/-- A new file has an empty list, and no module. -/
private theorem addFile (h : m.Linked) (name : String) : (m.addFile name).Linked := by
  -- a file that was not there names no module and lists no class
  have hback : ∀ {file d'}, (m.addFile name).files.get? file = some d' →
      m.files.get? file = some d' ∨ d' = { name := name } := by
    intro file d' hd'
    rw [get?_addFile] at hd'
    split at hd'
    · rename_i hname
      subst hname
      cases hm : m.files.get? file with
      | none => exact .inr (by simpa [hm] using hd'.symm)
      | some d => exact .inl (by simpa [hm] using hd')
    · exact .inl hd'
  refine { h with
    file_module := ?_, class_file := ?_, module_file := ?_, file_class := ?_, file_nodup := ?_ }
  · intro file d mod hd hm
    rcases hback hd with hd | rfl
    · exact h.file_module hd hm
    · exact absurd hm (by simp)
  · intro cls c file hc hf
    obtain ⟨d, hd, hmem⟩ := h.class_file hc hf
    rw [get?_addFile]
    split
    · rename_i hname
      subst hname
      exact ⟨d, by rw [hd, Option.getD_some], hmem⟩
    · exact ⟨d, hd, hmem⟩
  · intro mod d file hd hmem
    rw [Model.addFile, Dict.contains_insertNew, h.module_file hd hmem, Bool.or_true]
  · intro file d cls hd hmem
    rcases hback hd with hd | rfl
    · exact h.file_class hd hmem
    · exact absurd hmem List.not_mem_nil
  · intro file d hd
    rcases hback hd with hd | rfl
    · exact h.file_nodup hd
    · exact .nil

/-- A class that names no module and no file may be added. -/
private theorem insertClass (h : m.Linked) {key : String} {c : ClassDoc} (hmod : c.inModule = none)
    (hfile : c.inFile = none) :
    Linked { m with classes := m.classes.insert key c } := by
  have hkeep : ∀ {cls}, m.classes.contains cls = true →
      (m.classes.insert key c).contains cls = true := by
    intro cls hcls
    rw [Dict.contains_insert, hcls, Bool.or_true]
  refine { h with
    class_module := ?_, class_file := ?_
    module_class := fun hd hcls => hkeep (h.module_class hd hcls)
    file_class := fun hd hcls => hkeep (h.file_class hd hcls) }
  · intro cls c' mod hc' hm
    rw [Dict.get?_insert] at hc'
    split at hc'
    · cases hc'
      exact absurd hm (by simp [hmod])
    · exact h.class_module hc' hm
  · intro cls c' file hc' hf
    rw [Dict.get?_insert] at hc'
    split at hc'
    · cases hc'
      exact absurd hf (by simp [hfile])
    · exact h.class_file hc' hf

/-! ### Linking -/

private theorem linkClass (h : m.Linked) {cls : String} (hk : m.classes.contains cls = true)
    (mod : String) : (m.linkClass cls mod).Linked := by
  have hlist : (m.modifyModule mod fun d =>
      { d with classList := pushNew d.classList cls }).Linked := by
    refine h.modifyModule mod (fun d x hx => mem_pushNew.2 (.inl hx)) (fun d x hx => ?_)
      (fun d x hx => hx) (fun d x hx => .inl hx)
      fun d ht => ⟨nodup_pushNew ht.classes cls, ht.files, ht.parts⟩
    rcases mem_pushNew.1 hx with hx | rfl
    · exact .inl hx
    · exact .inr hk
  -- the two sides do not meet, so the class may be listed before it names its module
  have hswap : m.linkClass cls mod = (m.modifyModule mod fun d =>
      { d with classList := pushNew d.classList cls }).modifyClass cls fun c =>
        { c with inModule := some mod } := rfl
  rw [hswap]
  refine hlist.modifyClass (fun c mod' hm => .inr ?_) fun c file hf => .inl hf
  cases hm
  rw [get?_modifyModule, if_pos rfl]
  exact ⟨_, rfl, mem_pushNew.2 (.inr rfl)⟩

/-- A file that moves to a module is listed there; the lists of other modules may keep it. -/
private theorem linkFile (h : m.Linked) {file : String} (hk : m.files.contains file = true)
    (mod : String) : (m.linkFile file mod).Linked := by
  have hlist : (m.modifyModule mod fun d =>
      { d with fileList := pushNew d.fileList file }).Linked := by
    refine h.modifyModule mod (fun d x hx => hx) (fun d x hx => .inl hx)
      (fun d x hx => mem_pushNew.2 (.inl hx)) (fun d x hx => ?_)
      fun d ht => ⟨ht.classes, nodup_pushNew ht.files file, ht.parts⟩
    rcases mem_pushNew.1 hx with hx | rfl
    · exact .inl hx
    · exact .inr hk
  have hswap : m.linkFile file mod = (m.modifyModule mod fun d =>
      { d with fileList := pushNew d.fileList file }).modifyFile file fun f =>
        { f with inModule := some mod } := rfl
  rw [hswap]
  refine hlist.modifyFile (fun d mod' hm => .inr ?_) (fun d x hx => hx)
    (fun d x hx => .inl hx) fun d hd => hd
  cases hm
  rw [get?_modifyModule, if_pos rfl]
  exact ⟨_, rfl, mem_pushNew.2 (.inr rfl)⟩

/-- Whatever waits may be linked as long as it exists. -/
private theorem link (h : m.Linked) {item : Pending} (hk : m.Has item) (mod : String) :
    (m.link mod item).Linked := by
  cases item with
  | cls name => exact h.linkClass hk mod
  | file name => exact h.linkFile hk mod

private theorem linkAll (h : m.Linked) (mod : String) {items : List Pending}
    (hk : ∀ item ∈ items, m.Has item) : (m.linkAll mod items).Linked := by
  induction items generalizing m with
  | nil => exact h
  | cons item rest ih =>
    refine ih (h.link (hk item List.mem_cons_self) mod) fun item' hi => ?_
    exact has_link mod item (hk item' (List.mem_cons_of_mem item hi))

/-- A class that gets a file is listed by it. -/
private theorem listInFile (h : m.Linked) {cls : String} (hk : m.classes.contains cls = true)
    (file : String) :
    (((m.modifyClass cls fun c => { c with inFile := some file }).addFile file).modifyFile file
      fun f => { f with classList := pushNew f.classList cls }).Linked := by
  have hlist : ((m.addFile file).modifyFile file fun f =>
      { f with classList := pushNew f.classList cls }).Linked := by
    refine (h.addFile file).modifyFile (fun d mod hm => .inl hm)
      (fun d x hx => mem_pushNew.2 (.inl hx)) (fun d x hx => ?_)
      fun d hd => nodup_pushNew hd cls
    rcases mem_pushNew.1 hx with hx | rfl
    · exact .inl hx
    · exact .inr hk
  -- as with a module, the list is made first
  change (((m.addFile file).modifyFile file fun f =>
    { f with classList := pushNew f.classList cls }).modifyClass cls fun c =>
      { c with inFile := some file }).Linked
  refine hlist.modifyClass (fun c mod hm => .inl hm) fun c file' hf => .inr ?_
  cases hf
  rw [get?_modifyFile, get?_addFile, if_pos rfl, Option.map_some, if_pos rfl]
  exact ⟨_, rfl, mem_pushNew.2 (.inr rfl)⟩

end Linked

end Model

/-! ### Lists of a class and of a module -/

/-- Tags of a module touch its title, its description and its attributes only. -/
theorem ModuleDoc.exists_applyTags_eq (d : ModuleDoc) (tags : List (String × String)) :
    ∃ title description attributes, d.applyTags tags =
      { d with title := title, description := description, attributes := attributes } := by
  induction tags generalizing d with
  | nil => exact ⟨_, _, _, rfl⟩
  | cons t rest ih =>
    obtain ⟨title, description, attributes, h⟩ := ih (d.applyTag t.1 t.2)
    refine ⟨title, description, attributes, h.trans ?_⟩
    unfold applyTag
    split <;> rfl

namespace ClassDoc.Tidy

variable {v : UInt32} {key : String} {c c' : ClassDoc}

/-- A new class has no lists yet. -/
private theorem of_fresh (h : c.Fresh key) : c.Tidy key := by
  obtain ⟨ns, name, -, hc⟩ := h
  rw [hc]
  exact ⟨.nil, .nil, List.not_mem_nil⟩

/-- Only the lists matter. -/
theorem of_eq (h : c.Tidy key) (hu : c'.uses = c.uses) (hi : c'.innerClasses = c.innerClasses) :
    c'.Tidy key :=
  ⟨hu ▸ h.uses, hi ▸ h.inner, hi ▸ h.notOwn⟩

/-- Derived events are no part of the lists. -/
private theorem addNewEvents (h : c.Tidy key) (events : List MemberDoc) :
    (c.addNewEvents events).Tidy key := by
  obtain ⟨all, hall⟩ := c.exists_addNewEvents_eq events
  rw [hall]
  exact h.of_eq rfl rfl

/-- Members are no part of the lists. -/
private theorem setMembers (h : c.Tidy key) (kind : MemberKind) (ms : Dict MemberDoc) :
    (c.setMembers kind ms).Tidy key := by
  cases kind <;> exact h.of_eq rfl rfl

/-- **Edits keep a class tidy.** -/
theorem edit (h : c.Tidy key) (e : Edit v key c c') : c'.Tidy key := by
  cases e with
  | setModule mod => exact h.of_eq rfl rfl
  | setFile file => exact h.of_eq rfl rfl
  | addInner inner other =>
    refine ⟨h.uses, nodup_pushNew h.inner inner, fun hmem => ?_⟩
    rcases mem_pushNew.1 hmem with hmem | heq
    · exact h.notOwn hmem
    · exact other heq
  | relate tags inner other =>
    refine ⟨nodup_foldl_pushNew h.uses _, nodup_foldl_pushNew h.inner _, fun hmem => ?_⟩
    rcases mem_foldl_pushNew.1 hmem with hmem | hmem
    · exact h.notOwn hmem
    · exact other (Option.mem_toList.1 hmem)
  | insertMember kind doc => exact h.setMembers kind _
  | insertConfig name free => exact (h.setMembers .config _).addNewEvents _
  | repeatConfig name taken => exact h.addNewEvents _
  | addConstructor doc => exact h.of_eq rfl rfl
  | applyTags tags =>
    obtain ⟨access, description, deprecated, attributes, htags⟩ := c.exists_applyTags_eq tags
    rw [htags]
    exact h.of_eq rfl rfl
  | tagMember kind name tags written => exact h.setMembers kind _

end ClassDoc.Tidy

/-! ### Sessions -/

namespace Session

/-- **A session is intact**: the links of its model agree, its lists have no duplicates, and
what waits for a module exists and waits once. -/
structure Intact (s : Session) : Prop where
  links : s.model.Linked
  classes : ∀ key c, s.model.classes.get? key = some c → c.Tidy key
  waiting : ∀ item ∈ s.context.pending, s.model.Has item
  waiting_nodup : s.context.pending.Nodup

section Changes

variable {s s' : Session}

/-- The classes of an intact session stay tidy. -/
private theorem Intact.tidy_of_change (hs : s.Intact) (h : Change s s') :
    ∀ key c, s'.model.classes.get? key = some c → c.Tidy key :=
  h.classesEvolve.forall_classes (fun _ _ hc => .of_fresh hc) (fun _ _ _ e hc => hc.edit e)
    hs.classes

/-- Where nothing new waits and no file is lost, only the links have to be looked at. -/
private theorem Intact.of_change (hs : s.Intact) (h : Change s s') (hl : s'.model.Linked)
    (hf : ∀ file, s.model.files.contains file = true → s'.model.files.contains file = true)
    (hp : s'.context.pending = s.context.pending) : s'.Intact where
  links := hl
  classes := hs.tidy_of_change h
  waiting item hi := by
    have hold := hs.waiting item (hp ▸ hi)
    cases item with
    | cls name => exact h.classesEvolve.kept name hold
    | file name => exact hf name hold
  waiting_nodup := hp ▸ hs.waiting_nodup

/-- Something that exists may be let wait. -/
private theorem Intact.defer (hs : s.Intact) (notes : List Note) {item : Pending}
    (hk : s.model.Has item) : ((s.log notes).defer item).Intact where
  links := hs.links
  classes := hs.classes
  waiting x hx := by
    rcases Pending.mem_defer.1 hx with hx | rfl
    · exact hs.waiting x hx
    · exact hk
  waiting_nodup := Pending.nodup_defer hs.waiting_nodup item

/-- A member that is inserted takes no part in the links. -/
private theorem linked_insertMember (hl : s.model.Linked) (tokens : List String) {cls : String}
    (kind : MemberKind) (doc : MemberDoc) (hk : s.Knows cls) :
    (s.insertMember tokens cls kind doc).model.Linked := by
  obtain ⟨c, hc⟩ := Dict.contains_iff.1 hk
  by_cases hw : c.HasWritten kind doc.name
  · rwa [model_insertMember_of_written tokens doc hc hw]
  · rw [model_insertMember_of_free tokens doc hc hw]
    exact hl.editClass cls fun c => by cases kind <;> exact ⟨rfl, rfl⟩

/-- A config takes no part in the links, nor do its events. -/
private theorem linked_insertConfig (hl : s.model.Linked) (tokens : List String) {cls : String}
    (name : String) (hk : s.Knows cls) : (s.insertConfig tokens cls name).model.Linked := by
  obtain ⟨c, hc, -⟩ := written_insertMember tokens .config { name } hk rfl
  rw [insertConfig, model_foldl_addDerivedEvent hc]
  exact (linked_insertMember hl tokens .config { name } hk).editClass cls fun c =>
    c.links_addNewEvents _

/-- The tags that are left of a comment are about no link. -/
private theorem linked_applyLeftovers (hl : s.model.Linked) (p : Placed) :
    (s.applyLeftovers p).model.Linked := by
  rw [applyLeftovers]
  split
  · rename_i name _
    exact hl.editClass name fun c => c.links_applyTags _
  · rename_i cls kind name _
    exact hl.editClass cls fun c => by cases kind <;> exact ⟨rfl, rfl⟩
  · rename_i name _
    refine hl.describeModule name (fun d => ?_) fun d hd => ?_
    · obtain ⟨title, description, attributes, h⟩ := d.exists_applyTags_eq p.tags.leftovers
      rw [h]
      exact ⟨rfl, rfl⟩
    · obtain ⟨title, description, attributes, h⟩ := d.exists_applyTags_eq p.tags.leftovers
      rw [h]
      exact hd
  · exact hl
  · exact hl

/-- What waits is put into a module all at once. -/
private theorem Intact.drainInto (hs : s.Intact) (mod : String) : (s.drainInto mod).Intact where
  links := hs.links.linkAll mod hs.waiting
  classes := hs.tidy_of_change (.drainInto s mod)
  waiting _ hi := absurd hi List.not_mem_nil
  waiting_nodup := .nil

/-- A class that is placed is linked to the open module or waits for one. -/
private theorem Intact.placeClass (hs : s.Intact) {cls : String} (hk : s.Knows cls) :
    (s.placeClass cls).Intact := by
  -- the change is taken as a whole before its cases are told apart
  have h := Change.placeClass s cls hk
  revert h
  rw [Session.placeClass]
  split
  · intro h
    exact hs.of_change h (hs.links.linkClass hk _) (fun _ hf => hf) rfl
  · intro _
    have hk' : s.model.Has (.cls cls) := hk
    exact hs.defer _ hk'

/-- A file that is placed is linked to the open module or waits for one. -/
private theorem Intact.placeFile (hs : s.Intact) {file : String}
    (hk : s.model.files.contains file = true) : (s.placeFile file).Intact := by
  have h := Change.placeFile s file hk
  revert h
  rw [Session.placeFile]
  split
  · intro h
    refine hs.of_change h (hs.links.linkFile hk _) (fun name hf => ?_) rfl
    simpa [Model.linkFile, Model.modifyFile] using hf
  · intro _
    have hk' : s.model.Has (.file file) := hk
    exact hs.defer _ hk'

/-- A class with a current file is listed by it. -/
private theorem Intact.listInFile (hs : s.Intact) {cls : String} (hk : s.Knows cls) :
    (s.listInFile cls).Intact := by
  have h := Change.listInFile s cls hk
  revert h
  rw [Session.listInFile]
  split
  · exact fun _ => hs
  · intro h
    refine hs.of_change h (hs.links.listInFile hk _) (fun name hf => ?_) rfl
    simp [Model.modifyFile, Model.addFile, Model.modifyClass, hf]

private theorem files_addModules (m : Model) (names : List String) :
    (names.foldl Model.addModule m).files = m.files := by
  obtain ⟨modules, heq⟩ := m.exists_addModules_eq names
  rw [heq]

/-- **Every change keeps a session intact.** -/
theorem Change.intact (h : Change s s') (hs : s.Intact) : s'.Intact := by
  have keep := fun hl hf hp => hs.of_change h hl hf hp
  have same : ∀ file, s.model.files.contains file = true → s.model.files.contains file = true :=
    fun _ hf => hf
  cases h with
  | warn => exact keep hs.links same rfl
  | log => exact keep hs.links same rfl
  | enterModule name => cases name <;> exact keep hs.links same rfl
  | enterNamespace name =>
    exact keep { hs.links with namespaces := nodup_pushNew hs.links.namespaces name } same rfl
  | enterClass => exact keep hs.links same rfl
  | defineClass tokens name =>
    revert keep
    rw [Session.defineClass]
    split <;> intro keep
    · exact keep hs.links same rfl
    · exact keep (hs.links.insertClass rfl rfl) same rfl
  | addInner outer inner other =>
    exact keep (hs.links.editClass outer fun _ => ⟨rfl, rfl⟩) same rfl
  | enterFile name =>
    refine keep (hs.links.addFile name) (fun file hf => ?_) rfl
    simp [Session.enterFile, Model.addFile, hf]
  | placeFile file known => exact hs.placeFile known
  | addModules names =>
    refine keep (hs.links.addModules names) (fun file hf => ?_) rfl
    rwa [Session.addModules, files_addModules]
  | addSubmodule mod sub description =>
    refine keep (hs.links.describeModule mod (fun _ => ⟨rfl, rfl⟩) ?_) same rfl
    exact fun d hd => nodup_pushNew hd sub
  | describeModule tokens mod description =>
    revert keep
    unfold Session.describeModule
    cases description with
    | none =>
      dsimp only
      split <;> exact fun keep => keep hs.links same rfl
    | some text =>
      dsimp only
      split <;> intro keep
      · refine keep ?_ same rfl
        exact hs.links.describeModule mod (fun _ => ⟨rfl, rfl⟩) fun _ hd => hd
      · exact keep hs.links same rfl
  | drainInto mod => exact hs.drainInto mod
  | claimSubmodule cls description =>
    revert keep
    rw [Session.claimSubmodule]
    split <;> intro keep
    · refine keep ?_ same rfl
      exact hs.links.describeModule _ (fun _ => ⟨rfl, rfl⟩) fun _ hd => hd
    · exact keep hs.links same rfl
  | markGlobal tags cls known =>
    revert keep
    rw [Session.markGlobal]
    split <;> exact fun keep => keep hs.links same rfl
  | relateClass cls tags inner other =>
    exact keep (hs.links.editClass cls fun _ => ⟨rfl, rfl⟩) same rfl
  | placeClass cls known => exact hs.placeClass known
  | listInFile cls known => exact hs.listInFile known
  | insertMember tokens cls kind doc known =>
    obtain ⟨classes, warnings, notes, heq⟩ := exists_insertMember_eq s tokens cls kind doc
    exact keep (linked_insertMember hs.links tokens kind doc known) (by rwa [heq]) (by rw [heq])
  | insertConfig tokens cls name known =>
    obtain ⟨classes, warnings, notes, heq⟩ := exists_insertConfig_eq s tokens cls name
    exact keep (linked_insertConfig hs.links tokens name known) (by rwa [heq]) (by rw [heq])
  | addConstructor cls doc known =>
    exact keep (hs.links.editClass cls fun _ => ⟨rfl, rfl⟩) same rfl
  | applyLeftovers p ready =>
    have hl := linked_applyLeftovers hs.links p
    revert keep hl
    rw [Session.applyLeftovers]
    split <;> exact fun keep hl => keep hl same rfl
  | beginRoot => exact keep hs.links same rfl

/-- Chains of elementary changes keep everything intact. -/
theorem Changes.intact (h : Changes s s') (hs : s.Intact) : s'.Intact := by
  induction h with
  | refl => exact hs
  | tail _ h ih => exact h.intact ih

/-- A run keeps everything intact. -/
theorem Intact.run (hs : s.Intact) (hcontext : s.ContextKnown) (inputs : List Input) :
    (s.run inputs).Intact :=
  Changes.intact (changes_run hcontext inputs) hs

end Changes

/-- An empty model has nothing that could disagree. -/
private theorem linked_start (version : String) (v : UInt32) : (start version v).model.Linked where
  class_module h := absurd h (by simp [start])
  file_module h := absurd h (by simp [start])
  class_file h := absurd h (by simp [start])
  module_class h := absurd h (by simp [start])
  module_file h := absurd h (by simp [start])
  file_class h := absurd h (by simp [start])
  module_tidy h := absurd h (by simp [start])
  file_nodup h := absurd h (by simp [start])
  namespaces := .nil

theorem intact_start (version : String) (v : UInt32) : (start version v).Intact where
  links := linked_start version v
  classes key c hc := absurd hc (by simp [start])
  waiting item hi := absurd hi List.not_mem_nil
  waiting_nodup := .nil

/-- **Referential integrity.** After every run, whatever its comments are and whether they can be
placed or not, the session is intact. -/
theorem intact_run (version : String) (v : UInt32) (inputs : List Input) :
    ((start version v).run inputs).Intact :=
  (intact_start version v).run (contextKnown_start version v) inputs

end Session

end ApiDocs
