import ApiDocs.Proofs.Model.Growth

/-!
# Reading comments makes the model grow

The classes of a model grow because every change makes them evolve. Its modules, files and
namespaces are looked at here, one elementary change after the other (`Change.growsAround`). So
**the model grows with every input of every run** (`grows_step`), also with a comment that fails
half-way: no key is lost, no list is cut or reordered, and what an author has set once stays.
-/

namespace ApiDocs

namespace Model

variable {m m' m'' : Model}

/-- The modules, the files and the namespaces of a model grow into those of another. -/
structure GrowsAround (m m' : Model) : Prop where
  modules : m.modules.Grows ModuleDoc.Grows m'.modules
  files : m.files.Grows FileDoc.Grows m'.files
  namespaces : m.namespaces <+: m'.namespaces

namespace GrowsAround

/-- Only the classes are touched. -/
theorem of_eq (hmodules : m'.modules = m.modules) (hfiles : m'.files = m.files)
    (hnamespaces : m'.namespaces = m.namespaces) : m.GrowsAround m' where
  modules := hmodules ▸ .refl ModuleDoc.Grows.refl _
  files := hfiles ▸ .refl FileDoc.Grows.refl _
  namespaces := hnamespaces ▸ List.prefix_refl _

theorem refl (m : Model) : m.GrowsAround m := .of_eq rfl rfl rfl

theorem trans (h : m.GrowsAround m') (h' : m'.GrowsAround m'') : m.GrowsAround m'' where
  modules := h.modules.trans ModuleDoc.Grows.trans h'.modules
  files := h.files.trans FileDoc.Grows.trans h'.files
  namespaces := h.namespaces.trans h'.namespaces

/-- A module may be changed in a way that makes it grow. -/
private theorem modifyModule (m : Model) (name : String) {f : ModuleDoc → ModuleDoc}
    (hf : ∀ d, m.modules.get? name = some d → d.Grows (f d)) :
    m.GrowsAround (m.modifyModule name f) := by
  refine { refl m with modules := fun key d hd => ?_ }
  rw [get?_modifyModule]
  split
  · rename_i hkey
    subst hkey
    rw [hd, Option.getD_some]
    exact ⟨f d, rfl, hf d hd⟩
  · exact ⟨d, hd, .refl d⟩

private theorem modifyFile (m : Model) (name : String) {f : FileDoc → FileDoc}
    (hf : ∀ d : FileDoc, d.Grows (f d)) : m.GrowsAround (m.modifyFile name f) :=
  { refl m with files := .modify FileDoc.Grows.refl _ _ fun d _ => hf d }

private theorem addFile (m : Model) (name : String) : m.GrowsAround (m.addFile name) :=
  { refl m with files := .insertNew FileDoc.Grows.refl _ _ _ }

/-- Modules are created where they are missing. -/
private theorem addModules (m : Model) (names : List String) :
    m.GrowsAround (names.foldl Model.addModule m) := by
  induction names generalizing m with
  | nil => exact .refl m
  | cons name names ih =>
    have hadd : m.GrowsAround (m.addModule name) :=
      { refl m with modules := .insertNew ModuleDoc.Grows.refl _ _ _ }
    exact hadd.trans (ih (m.addModule name))

/-- A class that is linked is added to the list of its module. -/
private theorem linkClass (m : Model) (cls mod : String) : m.GrowsAround (m.linkClass cls mod) := by
  have hclass : m.GrowsAround (m.modifyClass cls fun c => { c with inModule := some mod }) :=
    .of_eq rfl rfl rfl
  refine hclass.trans (.modifyModule _ mod fun d _ => ?_)
  exact { ModuleDoc.Grows.refl d with classList := prefix_pushNew _ _ }

/-- A file that is linked is added to the list of its module. -/
private theorem linkFile (m : Model) (file mod : String) : m.GrowsAround (m.linkFile file mod) := by
  have hfile : m.GrowsAround (m.modifyFile file fun f => { f with inModule := some mod }) :=
    .modifyFile m file fun f => { FileDoc.Grows.refl f with }
  refine hfile.trans (.modifyModule _ mod fun d _ => ?_)
  exact { ModuleDoc.Grows.refl d with fileList := prefix_pushNew _ _ }

private theorem linkAll (m : Model) (mod : String) (items : List Pending) :
    m.GrowsAround (m.linkAll mod items) := by
  induction items generalizing m with
  | nil => exact .refl m
  | cons item items ih =>
    have hlink : m.GrowsAround (m.link mod item) := by
      cases item with
      | cls name => exact .linkClass m name mod
      | file name => exact .linkFile m name mod
    exact hlink.trans (ih (m.link mod item))

end GrowsAround

end Model

namespace Session

variable {s s' : Session}

/-- A module is described once. -/
private theorem growsAround_describeModule (s : Session) (tokens : List String) (mod : String)
    (description : Option String) :
    s.model.GrowsAround (s.describeModule tokens mod description).model := by
  unfold describeModule
  dsimp only
  split
  · rename_i text
    split
    · -- the description is only given if there is none
      rename_i hempty
      refine .modifyModule s.model mod fun d hd => ?_
      rw [hd] at hempty
      have hnone : d.description = "" := String.isEmpty_iff.1 hempty
      exact { ModuleDoc.Grows.refl d with description := fun h => absurd hnone h }
    · exact .refl s.model
  · split <;> exact .refl s.model

/-- A class that claims a submodule is written into the data for it. -/
private theorem growsAround_claimSubmodule (s : Session) (cls : String)
    (description : Option String) :
    s.model.GrowsAround (s.claimSubmodule cls description).model := by
  rw [claimSubmodule]
  split
  · refine .modifyModule s.model _ fun d _ => ?_
    exact { ModuleDoc.Grows.refl d with
      subData := .insert (fun _ => trivial) fun _ _ => trivial }
  · exact .refl s.model

/-- **Every change makes the modules, the files and the namespaces grow.** -/
theorem Change.growsAround (h : Change s s') : s.model.GrowsAround s'.model := by
  have hsame : s.model.GrowsAround s.model := .refl s.model
  have hclasses (cls : String) (f : ClassDoc → ClassDoc) :
      s.model.GrowsAround (s.model.modifyClass cls f) := .of_eq rfl rfl rfl
  cases h with
  | warn => exact hsame
  | log => exact hsame
  | enterModule name => cases name <;> exact hsame
  | enterNamespace name => exact { hsame with namespaces := prefix_pushNew _ _ }
  | enterClass => exact hsame
  | defineClass tokens name =>
    rw [Session.defineClass]
    split
    · exact hsame
    · exact .of_eq rfl rfl rfl
  | addInner => exact hclasses _ _
  | enterFile name => exact .addFile s.model name
  | placeFile file known =>
    rw [Session.placeFile]
    split
    · exact .linkFile s.model file _
    · exact hsame
  | addModules names => exact .addModules s.model names
  | addSubmodule mod sub description =>
    refine .modifyModule s.model mod fun d _ => ?_
    exact { ModuleDoc.Grows.refl d with
      submodules := prefix_pushNew _ _
      subData := .insert (fun _ => trivial) fun _ _ => trivial }
  | describeModule tokens mod description =>
    exact s.growsAround_describeModule tokens mod description
  | drainInto mod => exact .linkAll s.model mod s.context.pending
  | claimSubmodule cls description => exact s.growsAround_claimSubmodule cls description
  | markGlobal tags cls known =>
    rw [Session.markGlobal]
    split <;> exact hsame
  | relateClass => exact hclasses _ _
  | placeClass cls known =>
    rw [Session.placeClass]
    split
    · exact .linkClass s.model cls _
    · exact hsame
  | listInFile cls known =>
    rw [Session.listInFile]
    split
    · exact hsame
    · rename_i file _
      refine ((hclasses cls _).trans (.addFile _ file)).trans (.modifyFile _ file fun f => ?_)
      exact { FileDoc.Grows.refl f with classList := prefix_pushNew _ _ }
  | insertMember tokens cls kind doc =>
    obtain ⟨classes, warnings, notes, heq⟩ := exists_insertMember_eq s tokens cls kind doc
    rw [heq]
    exact .of_eq rfl rfl rfl
  | insertConfig tokens cls name =>
    obtain ⟨classes, warnings, notes, heq⟩ := exists_insertConfig_eq s tokens cls name
    rw [heq]
    exact .of_eq rfl rfl rfl
  | addConstructor => exact hclasses _ _
  | applyLeftovers p ready =>
    rw [Session.applyLeftovers]
    split
    · exact hclasses _ _
    · exact hclasses _ _
    · exact .modifyModule s.model _ fun d _ => .applyTags d _
    · exact hsame
    · exact hsame
  | beginRoot => exact hsame

/-- Chains of elementary changes let the rest of the model grow. -/
private theorem Changes.growsAround (h : Changes s s') : s.model.GrowsAround s'.model := by
  induction h with
  | refl => exact .refl s.model
  | tail _ h ih => exact ih.trans h.growsAround

/-- A chain of changes makes the model grow if its events and configs agree at the start. -/
private theorem Changes.grows (h : Changes s s')
    (hagree : ∀ cls c, s.model.classes.get? cls = some c → c.EventsAgree s.model.majorVersion) :
    s.model.Grows s'.model := by
  have haround := h.growsAround
  exact ⟨h.classesEvolve.grows hagree, haround.modules, haround.files, haround.namespaces⟩

/-- After any run, a chain of changes makes the model grow. -/
theorem Changes.grows_of_run {version : String} {v : UInt32} {inputs : List Input}
    (h : Changes ((start version v).run inputs) s') :
    ((start version v).run inputs).model.Grows s'.model := by
  refine h.grows ?_
  rw [(changes_run (contextKnown_start version v) inputs).classesEvolve.version]
  exact forall_eventsAgree version v inputs

/-- **The model only grows.** After any run, whatever is read next makes the model grow, whether a
comment can be placed or fails midway. -/
theorem grows_step (version : String) (v : UInt32) (inputs : List Input) (i : Input) :
    ((start version v).run inputs).model.Grows (((start version v).run inputs).step i).model := by
  have hstart := contextKnown_start version v
  have hknown := (changes_run hstart inputs).contextKnown hstart
  exact Changes.grows_of_run (changes_step hknown i)

end Session

end ApiDocs
