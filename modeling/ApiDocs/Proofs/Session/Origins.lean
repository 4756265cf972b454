import ApiDocs.Proofs.Session.Draining

/-!
# Where names come from

Classes, namespaces and modules are known by name, and there are few places in a comment where a
name can come up. `Session.KeepsNames` is what the rest of a comment does: the namespaces and the
classes stay, each class in its namespace, and a module that is new is the open one or is named by
the comment.

So **a class comes up exactly if a comment defines it**, and it is put into the namespace that holds
for that comment (`namespaceOf?_step`). A comment defines the class that it declares, or else the
class that it is written for. **Every module is named by some comment** (`named_of_contains_run`).
-/

namespace ApiDocs

namespace Model

variable {m : Model}

/-- The namespace of a class. -/
def namespaceOf? (m : Model) (cls : String) : Option String :=
  (m.classes.get? cls).map (·.inNamespace)

/-- A class exists exactly if it has a namespace. -/
theorem contains_iff_namespaceOf? {cls : String} :
    m.classes.contains cls = true ↔ (m.namespaceOf? cls).isSome = true := by
  rw [namespaceOf?, Option.isSome_map]
  exact Iff.rfl

/-- Only changes of its own namespace count for a class. -/
private theorem namespaceOf?_modifyClass (m : Model) (name : String) {f : ClassDoc → ClassDoc}
    (hf : ∀ c, (f c).inNamespace = c.inNamespace) :
    (m.modifyClass name f).namespaceOf? = m.namespaceOf? := by
  funext cls
  rw [namespaceOf?, get?_modifyClass, Option.map_map, namespaceOf?]
  cases m.classes.get? cls with
  | none => rfl
  | some c => by_cases hcls : cls = name <;> simp [hcls, hf]

/-- A module that is changed is there afterwards; otherwise none comes up. -/
private theorem contains_modules_modifyModule {name mod : String} {f : ModuleDoc → ModuleDoc} :
    (m.modifyModule name f).modules.contains mod = true ↔
      m.modules.contains mod = true ∨ mod = name := by
  rw [Dict.contains, get?_modifyModule]
  by_cases hmod : mod = name
  · simp [hmod]
  · rw [if_neg hmod, or_iff_left hmod]
    exact Iff.rfl

end Model

/-- The modules that an input names. -/
def Input.moduleNames : Input → List String
  | .comment tokens _ => (collect tokens).tags.moduleNames
  | .root => []

/-- A comment has the tag of its subject. -/
private theorem Subject.contains_word {tags : TagMap} (h : ofTags tags ≠ nothing) :
    tags.contains (ofTags tags).word = true := by
  revert h
  rw [ofTags]
  split
  · rename_i e hfind
    have hword : ∀ e ∈ precedence, e.1 = e.2.word := by decide
    have hcontains := List.find?_some hfind
    rw [hword e (List.mem_of_find?_eq_some hfind)] at hcontains
    exact fun _ => hcontains
  · intro h
    exact absurd rfl h

namespace Session

/-! ### Parts of a comment that bring in no name -/

/-- **No name comes up** but that of a module that is open or `named`. -/
structure KeepsNames (named : List String) (s s' : Session) : Prop where
  inModule : s'.context.inModule = s.context.inModule
  inNamespace : s'.context.inNamespace = s.context.inNamespace
  namespaces : s'.model.namespaces = s.model.namespaces
  /-- No class is new, and each stays in its namespace. -/
  classes : s'.model.namespaceOf? = s.model.namespaceOf?
  modules : ∀ mod, s'.model.modules.contains mod = true →
    s.model.modules.contains mod = true ∨ s.context.inModule = some mod ∨ mod ∈ named

namespace KeepsNames

variable {named : List String} {s s' s'' : Session}

/-- A step that leaves the names of the context and of the model alone brings in none. -/
theorem of_same (hmodule : s'.context.inModule = s.context.inModule)
    (hnamespace : s'.context.inNamespace = s.context.inNamespace)
    (hnamespaces : s'.model.namespaces = s.model.namespaces)
    (hclasses : s'.model.namespaceOf? = s.model.namespaceOf?)
    (hmodules : s'.model.modules = s.model.modules) : KeepsNames named s s' :=
  ⟨hmodule, hnamespace, hnamespaces, hclasses, fun _ h => .inl (hmodules ▸ h)⟩

theorem refl (s : Session) : KeepsNames named s s := .of_same rfl rfl rfl rfl rfl

theorem trans (h : KeepsNames named s s') (h' : KeepsNames named s' s'') :
    KeepsNames named s s'' where
  inModule := h'.inModule.trans h.inModule
  inNamespace := h'.inNamespace.trans h.inNamespace
  namespaces := h'.namespaces.trans h.namespaces
  classes := h'.classes.trans h.classes
  modules mod hmod := by
    rcases h'.modules mod hmod with hmod | hopen | hnamed
    · exact h.modules mod hmod
    · exact .inr (.inl (h.inModule ▸ hopen))
    · exact .inr (.inr hnamed)

/-- Nothing in the model but its modules is touched, and those that are new are open or named. -/
private theorem of_modules (hcontext : s'.context.inModule = s.context.inModule)
    (hnamespace : s'.context.inNamespace = s.context.inNamespace)
    (hnamespaces : s'.model.namespaces = s.model.namespaces)
    (hclasses : s'.model.classes = s.model.classes)
    (hmodules : ∀ mod, s'.model.modules.contains mod = true →
      s.model.modules.contains mod = true ∨ s.context.inModule = some mod ∨ mod ∈ named) :
    KeepsNames named s s' :=
  ⟨hcontext, hnamespace, hnamespaces, by funext cls; rw [Model.namespaceOf?, hclasses]; rfl,
    hmodules⟩

end KeepsNames

/-- Every single write of a comment brings in no name. -/
private theorem Write.keepsNames {named : List String} {part : Option Part} {s s' : Session}
    (h : Write named part s s') : KeepsNames named s s' := by
  cases h with
  | seek | redefine | remember | defer | drain | modifyFile | addFile | enterFile =>
    exact .of_same rfl rfl rfl rfl rfl
  | modifyClass _ cls | relateClass _ cls =>
    exact .of_same rfl rfl rfl (s.model.namespaceOf?_modifyClass cls fun _ => rfl) rfl
  | insertMember _ cls kind | tagMember _ cls kind =>
    exact .of_same rfl rfl rfl (s.model.namespaceOf?_modifyClass cls fun c => by cases kind <;> rfl)
      rfl
  | tagClass _ cls tags =>
    refine .of_same rfl rfl rfl (s.model.namespaceOf?_modifyClass cls fun c => ?_) rfl
    obtain ⟨access, description, deprecated, attributes, heq⟩ := c.exists_applyTags_eq tags
    rw [heq]
  | modifyModule _ _ _ _ _ opened | describePart _ _ _ _ opened | tagModule _ _ _ opened =>
    refine .of_modules rfl rfl rfl rfl fun other hother => ?_
    rcases Model.contains_modules_modifyModule.1 hother with hold | rfl
    · exact .inl hold
    · exact .inr opened

/-- All that a comment writes brings in no name but those of its modules. -/
private theorem Writes.keepsNames {named : List String} {parts : List Part} {s s' : Session}
    (h : Writes named parts s s') : KeepsNames named s s' :=
  h.rel .refl (fun _ _ _ => .trans) fun _ _ _ _ h => h.keepsNames

/-! ### Classes -/

section Classes

variable (s : Session) (tokens : List String) (tags : TagMap)

/-- The class that a comment is written for, as it is given. A comment about a class belongs to
that one. -/
def writtenFor : Option String :=
  let tags := (collect tokens).tags
  if tags.contains "class" then none else tags.first "for"

/-- The namespace that holds for a comment: its own, or else the current one. -/
def namespaceFor : String := ((collect tokens).tags.name? "namespace").getD s.namespaceName

/-- The inner class that comes up because a comment is written for it. -/
def innerFor : Option String :=
  (writtenFor tokens).bind fun name =>
    if s.model.classes.contains name then none
    else some (qualify (s.namespaceFor tokens) name).2

/-- A comment that is written for a class is not about one. -/
theorem subject_ne_cls_of_writtenFor {name : String} (h : writtenFor tokens = some name)
    (following : Option String) : Subject.ofTags (s.prepare tokens following).2 ≠ .cls := by
  have hclass : (collect tokens).tags.contains "class" = false := by
    rw [writtenFor] at h
    split at h
    · cases h
    · rename_i hclass
      simpa using hclass
  have hprepared : Dict.contains (s.prepare tokens following).2 "class" = false := by
    rw [Dict.contains, s.get?_prepare tokens following (by decide)]
    exact hclass
  intro hsubject
  have hnamed : Subject.ofTags (s.prepare tokens following).2 ≠ .nothing := by
    rw [hsubject]
    decide
  have hcontains := Subject.contains_word hnamed
  rw [hsubject] at hcontains
  exact absurd hcontains (by rw [Subject.word, hprepared]; decide)

/-- A comment that is written for a class declares none. -/
theorem declares_of_innerFor (following : Option String) {cls : String}
    (h : s.innerFor tokens = some cls) : s.declares tokens following = none := by
  obtain ⟨name, hname, -⟩ := Option.bind_eq_some_iff.1 h
  show (s.prepare tokens following).1.declaredClass (s.prepare tokens following).2 = none
  rw [declaredClass]
  split
  · rename_i hsubject
    exact absurd hsubject (s.subject_ne_cls_of_writtenFor tokens hname following)
  · rfl

/-- The class that an input defines unless it exists: the class that a comment is written for, or
the one that it declares. -/
def defines : Input → Option String
  | .comment tokens following => s.innerFor tokens <|> s.declares tokens following
  | .root => none

/-- The session after the module and the namespace of a comment were taken in. -/
def opened : Session :=
  ((s.warnAll tokens (collect tokens).warnings).enterModule
    (collect tokens).inModule).applyNamespace (collect tokens).tags

/-- A comment is prepared by going to the class that it is written for, if there is one. -/
private theorem seeks_prepare (following : Option String) :
    ((writtenFor tokens).elim (s.opened tokens) ((s.opened tokens).enterFor tokens)).Seeks
      (s.prepare tokens following).1 := by
  have hfor : TagMap.first ((collect tokens).tags.erase "namespace") "for" =
      (collect tokens).tags.first "for" := by
    rw [TagMap.first_erase, if_neg (by decide)]
  have hclass : Dict.contains ((collect tokens).tags.erase "namespace") "class" =
      (collect tokens).tags.contains "class" := Dict.contains_erase_of_ne _ (by decide)
  rw [prepare, writtenFor, hfor, hclass]
  cases (collect tokens).tags.first "for" with
  | none => rw [ite_self]; exact seeks_guessSubject _ _ _
  | some name =>
    dsimp only
    split
    · exact seeks_guessSubject _ _ _
    · exact seeks_guessSubject _ _ _

/-- A comment may add its own namespace. -/
theorem opened_namespaces :
    (s.opened tokens).context.inNamespace =
        ((collect tokens).tags.name? "namespace" <|> s.context.inNamespace) ∧
      (s.opened tokens).model.namespaces =
        ((collect tokens).tags.name? "namespace").toList.foldl pushNew s.model.namespaces ∧
      (s.opened tokens).model.classes = s.model.classes := by
  obtain ⟨s₁, hs₁⟩ : ∃ s₁, s₁ = s.warnAll tokens (collect tokens).warnings := ⟨_, rfl⟩
  obtain ⟨s₂, hs₂⟩ : ∃ s₂, s₂ = s₁.enterModule (collect tokens).inModule := ⟨_, rfl⟩
  have hwarn : s.Seeks s₁ := hs₁ ▸ s.seeks_warnAll tokens fun _ => warnings_collect
  have hsame : s₂.context.inNamespace = s.context.inNamespace ∧ s₂.model = s.model := by
    obtain ⟨_, _, _, _, rfl⟩ := hwarn
    rw [hs₂]
    cases (collect tokens).inModule <;> exact ⟨rfl, rfl⟩
  rw [opened, ← hs₁, ← hs₂, applyNamespace, ← hsame.1, ← hsame.2]
  cases (collect tokens).tags.name? "namespace" <;> exact ⟨rfl, rfl, rfl⟩

/-- The namespace of a comment is the current one once the comment is prepared. -/
theorem namespaceName_opened : (s.opened tokens).namespaceName = s.namespaceFor tokens := by
  rw [namespaceName, (s.opened_namespaces tokens).1, namespaceFor, namespaceName]
  cases (collect tokens).tags.name? "namespace" <;> rfl

/-- Defining a class puts it into the current namespace, unless it is in one already. -/
private theorem namespaceOf?_defineClass (name cls : String) :
    (s.defineClass tokens name).model.namespaceOf? cls =
      (s.model.namespaceOf? cls).or
        (if s.fullName name = cls then some s.namespaceName else none) := by
  rw [defineClass]
  split
  · rename_i hknown
    show s.model.namespaceOf? cls = _
    split
    · rename_i hcls
      rw [hcls] at hknown
      exact (Option.or_of_isSome (Model.contains_iff_namespaceOf?.1 hknown)).symm
    · exact Option.or_none.symm
  · rename_i hnew
    rw [Model.namespaceOf?, Dict.get?_insert, Model.namespaceOf?]
    by_cases hcls : cls = s.fullName name
    · have hnone : s.model.classes.get? cls = none := by simpa [Dict.contains, hcls] using hnew
      rw [if_pos hcls, if_pos hcls.symm, hnone]
      rfl
    · rw [if_neg hcls, if_neg (Ne.symm hcls), Option.or_none]

/-- A comment that is written for an unknown class gives it the current namespace. -/
private theorem namespaceOf?_enterFor (name cls : String) :
    (s.enterFor tokens name).model.namespaceOf? cls =
      (s.model.namespaceOf? cls).or
        (if s.model.classes.contains name = false ∧ s.fullName name = cls then
          some s.namespaceName else none) := by
  have hdefine := s.namespaceOf?_defineClass tokens name cls
  rw [enterFor]
  split
  · rename_i known hfind
    show s.model.namespaceOf? cls = _
    split
    · -- the class is known under its full name
      rename_i hnew
      have hknown : s.model.classes.contains cls = true := by
        have hmem := List.mem_of_find?_eq_some hfind
        have hknown := List.find?_some hfind
        rw [List.mem_pair] at hmem
        rcases hmem with rfl | rfl
        · rw [hnew.1] at hknown
          cases hknown
        · exact hnew.2 ▸ hknown
      exact (Option.or_of_isSome (Model.contains_iff_namespaceOf?.1 hknown)).symm
    · exact Option.or_none.symm
  · rename_i hfind
    have hnew : s.model.classes.contains name = false := by
      simpa using List.find?_eq_none.1 hfind name List.mem_cons_self
    rw [hnew]
    simp only [true_and]
    split
    · exact hdefine
    · split
      · exact hdefine
      · rename_i outer _ _
        have hinner := (s.defineClass tokens name).model.namespaceOf?_modifyClass outer
          (f := fun c => { c with innerClasses := pushNew c.innerClasses (s.fullName name) })
          fun _ => rfl
        exact (congrFun hinner cls).trans hdefine

/-- **A comment that is prepared defines the inner class that it is written for.** -/
theorem namespaceOf?_prepare (following : Option String) (cls : String) :
    (s.prepare tokens following).1.model.namespaceOf? cls =
      (s.model.namespaceOf? cls).or
        (if s.innerFor tokens = some cls then some (s.namespaceFor tokens) else none) := by
  have hclasses : (s.opened tokens).model.classes = s.model.classes :=
    (s.opened_namespaces tokens).2.2
  have hsame : (s.opened tokens).model.namespaceOf? cls = s.model.namespaceOf? cls := by
    rw [Model.namespaceOf?, hclasses]
    rfl
  have hname : (s.opened tokens).namespaceName = s.namespaceFor tokens :=
    s.namespaceName_opened tokens
  rw [(s.seeks_prepare tokens following).model, innerFor]
  cases writtenFor tokens with
  | none =>
    rw [Option.bind_none, if_neg (by simp), Option.or_none]
    exact hsame
  | some name =>
    rw [Option.elim_some, namespaceOf?_enterFor, hsame, fullName, hname, hclasses, Option.bind_some]
    cases s.model.classes.contains name <;> simp

/-- A class that a comment declares gets the current namespace if it is new. -/
private theorem namespaceOf?_defineDeclared (cls : String) :
    (s.defineDeclared tokens tags).model.namespaceOf? cls =
      (s.model.namespaceOf? cls).or
        (if s.declaredClass tags = some cls then some s.namespaceName else none) := by
  have hnone : s.model.namespaceOf? cls =
      (s.model.namespaceOf? cls).or
        (if (none : Option String) = some cls then some s.namespaceName else none) := by simp
  rw [defineDeclared, declaredClass]
  cases Subject.ofTags tags with
  | cls =>
    cases tags.name? "class" with
    | none => exact hnone
    | some name => simpa using s.namespaceOf?_defineClass tokens name cls
  | file | mod | method | event | property | attr | config | nothing => exact hnone

end Classes

/-! ### Inputs and runs -/

section Step

variable (s : Session) (tokens : List String) (following : Option String)

/-- **A comment brings in no name** but its own namespace, the classes that it defines and its
modules. -/
theorem keepsNames_step :
    KeepsNames (collect tokens).tags.moduleNames
      ((s.prepare tokens following).1.defineDeclared tokens (s.prepare tokens following).2)
      (s.step (.comment tokens following)) := by
  rw [step, readComment_fst, ← s.moduleNames_prepare tokens following]
  exact (writes_place _ tokens _ _).keepsNames

/-- The namespace of a comment is the current one after it, and listed. -/
theorem namespaces_step :
    (s.step (.comment tokens following)).context.inNamespace =
        ((collect tokens).tags.name? "namespace" <|> s.context.inNamespace) ∧
      (s.step (.comment tokens following)).model.namespaces =
        ((collect tokens).tags.name? "namespace").toList.foldl pushNew s.model.namespaces := by
  have hkeeps := s.keepsNames_step tokens following
  have hprepare : (s.opened tokens).OnlyClasses (s.prepare tokens following).1 := by
    have hseeks := (s.seeks_prepare tokens following).onlyClasses
    revert hseeks
    cases writtenFor tokens with
    | none => exact id
    | some name => exact ((s.opened tokens).onlyClasses_enterFor tokens name).trans
  have hclasses := hprepare.trans
    (onlyClasses_defineDeclared _ tokens (s.prepare tokens following).2)
  obtain ⟨_, _, _, _, hdefined⟩ := hclasses
  rw [hkeeps.inNamespace, hkeeps.namespaces, hdefined]
  exact ⟨(s.opened_namespaces tokens).1, (s.opened_namespaces tokens).2.1⟩

/-- The namespace of a comment stays the current one. -/
theorem namespaceName_step :
    (s.step (.comment tokens following)).namespaceName = s.namespaceFor tokens := by
  rw [namespaceName, (s.namespaces_step tokens following).1, namespaceFor, namespaceName]
  cases (collect tokens).tags.name? "namespace" <;> rfl

/-- The namespace that holds for a comment is the current one when it is placed. -/
theorem namespaceName_prepare :
    (s.prepare tokens following).1.namespaceName = s.namespaceFor tokens := by
  obtain ⟨_, _, _, _, hdefined⟩ := (s.prepare tokens following).1.onlyClasses_defineDeclared
    tokens (s.prepare tokens following).2
  rw [← s.namespaceName_step tokens following, namespaceName, namespaceName,
    (s.keepsNames_step tokens following).inNamespace, hdefined]

/-- **A class comes up exactly if an input defines it**, and it is put into the namespace that is
then the current one. -/
theorem namespaceOf?_step (i : Input) (cls : String) :
    (s.step i).model.namespaceOf? cls =
      (s.model.namespaceOf? cls).or
        (if s.defines i = some cls then some (s.step i).namespaceName else none) := by
  cases i with
  | root => simp [step, beginRoot, defines]
  | comment tokens following =>
    rw [congrFun (s.keepsNames_step tokens following).classes cls, namespaceOf?_defineDeclared,
      namespaceOf?_prepare, namespaceName_prepare, namespaceName_step, Option.or_assoc, defines]
    congr 1
    cases hinner : s.innerFor tokens with
    | none => simp [declares]
    | some inner =>
      -- a comment that is written for a class declares none
      have hnone : s.declares tokens following = none :=
        s.declares_of_innerFor tokens following hinner
      rw [declares] at hnone
      simp [hnone]

/-! #### Modules -/

theorem modules_step {s : Session} {i : Input} {mod : String}
    (h : (s.step i).model.modules.contains mod = true ∨
      (s.step i).context.inModule = some mod) :
    (s.model.modules.contains mod = true ∨ s.context.inModule = some mod) ∨
      mod ∈ i.moduleNames := by
  cases i with
  | root =>
    rcases h with h | h
    · exact .inl (.inl h)
    · cases h
  | comment tokens following =>
    have hkeeps := s.keepsNames_step tokens following
    have hdefine := (s.prepare tokens following).1.onlyClasses_defineDeclared tokens
      (s.prepare tokens following).2
    obtain ⟨hopen, -, hmodules⟩ := s.prepare_fst tokens following
    have hcurrent (h : (s.prepare tokens following).1.context.inModule = some mod) :
        s.context.inModule = some mod ∨ mod ∈ (collect tokens).tags.moduleNames := by
      rw [hopen, inModule_collect] at h
      cases hlast : (collect tokens).tags.moduleNames.getLast? with
      | none => exact .inl (by rwa [hlast] at h)
      | some last =>
        rw [hlast] at h
        cases h
        exact .inr (List.mem_of_getLast? hlast)
    rw [hkeeps.inModule, hdefine.inModule] at h
    rcases h with h | h
    · rcases hkeeps.modules mod h with h | h | h
      · rw [hdefine.modules, hmodules] at h
        exact .inl (.inl h)
      · rw [hdefine.inModule] at h
        exact (hcurrent h).imp_left .inr
      · exact .inr h
    · exact (hcurrent h).imp_left .inr

end Step

/-- **Every module is named by a comment**, and so is the open one. -/
theorem named_of_contains_run (version : String) (v : UInt32) (inputs : List Input)
    {mod : String} (h : ((start version v).run inputs).model.modules.contains mod = true ∨
      ((start version v).run inputs).context.inModule = some mod) :
    ∃ i ∈ inputs, mod ∈ i.moduleNames := by
  induction inputs using List.reverseRecOn with
  | nil =>
    rcases h with h | h
    · cases h
    · cases h
  | append_singleton inputs i ih =>
    rw [run_concat] at h
    rcases modules_step h with h | h
    · obtain ⟨j, hj, hmod⟩ := ih h
      exact ⟨j, List.mem_append_left _ hj, hmod⟩
    · exact ⟨i, List.mem_append_right _ List.mem_cons_self, h⟩

end Session

end ApiDocs
