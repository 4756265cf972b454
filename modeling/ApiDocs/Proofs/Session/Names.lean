import ApiDocs.Proofs.Session.Accounting
import ApiDocs.Proofs.Session.DerivedEvents
import ApiDocs.Proofs.Session.FirstDefinition
import ApiDocs.Proofs.Session.Origins

/-!
# Names and keys

Every entry of a model carries the name under which the model keeps it. An entry is created with
that name, and nothing that is done to it later changes a name: this is so for classes and their
members (`ClassDoc.OwnNames`) as well as for modules and files (`Model.OwnNames`), one elementary
change after the other.

That names are not empty does not follow from the changes but from where the names come from: a
comment brings in a module, a file or a member only by a tag with a text, and a derived event has a
name of its own. Together these give **the coherence of names and keys after every run**
(`coherent_run`).
-/

namespace ApiDocs

/-! ### Classes and their members -/

namespace ClassDoc

/-- **A class and its members carry their own names**: the class is kept under `key`, which is its
short name in its namespace, and each member is kept under its name. -/
structure OwnNames (key : String) (c : ClassDoc) : Prop where
  name : c.name = key
  qualified : c.name =
    if c.inNamespace = "" then c.shortName else c.inNamespace ++ "." ++ c.shortName
  members : ∀ kind name m, (c.members kind).get? name = some m → m.name = name

namespace OwnNames

variable {v : UInt32} {key : String} {c c' : ClassDoc}

private theorem of_fresh (h : c.Fresh key) : c.OwnNames key := by
  obtain ⟨ns, name, hqualify, hc⟩ := h
  have hnone : ∀ kind name m, (c.members kind).get? name = some m → m.name = name := by
    intro kind name m hm
    rw [hc] at hm
    cases kind <;> cases hm
  refine ⟨by rw [hc], ?_, hnone⟩
  rw [hc]
  dsimp only
  rw [qualify] at hqualify
  split at hqualify
  · rename_i hempty
    obtain ⟨hshort, hname⟩ := Prod.mk.inj hqualify
    rw [if_pos (String.isEmpty_iff.1 hempty), ← hshort, ← hname]
  · rename_i hns
    obtain ⟨hshort, hname⟩ := Prod.mk.inj hqualify
    rw [if_neg fun h => hns (String.isEmpty_iff.2 h), ← hshort, ← hname]

/-- The names of a class stay, and new members carry their names. -/
theorem of_eq (h : c.OwnNames key) (hname : c'.name = c.name)
    (hshort : c'.shortName = c.shortName) (hnamespace : c'.inNamespace = c.inNamespace)
    (hmembers : ∀ kind name m, (c'.members kind).get? name = some m → m.name = name) :
    c'.OwnNames key where
  name := hname.trans h.name
  qualified := by
    rw [hname, hshort, hnamespace]
    exact h.qualified
  members := hmembers

/-- Members with their own names may take the place of others. -/
private theorem setMembers (h : c.OwnNames key) (kind : MemberKind) {ms : Dict MemberDoc}
    (hms : ∀ name m, ms.get? name = some m → m.name = name) :
    (c.setMembers kind ms).OwnNames key := by
  refine h.of_eq (by cases kind <;> rfl) (by cases kind <;> rfl) (by cases kind <;> rfl) ?_
  intro kind' name m hm
  rw [members_setMembers] at hm
  split at hm
  · exact hms name m hm
  · exact h.members kind' name m hm

/-- A member is inserted under its name. -/
private theorem insert (h : c.OwnNames key) (kind : MemberKind) (doc : MemberDoc) :
    (c.setMembers kind ((c.members kind).insert doc.name doc)).OwnNames key := by
  refine h.setMembers kind fun name m hm => ?_
  rw [Dict.get?_insert] at hm
  split at hm
  · rename_i hname
    cases hm
    exact hname.symm
  · exact h.members kind name m hm

/-- Derived events are added under their names. -/
private theorem addNewEvents (h : c.OwnNames key) (events : List MemberDoc) :
    (c.addNewEvents events).OwnNames key := by
  rw [addNewEvents_eq]
  refine h.setMembers .event fun name m hm => ?_
  rw [Dict.get?_derive, Option.or_eq_some_iff] at hm
  rcases hm with hm | ⟨-, hm⟩
  · exact h.members .event name m hm
  · simpa using List.find?_some hm

/-- Tags do not change a name. -/
private theorem name_applyTags (m : MemberDoc) (tags : List (String × String)) :
    (m.applyTags tags).name = m.name := by
  induction tags generalizing m with
  | nil => rfl
  | cons t rest ih =>
    have htag : (m.applyTag t.1 t.2).name = m.name := by
      unfold MemberDoc.applyTag
      split
      · rfl
      · split <;> rfl
    exact (ih (m.applyTag t.1 t.2)).trans htag

/-- **Edits keep names.** -/
theorem edit (h : c.OwnNames key) (e : Edit v key c c') : c'.OwnNames key := by
  cases e with
  | setModule mod => exact h.of_eq rfl rfl rfl h.members
  | setFile file => exact h.of_eq rfl rfl rfl h.members
  | addInner inner other => exact h.of_eq rfl rfl rfl h.members
  | relate tags inner other => exact h.of_eq rfl rfl rfl h.members
  | insertMember kind doc notConfig written free => exact h.insert kind doc
  | insertConfig name free => exact (h.insert .config { name }).addNewEvents _
  | repeatConfig name taken => exact h.addNewEvents _
  | addConstructor doc => exact h.of_eq rfl rfl rfl h.members
  | applyTags tags =>
    have hmembers := members_applyTags c tags
    obtain ⟨access, description, deprecated, attributes, heq⟩ := c.exists_applyTags_eq tags
    refine h.of_eq (by rw [heq]) (by rw [heq]) (by rw [heq]) ?_
    rw [hmembers]
    exact h.members
  | tagMember kind name tags written =>
    refine h.setMembers kind fun other m hm => ?_
    rw [Dict.get?_modify] at hm
    obtain ⟨old, hold, rfl⟩ := Option.map_eq_some_iff.1 hm
    have hname := h.members kind other old hold
    split
    · exact (name_applyTags old tags).trans hname
    · exact hname

end OwnNames

end ClassDoc

/-! ### Modules and files -/

namespace Model

/-- **Modules and files carry their own names.** -/
structure OwnNames (m : Model) : Prop where
  modules : ∀ mod d, m.modules.get? mod = some d → d.name = mod
  files : ∀ file f, m.files.get? file = some f → f.name = file

namespace OwnNames

variable {m m' : Model}

theorem of_eq (h : m.OwnNames) (hmodules : m'.modules = m.modules) (hfiles : m'.files = m.files) :
    m'.OwnNames where
  modules := hmodules ▸ h.modules
  files := hfiles ▸ h.files

/-- A module keeps its name when it is changed. -/
private theorem modifyModule (h : m.OwnNames) (name : String) {f : ModuleDoc → ModuleDoc}
    (hf : ∀ d, (f d).name = d.name) : (m.modifyModule name f).OwnNames where
  modules mod d hd := by
    rw [get?_modifyModule] at hd
    split at hd
    · rename_i hmod
      cases hd
      rw [hf, hmod]
      cases hold : m.modules.get? name with
      | none => rfl
      | some old => exact h.modules name old hold
    · exact h.modules mod d hd
  files := h.files

/-- New modules have the names that they are created with. -/
private theorem addModules (h : m.OwnNames) (names : List String) :
    (names.foldl Model.addModule m).OwnNames := by
  induction names generalizing m with
  | nil => exact h
  | cons name names ih =>
    refine ih ?_
    rw [← modifyModule_id]
    exact h.modifyModule name fun _ => rfl

/-- A new file has the name that it is created with. -/
private theorem addFile (h : m.OwnNames) (name : String) : (m.addFile name).OwnNames where
  modules := h.modules
  files file f hf := by
    rw [get?_addFile] at hf
    split at hf
    · rename_i hfile
      cases hf
      rw [hfile]
      cases hold : m.files.get? name with
      | none => rfl
      | some old => exact h.files name old hold
    · exact h.files file f hf

/-- A file keeps its name when it is changed. -/
private theorem modifyFile (h : m.OwnNames) (name : String) {f : FileDoc → FileDoc}
    (hf : ∀ d, (f d).name = d.name) : (m.modifyFile name f).OwnNames where
  modules := h.modules
  files file d hd := by
    rw [get?_modifyFile] at hd
    obtain ⟨old, hold, rfl⟩ := Option.map_eq_some_iff.1 hd
    have hname := h.files file old hold
    split
    · exact (hf old).trans hname
    · exact hname

/-- Links concern no name. -/
private theorem link (h : m.OwnNames) (mod : String) (item : Pending) :
    (m.link mod item).OwnNames := by
  cases item with
  | cls name =>
    have hclass : (m.modifyClass name fun c => { c with inModule := some mod }).OwnNames :=
      h.of_eq rfl rfl
    exact hclass.modifyModule mod fun _ => rfl
  | file name =>
    have hfile : (m.modifyFile name fun f => { f with inModule := some mod }).OwnNames :=
      h.modifyFile name fun _ => rfl
    exact hfile.modifyModule mod fun _ => rfl

private theorem linkAll (h : m.OwnNames) (mod : String) (items : List Pending) :
    (m.linkAll mod items).OwnNames := by
  induction items generalizing m with
  | nil => exact h
  | cons item items ih => exact ih (h.link mod item)

end OwnNames

end Model

namespace Session

variable {s s' : Session}

/-- **Every change keeps the names of modules and files.** -/
theorem Change.ownNames (h : Change s s') (hs : s.model.OwnNames) : s'.model.OwnNames := by
  cases h with
  | warn => exact hs
  | log => exact hs
  | enterModule name => cases name <;> exact hs
  | enterNamespace name => exact hs.of_eq rfl rfl
  | enterClass => exact hs
  | defineClass tokens name =>
    rw [Session.defineClass]
    split
    · exact hs
    · exact hs.of_eq rfl rfl
  | addInner => exact hs.of_eq rfl rfl
  | enterFile name => exact hs.addFile name
  | placeFile file known =>
    rw [Session.placeFile]
    split
    · exact hs.link _ (.file file)
    · exact hs
  | addModules names => exact hs.addModules names
  | addSubmodule mod sub description => exact hs.modifyModule mod fun _ => rfl
  | describeModule tokens mod description =>
    unfold Session.describeModule
    dsimp only
    split
    · split
      · exact hs.modifyModule mod fun _ => rfl
      · exact hs
    · split <;> exact hs
  | drainInto mod => exact hs.linkAll mod _
  | claimSubmodule cls description =>
    rw [Session.claimSubmodule]
    split
    · exact hs.modifyModule _ fun _ => rfl
    · exact hs
  | markGlobal tags cls known =>
    rw [Session.markGlobal]
    split <;> exact hs
  | relateClass => exact hs.of_eq rfl rfl
  | placeClass cls known =>
    rw [Session.placeClass]
    split
    · exact hs.link _ (.cls cls)
    · exact hs
  | listInFile cls known =>
    rw [Session.listInFile]
    split
    · exact hs
    · rename_i file _
      have hclass : (s.model.modifyClass cls fun c => { c with inFile := some file }).OwnNames :=
        hs.of_eq rfl rfl
      exact (hclass.addFile file).modifyFile file fun _ => rfl
  | insertMember tokens cls kind doc =>
    obtain ⟨classes, warnings, notes, heq⟩ := exists_insertMember_eq s tokens cls kind doc
    rw [heq]
    exact hs.of_eq rfl rfl
  | insertConfig tokens cls name =>
    obtain ⟨classes, warnings, notes, heq⟩ := exists_insertConfig_eq s tokens cls name
    rw [heq]
    exact hs.of_eq rfl rfl
  | addConstructor => exact hs.of_eq rfl rfl
  | applyLeftovers p ready =>
    rw [Session.applyLeftovers]
    split
    · exact hs.of_eq rfl rfl
    · exact hs.of_eq rfl rfl
    · refine hs.modifyModule _ fun d => ?_
      obtain ⟨title, description, attributes, heq⟩ := d.exists_applyTags_eq p.tags.leftovers
      rw [heq]
    · exact hs
    · exact hs
  | beginRoot => exact hs

/-! ### Names are not empty -/

end Session

/-- Derived events have a name, since a suffix belongs to it. -/
private theorem ne_empty_of_mem_changeEvents {config : String} {v : UInt32} {e : MemberDoc}
    (h : e ∈ changeEvents config v) : e.name ≠ "" := by
  have happend (text : String) : text ++ "ChangeEvent" ≠ "" := by
    intro h
    simpa using congrArg String.length h
  rw [changeEvents] at h
  split at h
  · rw [List.mem_singleton.1 h]
    exact happend config
  · rcases List.mem_cons.1 h with rfl | h
    · exact happend config
    · rw [List.mem_singleton.1 h]
      exact happend _

namespace Session

/-- A member that is documented has a name. -/
private theorem ne_empty_of_target (s : Session) (tokens : List String) (tags : TagMap)
    (outer : Option String) {cls name : String} {kind : MemberKind}
    (h : (s.placeSubject tokens tags outer).2.toOption.bind Placed.target =
      some (.member cls kind name)) : name ≠ "" := by
  cases hkind : (Subject.ofTags tags).memberKind? with
  | none =>
    have hmember : (Subject.ofTags tags).isMember = false := by
      rw [Bool.eq_false_iff]
      intro hmember
      obtain ⟨kind, hsome⟩ := Subject.exists_memberKind hmember
      rw [hkind] at hsome
      cases hsome
    have hnone := s.insertionOf_placeSubject tokens tags outer hmember
    rw [h] at hnone
    cases hnone
  | some kind' =>
    rw [placeSubject_eq_placeMember tokens tags hkind, placeMember, withClass] at h
    split at h
    · cases h
    · rename_i found hfound
      split at h
      · cases h
      · dsimp only at h
        split at h
        · cases h
        · cases h
          exact TagMap.ne_empty_of_name? hfound

/-- An insertion is that of the member which the comment documents. -/
private theorem exists_target_of_insertionOf {tags : TagMap} {target : Option Target}
    {i : Insertion}
    (h : insertionOf tags target = some i) :
    ∃ cls kind name, target = some (.member cls kind name) ∧ i.doc.name = name := by
  unfold insertionOf at h
  split at h
  · rename_i cls kind name
    cases h
    exact ⟨cls, kind, name, rfl, by cases kind <;> rfl⟩
  · cases h

/-- Every member that a comment inserts has a name. -/
private theorem ne_empty_of_mem_insertions {s : Session} {inputs : List Input} {i : Insertion}
    (h : i ∈ s.insertions inputs) : i.doc.name ≠ "" := by
  induction inputs generalizing s with
  | nil => cases h
  | cons input inputs ih =>
    rw [insertions, List.mem_append] at h
    rcases h with h | h
    · cases input with
      | root => cases h
      | comment tokens following =>
        obtain ⟨cls, kind, name, htarget, hname⟩ :=
          exists_target_of_insertionOf (Option.mem_toList.1 h)
        rw [hname]
        exact ne_empty_of_target _ _ _ _ htarget
    · exact ih h

/-- A file is named by the file marker that introduces it. -/
private theorem ne_empty_of_introduces {s : Session} {i : Input} {file : String}
    (h : s.introduces i = some (.file file)) : file ≠ "" := by
  cases i with
  | root => cases h
  | comment tokens following =>
    have hby : (s.prepare tokens following).1.introducedBy (s.prepare tokens following).2 =
        some (.file file) := h
    rw [introducedBy] at hby
    split at hby
    · obtain ⟨_, -, hcls⟩ := Option.map_eq_some_iff.1 hby
      cases hcls
    · obtain ⟨_, hname, hfile⟩ := Option.map_eq_some_iff.1 hby
      cases hfile
      exact TagMap.ne_empty_of_name? hname
    · cases hby

/-- Every file has a name, and so has the current one. -/
private theorem ne_empty_of_contains_files (version : String) (v : UInt32) (inputs : List Input)
    {file : String} (h : ((start version v).run inputs).model.files.contains file = true ∨
      ((start version v).run inputs).context.inFile = some file) : file ≠ "" := by
  induction inputs using List.reverseRecOn with
  | nil =>
    rcases h with h | h
    · cases h
    · cases h
  | append_singleton inputs i ih =>
    rw [run_concat] at h
    rcases files_step h with h | h
    · exact ih h
    · exact ne_empty_of_introduces h

/-- Every member has a name: it was inserted, or a config derives it. -/
private theorem ne_empty_of_members (version : String) (v : UInt32) (inputs : List Input)
    {cls name : String} {c : ClassDoc} {kind : MemberKind} {m : MemberDoc}
    (hc : ((start version v).run inputs).model.classes.get? cls = some c)
    (hm : (c.members kind).get? name = some m) : name ≠ "" := by
  have hagree := forall_eventsAgree version v inputs cls c hc
  cases hsynthetic : m.synthetic with
  | false =>
    have hsignature : (((start version v).run inputs).model.signature? cls kind name).isSome := by
      rw [Model.signature?, hc]
      exact ClassDoc.hasWritten_iff_signature?.1 ⟨m, hm, hsynthetic⟩
    rw [((start version v).records_run inputs).signature cls kind name,
      show (start version v).model.signature? cls kind name = none from rfl, Option.none_or,
      Option.isSome_map] at hsignature
    obtain ⟨i, hi⟩ := Option.isSome_iff_exists.1 hsignature
    obtain ⟨hmem, hfor⟩ := List.mem_filter.1 (List.mem_of_head? hi)
    obtain ⟨-, -, rfl⟩ := Insertion.isFor_iff.1 hfor
    exact ne_empty_of_mem_insertions hmem
  | true =>
    by_cases hkind : kind = .event
    · subst hkind
      obtain ⟨hname, config, -, hevent⟩ := hagree.synthetic name m hm hsynthetic
      exact hname ▸ ne_empty_of_mem_changeEvents hevent
    · rw [hagree.others kind name m hkind hm] at hsynthetic
      cases hsynthetic

/-! ### Namespaces -/

/-- Namespaces are listed: the current one, and that of every class that is in one. -/
structure NamespacesListed (s : Session) : Prop where
  current : ∀ ns, s.context.inNamespace = some ns → ns ∈ s.model.namespaces
  classes : ∀ cls ns, s.model.namespaceOf? cls = some ns → ns ≠ "" → ns ∈ s.model.namespaces

/-- One input keeps the namespaces listed. -/
theorem NamespacesListed.step {s : Session} (hs : s.NamespacesListed) (i : Input) :
    (s.step i).NamespacesListed := by
  have hmodel : ∀ ns ∈ s.model.namespaces, ns ∈ (s.step i).model.namespaces := by
    cases i with
    | root => exact fun _ h => h
    | comment tokens following =>
      intro ns hns
      rw [(s.namespaces_step tokens following).2]
      exact mem_foldl_pushNew.2 (.inl hns)
  have hcurrent : ∀ ns, (s.step i).context.inNamespace = some ns →
      ns ∈ (s.step i).model.namespaces := by
    cases i with
    | root =>
      intro ns hns
      cases hns
    | comment tokens following =>
      intro ns hns
      rw [(s.namespaces_step tokens following).1] at hns
      rw [(s.namespaces_step tokens following).2, mem_foldl_pushNew]
      cases hname : (collect tokens).tags.name? "namespace" with
      | none =>
        rw [hname] at hns
        exact .inl (hs.current ns hns)
      | some own =>
        rw [hname] at hns
        exact .inr (Option.mem_toList.2 hns)
  refine ⟨hcurrent, fun cls ns hcls hne => ?_⟩
  rw [namespaceOf?_step, Option.or_eq_some_iff] at hcls
  rcases hcls with hold | ⟨-, hnew⟩
  · exact hmodel ns (hs.classes cls ns hold hne)
  · -- a new class is in the current namespace, if there is one
    split at hnew
    · refine hcurrent ns ?_
      cases hnew
      rw [namespaceName] at hne ⊢
      cases h : (s.step i).context.inNamespace with
      | none =>
        rw [h] at hne
        exact absurd rfl hne
      | some own => rfl
    · cases hnew

/-- The namespaces of classes are listed after every run. -/
theorem namespacesListed_run (version : String) (v : UInt32) (inputs : List Input) :
    ((start version v).run inputs).NamespacesListed := by
  induction inputs using List.reverseRecOn with
  | nil =>
    refine ⟨fun ns h => ?_, fun cls ns h => ?_⟩
    · cases h
    · cases h
  | append_singleton inputs i ih =>
    rw [run_concat]
    exact ih.step i

/-- Every class is kept under its name, and so are its members. -/
theorem ownNames_of_get?_run (version : String) (v : UInt32) (inputs : List Input) {cls : String}
    {c : ClassDoc} (hc : ((start version v).run inputs).model.classes.get? cls = some c) :
    c.OwnNames cls :=
  (changes_run (contextKnown_start version v) inputs).classesEvolve.forall_classes
    (fun _ _ h => .of_fresh h) (fun _ _ _ e h => h.edit e) nofun cls c hc

end Session

/-! ### Coherence -/

/-- **The names and keys of a model are coherent.** -/
structure Model.Coherent (m : Model) : Prop where
  /-- A class is kept under its name. -/
  className : ∀ cls c, m.classes.get? cls = some c → c.name = cls
  /-- The name of a class is its short name in its namespace, if it is in one. -/
  qualified : ∀ cls c, m.classes.get? cls = some c →
    c.name = if c.inNamespace = "" then c.shortName else c.inNamespace ++ "." ++ c.shortName
  /-- The namespace of a class is listed. -/
  classNamespace : ∀ cls c, m.classes.get? cls = some c → c.inNamespace ≠ "" →
    c.inNamespace ∈ m.namespaces
  /-- A member is kept under its name, and has one. -/
  memberName : ∀ cls c kind name doc, m.classes.get? cls = some c →
    (c.members kind).get? name = some doc → doc.name = name ∧ name ≠ ""
  /-- A module is kept under its name, and has one. -/
  moduleName : ∀ mod d, m.modules.get? mod = some d → d.name = mod ∧ mod ≠ ""
  /-- A file is kept under its name, and has one. -/
  fileName : ∀ file f, m.files.get? file = some f → f.name = file ∧ file ≠ ""

namespace Session

/-- **The names and keys of a session are coherent**, and the current namespace is listed. -/
structure Coherent (s : Session) : Prop where
  model : s.model.Coherent
  inNamespace : ∀ ns, s.context.inNamespace = some ns → ns ∈ s.model.namespaces

/-- **Names and keys stay coherent**: after every run, whatever its comments are and whether they
can be placed or not, every entry is kept under its own name, no member, module or file is without
one, and the namespaces that are in use are listed. -/
theorem coherent_run (version : String) (v : UInt32) (inputs : List Input) :
    ((start version v).run inputs).Coherent := by
  have hclasses : ∀ cls c, ((start version v).run inputs).model.classes.get? cls = some c →
      c.OwnNames cls :=
    (changes_run (contextKnown_start version v) inputs).classesEvolve.forall_classes
      (fun _ _ h => .of_fresh h) (fun _ _ _ e h => h.edit e) nofun
  have hown : ((start version v).run inputs).model.OwnNames :=
    run_induction ⟨nofun, nofun⟩ (fun _ _ h hs => h.ownNames hs) inputs
  have hlisted := namespacesListed_run version v inputs
  refine ⟨⟨?className, ?qualified, ?classNamespace, ?memberName, ?moduleName, ?fileName⟩,
    hlisted.current⟩
  case className => exact fun cls c hc => (hclasses cls c hc).name
  case qualified => exact fun cls c hc => (hclasses cls c hc).qualified
  case classNamespace =>
    intro cls c hc hne
    refine hlisted.classes cls c.inNamespace ?_ hne
    rw [Model.namespaceOf?, hc, Option.map_some]
  case memberName =>
    intro cls c kind name doc hc hdoc
    exact ⟨(hclasses cls c hc).members kind name doc hdoc,
      ne_empty_of_members version v inputs hc hdoc⟩
  case moduleName =>
    intro mod d hd
    obtain ⟨i, -, hmod⟩ := named_of_contains_run version v inputs
      (.inl (Dict.contains_of_get? hd))
    refine ⟨hown.modules mod d hd, ?_⟩
    cases i with
    | root => cases hmod
    | comment tokens following => exact TagMap.ne_empty_of_mem_moduleNames hmod
  case fileName =>
    intro file f hf
    exact ⟨hown.files file f hf,
      ne_empty_of_contains_files version v inputs (.inl (Dict.contains_of_get? hf))⟩

end Session

end ApiDocs
