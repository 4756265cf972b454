import Mathlib.Data.List.Induction
import ApiDocs.Proofs.Session.Links

/-!
# Attaching classes and files to their places

A class belongs to a module and to a file, and a file belongs to a module. Each of these links is
kept at both ends: the item names one home, and the place lists its items. `Model.links` reads
both ends off a model for the three kinds of links at once.

Links are only ever made by attaching an item to a place (`Links.attach`): the item names that
place from then on, and the place lists the item, at its end, unless it does already. Nothing is
taken out of the list of an earlier home. So after a series of attachments a place lists all that
was ever attached to it, in the order of the first time (`Links.listed_foldl_attach`).
-/

namespace ApiDocs

/-- The links that are kept at both ends. -/
inductive LinkKind where
  | classInModule
  | fileInModule
  | classInFile
  deriving DecidableEq, Repr

/-- Where classes and files belong. -/
@[ext] structure Links where
  /-- The place that an item names. -/
  home? : LinkKind → String → Option String
  /-- The items that a place lists. -/
  listed : LinkKind → String → List String

/-- An item that is put into a place. -/
structure Attachment where
  kind : LinkKind
  item : String
  place : String
  deriving DecidableEq, Repr

/-- What a waiting class or file becomes when it is put into a module. -/
def Pending.attachment (mod : String) : Pending → Attachment
  | .cls name => ⟨.classInModule, name, mod⟩
  | .file name => ⟨.fileInModule, name, mod⟩

/-- The items that attachments of one kind put into a place, in order. -/
def attached (l : List Attachment) (kind : LinkKind) (place : String) : List String :=
  (l.filter fun a => kind = a.kind ∧ place = a.place).map (·.item)

theorem mem_attached {l : List Attachment} {kind : LinkKind} {item place : String} :
    item ∈ attached l kind place ↔ ⟨kind, item, place⟩ ∈ l := by
  constructor
  · intro h
    obtain ⟨a, ha, rfl⟩ := List.mem_map.1 h
    obtain ⟨hmem, hfor⟩ := List.mem_filter.1 ha
    obtain ⟨rfl, rfl⟩ := of_decide_eq_true hfor
    exact hmem
  · intro h
    exact List.mem_map.2 ⟨_, List.mem_filter.2 ⟨h, decide_eq_true ⟨rfl, rfl⟩⟩, rfl⟩

@[simp] theorem attached_nil (kind : LinkKind) (place : String) : attached [] kind place = [] := rfl

theorem attached_cons (a : Attachment) (l : List Attachment) (kind : LinkKind) (place : String) :
    attached (a :: l) kind place =
      (if kind = a.kind ∧ place = a.place then [a.item] else []) ++ attached l kind place := by
  rw [attached, List.filter_cons]
  by_cases ha : kind = a.kind ∧ place = a.place
  · rw [if_pos (decide_eq_true ha), if_pos ha]
    rfl
  · rw [if_neg (by simpa using ha), if_neg ha]
    rfl

theorem attached_append (l l' : List Attachment) (kind : LinkKind) (place : String) :
    attached (l ++ l') kind place = attached l kind place ++ attached l' kind place := by
  rw [attached, List.filter_append, List.map_append]
  rfl

namespace Links

/-- **Attaching an item** makes the place its home, and adds it to the list of the place. -/
def attach (L : Links) (a : Attachment) : Links where
  home? kind item := if kind = a.kind ∧ item = a.item then some a.place else L.home? kind item
  listed kind place :=
    if kind = a.kind ∧ place = a.place then pushNew (L.listed kind place) a.item
    else L.listed kind place

variable {L : Links} {kind : LinkKind} {item place : String}

/-- **A place lists what was attached to it**, in order, after what it listed before. -/
theorem listed_foldl_attach (l : List Attachment) :
    (l.foldl attach L).listed kind place =
      (attached l kind place).foldl pushNew (L.listed kind place) := by
  induction l generalizing L with
  | nil => rfl
  | cons a l ih =>
    rw [List.foldl_cons, ih, attach, attached_cons, List.foldl_append]
    dsimp only
    split <;> rfl

theorem mem_listed_foldl_attach {l : List Attachment} :
    item ∈ (l.foldl attach L).listed kind place ↔
      item ∈ L.listed kind place ∨ ⟨kind, item, place⟩ ∈ l := by
  rw [listed_foldl_attach, mem_foldl_pushNew, mem_attached]

/-- The home of an item is the old one or a place that it was attached to. -/
theorem mem_of_home?_foldl_attach {l : List Attachment}
    (h : (l.foldl attach L).home? kind item = some place) :
    L.home? kind item = some place ∨ ⟨kind, item, place⟩ ∈ l := by
  induction l generalizing L with
  | nil => exact .inl h
  | cons a l ih =>
    rcases ih h with hhome | hmem
    · rw [attach] at hhome
      dsimp only at hhome
      split at hhome
      · rename_i ha
        obtain ⟨rfl, rfl⟩ := ha
        obtain rfl : a.place = place := Option.some.inj hhome
        exact .inr List.mem_cons_self
      · exact .inl hhome
    · exact .inr (List.mem_cons_of_mem a hmem)

/-- An item that is attached to one place only has its home there. -/
theorem home?_foldl_attach {l : List Attachment} (h : ⟨kind, item, place⟩ ∈ l)
    (honly : ∀ a ∈ l, a.kind = kind → a.place = place) :
    (l.foldl attach L).home? kind item = some place := by
  -- the last attachment decides, so the induction is from the end
  induction l using List.reverseRecOn with
  | nil => cases h
  | append_singleton l a ih =>
    rw [List.foldl_append, List.foldl_cons, List.foldl_nil, attach]
    dsimp only
    split
    · rename_i ha
      rw [honly a (List.mem_append_right l List.mem_cons_self) ha.1.symm]
    · rename_i ha
      rcases List.mem_append.1 h with h | h
      · exact ih h fun b hb => honly b (List.mem_append_left _ hb)
      · obtain rfl := List.mem_singleton.1 h
        exact absurd ⟨rfl, rfl⟩ ha

/-- An item that has a home keeps one. -/
theorem isSome_home?_foldl_attach {l : List Attachment} (h : (L.home? kind item).isSome = true) :
    ((l.foldl attach L).home? kind item).isSome = true := by
  induction l generalizing L with
  | nil => exact h
  | cons a l ih =>
    refine ih ?_
    rw [attach]
    dsimp only
    split
    · rfl
    · exact h

end Links

/-! ### The links of a model -/

namespace Model

/-- The links of a model, read at both ends. -/
def links (m : Model) : Links where
  home?
    | .classInModule, cls => (m.classes.get? cls).bind (·.inModule)
    | .fileInModule, file => (m.files.get? file).bind (·.inModule)
    | .classInFile, cls => (m.classes.get? cls).bind (·.inFile)
  listed
    | .classInModule, mod => ((m.modules.get? mod).map (·.classList)).getD []
    | .fileInModule, mod => ((m.modules.get? mod).map (·.fileList)).getD []
    | .classInFile, file => ((m.files.get? file).map (·.classList)).getD []

variable {m : Model}

/-- Changes of a class that leave its module and its file alone. -/
theorem links_modifyClass (name : String) {f : ClassDoc → ClassDoc}
    (hf : ∀ c, (f c).inModule = c.inModule ∧ (f c).inFile = c.inFile) :
    (m.modifyClass name f).links = m.links := by
  refine Links.ext (funext₂ fun kind item => ?_) (funext₂ fun kind place => ?_)
  · cases kind with
    | fileInModule => rfl
    | classInModule | classInFile =>
      simp only [links, get?_modifyClass]
      cases m.classes.get? item with
      | none => rfl
      | some c => by_cases h : item = name <;> simp [h, hf]
  · cases kind <;> rfl

/-- Changes of a module that leave its classes and its files alone. -/
theorem links_modifyModule (name : String) {f : ModuleDoc → ModuleDoc}
    (hf : ∀ d, (f d).classList = d.classList ∧ (f d).fileList = d.fileList) :
    (m.modifyModule name f).links = m.links := by
  refine Links.ext (funext₂ fun kind item => ?_) (funext₂ fun kind place => ?_)
  · cases kind <;> rfl
  · cases kind with
    | classInFile => rfl
    | classInModule | fileInModule =>
      simp only [links, get?_modifyModule]
      by_cases h : place = name
      · subst h
        cases m.modules.get? place <;> simp [hf]
      · simp [h]

theorem links_addModules (names : List String) :
    (names.foldl Model.addModule m).links = m.links := by
  induction names generalizing m with
  | nil => rfl
  | cons name names ih =>
    rw [List.foldl_cons, ih, ← modifyModule_id]
    exact links_modifyModule name fun _ => ⟨rfl, rfl⟩

theorem links_addFile (name : String) : (m.addFile name).links = m.links := by
  refine Links.ext (funext₂ fun kind item => ?_) (funext₂ fun kind place => ?_)
  · cases kind with
    | classInModule | classInFile => rfl
    | fileInModule =>
      simp only [links, get?_addFile]
      by_cases h : item = name
      · subst h
        cases m.files.get? item <;> simp
      · simp [h]
  · cases kind with
    | classInModule | fileInModule => rfl
    | classInFile =>
      simp only [links, get?_addFile]
      by_cases h : place = name
      · subst h
        cases m.files.get? place <;> simp
      · simp [h]

/-- A class that is new belongs nowhere. -/
theorem links_insertClass {key : String} {c : ClassDoc} (hnew : m.classes.get? key = none)
    (hmod : c.inModule = none) (hfile : c.inFile = none) :
    links { m with classes := m.classes.insert key c } = m.links := by
  refine Links.ext (funext₂ fun kind item => ?_) (funext₂ fun kind place => ?_)
  · cases kind with
    | fileInModule => rfl
    | classInModule | classInFile =>
      simp only [links, Dict.get?_insert]
      by_cases h : item = key
      · simp [h, hnew, hmod, hfile]
      · simp [h]
  · cases kind <;> rfl

/-! ### Linking attaches -/

theorem links_linkClass {cls : String} (hk : m.classes.contains cls = true) (mod : String) :
    (m.linkClass cls mod).links = m.links.attach ⟨.classInModule, cls, mod⟩ := by
  obtain ⟨c, hc⟩ := Dict.contains_iff.1 hk
  refine Links.ext (funext₂ fun kind item => ?_) (funext₂ fun kind place => ?_)
  · cases kind with
    | fileInModule => rfl
    | classInModule | classInFile =>
      by_cases h : item = cls
      · simp [links, Links.attach, linkClass, h, hc]
      · cases hget : m.classes.get? item <;> simp [links, Links.attach, linkClass, h, hget]
  · cases kind with
    | classInFile => rfl
    | classInModule | fileInModule =>
      by_cases h : place = mod
      · subst h
        cases hget : m.modules.get? place <;> simp [links, Links.attach, linkClass, hget]
      · simp [links, Links.attach, linkClass, h]

theorem links_linkFile {file : String} (hk : m.files.contains file = true) (mod : String) :
    (m.linkFile file mod).links = m.links.attach ⟨.fileInModule, file, mod⟩ := by
  obtain ⟨f, hf⟩ := Dict.contains_iff.1 hk
  refine Links.ext (funext₂ fun kind item => ?_) (funext₂ fun kind place => ?_)
  · cases kind with
    | classInModule | classInFile => rfl
    | fileInModule =>
      by_cases h : item = file
      · simp [links, Links.attach, linkFile, h, hf]
      · cases hget : m.files.get? item <;> simp [links, Links.attach, linkFile, h, hget]
  · cases kind with
    | classInFile =>
      by_cases h : place = file
      · simp [links, Links.attach, linkFile, h, hf]
      · cases hget : m.files.get? place <;> simp [links, Links.attach, linkFile, h, hget]
    | classInModule | fileInModule =>
      by_cases h : place = mod
      · subst h
        cases hget : m.modules.get? place <;> simp [links, Links.attach, linkFile, hget]
      · simp [links, Links.attach, linkFile, h]

theorem links_linkAll (mod : String) {items : List Pending} (hk : ∀ item ∈ items, m.Has item) :
    (m.linkAll mod items).links =
      (items.map (Pending.attachment mod)).foldl Links.attach m.links := by
  induction items generalizing m with
  | nil => rfl
  | cons item items ih =>
    have hitem : (m.link mod item).links = m.links.attach (item.attachment mod) := by
      cases item with
      | cls name => exact links_linkClass (hk _ List.mem_cons_self) mod
      | file name => exact links_linkFile (hk _ List.mem_cons_self) mod
    have hrest : ∀ other ∈ items, (m.link mod item).Has other := fun other ho =>
      has_link mod item (hk other (List.mem_cons_of_mem item ho))
    rw [List.map_cons, List.foldl_cons, ← hitem, ← ih hrest]
    rfl

/-- A class is attached to a file, which is there or made for it. -/
theorem links_listInFile {cls : String} (hk : m.classes.contains cls = true) (file : String) :
    (((m.modifyClass cls fun c => { c with inFile := some file }).addFile file).modifyFile file
      fun f => { f with classList := pushNew f.classList cls }).links =
        m.links.attach ⟨.classInFile, cls, file⟩ := by
  obtain ⟨c, hc⟩ := Dict.contains_iff.1 hk
  refine Links.ext (funext₂ fun kind item => ?_) (funext₂ fun kind place => ?_)
  · cases kind with
    | classInModule | classInFile =>
      by_cases h : item = cls
      · simp [links, Links.attach, h, hc]
      · cases hget : m.classes.get? item <;> simp [links, Links.attach, h, hget]
    | fileInModule =>
      by_cases h : item = file
      · subst h
        cases hget : m.files.get? item <;> simp [links, Links.attach, hget]
      · cases hget : m.files.get? item <;> simp [links, Links.attach, h, hget]
  · cases kind with
    | classInModule | fileInModule => rfl
    | classInFile =>
      by_cases h : place = file
      · subst h
        cases hget : m.files.get? place <;> simp [links, Links.attach, hget]
      · cases hget : m.files.get? place <;> simp [links, Links.attach, h, hget]

end Model

end ApiDocs
