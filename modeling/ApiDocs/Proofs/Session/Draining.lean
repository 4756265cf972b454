import Mathlib.Data.List.Nodup
import ApiDocs.Proofs.Session.Listings

/-!
# What goes into a module that is opened

A comment about a module, or about a class with a name, places its module tags: the last module
that they name is the open one from then on, and what was found before any module goes into it. If
the comment declares a class, that one follows. `Drains` says what this does to a session, and
**every comment that places its module tags drains into the last module it names**
(`drains_step`), also where its constructor cannot be placed.

A class may wait, be listed and be declared, all at once, so the new list of the module is told
from the attachments of the comment (`attachments_of_placesModules`): a list without repetitions
is pushed onto another by appending what is not there (`foldl_pushNew_of_nodup`).
-/

namespace ApiDocs

private theorem foldl_pushNew_of_nodup (list : List String) {items : List String}
    (h : items.Nodup) :
    items.foldl pushNew list = list ++ items.filter (· ∉ list) := by
  induction items generalizing list with
  | nil => simp
  | cons item items ih =>
    obtain ⟨hitem, hitems⟩ := List.nodup_cons.1 h
    rw [List.foldl_cons, ih _ hitems, pushNew]
    by_cases hmem : item ∈ list
    · simp [hmem]
    · -- what follows is not the item, so the longer list takes nothing more away
      have hsame : items.filter (· ∉ list ++ [item]) = items.filter (· ∉ list) := by
        refine List.filter_congr fun x hx => ?_
        have hne : x ≠ item := fun heq => hitem (heq ▸ hx)
        simp [hne]
      rw [if_neg hmem, hsame, List.filter_cons_of_pos (by simpa using hmem), List.append_assoc]
      rfl

/-! ### What waits -/

namespace Pending

/-- The names of what waits to be linked in one way, in the order in which it was found. -/
def names (items : List Pending) : LinkKind → List String
  | .classInModule => items.filterMap fun
    | .cls name => some name
    | .file _ => none
  | .fileInModule => items.filterMap fun
    | .cls _ => none
    | .file name => some name
  | .classInFile => []

private theorem nodup_names {items : List Pending} (h : items.Nodup) (kind : LinkKind) :
    (names items kind).Nodup := by
  cases kind with
  | classInFile => exact List.nodup_nil
  | classInModule | fileInModule =>
    refine h.filterMap fun a a' name ha ha' => ?_
    cases a <;> cases a' <;> simp_all

private theorem attached_attachment (items : List Pending) (mod : String) (kind : LinkKind)
    (place : String) :
    attached (items.map (attachment mod)) kind place =
      if place = mod then names items kind else [] := by
  induction items with
  | nil => cases kind <;> simp [names]
  | cons item items ih =>
    rw [List.map_cons, attached_cons, ih]
    by_cases hplace : place = mod
    · cases item <;> cases kind <;> simp [attachment, names, hplace]
    · cases item <;> simp [attachment, hplace]

end Pending

namespace Session

/-! ### The module of a comment -/

/-- The class that a comment declares. -/
def declaredClass (s : Session) (tags : TagMap) : Option String :=
  match Subject.ofTags tags with
  | .cls => (tags.name? "class").map s.fullName
  | _ => none

/-- Preparing a comment uses up two of its tags, and may guess a method or a property. -/
theorem get?_prepare (s : Session) (tokens : List String) (following : Option String)
    {tag : String} (h : tag ∉ ["namespace", "for", "method", "property"]) :
    Dict.get? (s.prepare tokens following).2 tag = (collect tokens).tags.get? tag := by
  simp only [List.mem_cons, List.not_mem_nil, or_false, not_or] at h
  obtain ⟨hnamespace, hfor, hmethod, hproperty⟩ := h
  have hguess (s : Session) (tags : TagMap) :
      Dict.get? (s.guessSubject tags following).2 tag = tags.get? tag := by
    rw [guessSubject]
    split
    · rfl
    · split
      · rfl
      · rename_i d _
        cases d with
        | method name => exact (Dict.get?_insert _ _ _ _).trans (if_neg hmethod)
        | property name => exact (Dict.get?_insert _ _ _ _).trans (if_neg hproperty)
  have hspace : Dict.get? ((collect tokens).tags.erase "namespace") tag =
      (collect tokens).tags.get? tag := (Dict.get?_erase _ _ _).trans (if_neg hnamespace)
  rw [prepare]
  split
  · split
    · exact (hguess _ _).trans hspace
    · exact ((hguess _ _).trans ((Dict.get?_erase _ _ _).trans (if_neg hfor))).trans hspace
  · exact (hguess _ _).trans hspace

/-- Preparing a comment uses up no module tag and guesses none. -/
theorem moduleNames_prepare (s : Session) (tokens : List String) (following : Option String) :
    TagMap.moduleNames (s.prepare tokens following).2 = (collect tokens).tags.moduleNames := by
  rw [TagMap.moduleNames, TagMap.all, s.get?_prepare tokens following (by decide)]
  rfl

/-- A comment that places its module tags attaches what waits to the open module, and then the
class that it declares. -/
private theorem attachments_of_placesModules {s : Session} {tags : TagMap} {mod : String}
    (hplaces : PlacesModules tags) (hopen : s.context.inModule = some mod)
    (hlast : tags.moduleNames.getLast? = some mod) :
    s.attachmentsOf tags = s.context.pending.map (Pending.attachment mod) ++
      (s.declaredClass tags).toList.flatMap s.attachmentsOfClass := by
  have hdrained : s.drained tags = s.context.pending.map (Pending.attachment mod) := by
    rw [drained, hlast, hopen]
    rfl
  rw [attachmentsOf, declaredClass]
  rcases hplaces with hsubject | ⟨hsubject, hname⟩
  · rw [hsubject]
    simpa using hdrained
  · obtain ⟨name, hname⟩ := Option.isSome_iff_exists.1 hname
    rw [hsubject, hname]
    simp [hdrained]

/-- A class that is declared goes to the open module, and into no other. -/
private theorem attached_attachmentsOfClass {s : Session} {mod : String}
    (hopen : s.context.inModule = some mod) (cls : String) {kind : LinkKind}
    (hkind : kind ≠ .classInFile) (place : String) :
    attached (s.attachmentsOfClass cls) kind place =
      if kind = .classInModule ∧ place = mod then [cls] else [] := by
  rw [attachmentsOfClass, hopen]
  cases s.context.inFile <;> simp [attached_cons, hkind]

/-! ### Draining -/

/-- **A session drains into a module** that is opened, together with a class that is declared
there: nothing waits any more, the module is the home of all that did and lists what it did not
list before, and the other modules list what they did. -/
structure Drains (s s' : Session) (mod : String) (declared : Option String) : Prop where
  openAt : s'.OpenAt mod
  homeOfClass : ∀ cls, .cls cls ∈ s.context.pending ∨ declared = some cls →
    s'.model.links.home? .classInModule cls = some mod
  homeOfFile : ∀ file, .file file ∈ s.context.pending →
    s'.model.links.home? .fileInModule file = some mod
  classList :
    let old := s.model.links.listed .classInModule mod
    s'.model.links.listed .classInModule mod = declared.toList.foldl pushNew
      (old ++ (Pending.names s.context.pending .classInModule).filter (· ∉ old))
  fileList :
    let old := s.model.links.listed .fileInModule mod
    s'.model.links.listed .fileInModule mod =
      old ++ (Pending.names s.context.pending .fileInModule).filter (· ∉ old)
  kept : ∀ other, s.model.modules.contains other = true → s'.model.modules.contains other = true
  others : ∀ other, other ≠ mod →
    s'.model.links.listed .classInModule other = s.model.links.listed .classInModule other ∧
      s'.model.links.listed .fileInModule other = s.model.links.listed .fileInModule other

/-- The class that a comment declares, in the namespace that holds for it. -/
def declares (s : Session) (tokens : List String) (following : Option String) : Option String :=
  let (s, tags) := s.prepare tokens following
  s.declaredClass tags

section Comment

variable {s : Session} {tokens : List String} {following : Option String} {mod : String}
  (hplaces : PlacesModules (s.prepare tokens following).2)
  (hlast : (TagMap.moduleNames (s.prepare tokens following).2).getLast? = some mod)

include hlast

/-- The last module that is named is the open one when the comment is placed. -/
theorem inModule_prepare_of_named :
    (s.prepare tokens following).1.context.inModule = some mod := by
  rw [(s.prepare_fst tokens following).1, inModule_collect,
    ← s.moduleNames_prepare tokens following, hlast]
  rfl

include hplaces

private theorem attachments_of_named :
    s.attachments (.comment tokens following) =
      s.context.pending.map (Pending.attachment mod) ++
        (s.declares tokens following).toList.flatMap
          (s.prepare tokens following).1.attachmentsOfClass := by
  rw [attachments, ← (s.prepare_fst tokens following).2.1]
  exact attachments_of_placesModules hplaces (inModule_prepare_of_named hlast) hlast

/-- What goes into modules goes into the last one that is named, and the class that is declared
comes last. -/
private theorem attached_attachments {kind : LinkKind} (hkind : kind ≠ .classInFile)
    (place : String) :
    attached (s.attachments (.comment tokens following)) kind place =
      if place = mod then
        Pending.names s.context.pending kind ++
          if kind = .classInModule then (s.declares tokens following).toList else []
      else [] := by
  have hopen := inModule_prepare_of_named hlast
  rw [attachments_of_named hplaces hlast, attached_append, Pending.attached_attachment]
  cases s.declares tokens following with
  | none => by_cases hplace : place = mod <;> simp [hplace]
  | some cls =>
    rw [Option.toList_some, List.flatMap_singleton, attached_attachmentsOfClass hopen cls hkind]
    by_cases hplace : place = mod <;> simp [hplace]

end Comment

/-- **A comment that places its module tags drains into the last module that they name**, and also
if its constructor cannot be placed. -/
theorem drains_step (version : String) (v : UInt32) (inputs : List Input) (tokens : List String)
    (following : Option String) (mod : String) :
    let s := (start version v).run inputs
    let tags := (s.prepare tokens following).2
    PlacesModules tags → tags.moduleNames.getLast? = some mod →
      s.Drains (s.step (.comment tokens following)) mod (s.declares tokens following) := by
  intro s tags hplaces hlast
  have hs : s.Intact := (intact_start version v).run (contextKnown_start version v) inputs
  have hlinks := links_step hs (.comment tokens following)
  have hopen := inModule_prepare_of_named hlast
  have hnodup (kind : LinkKind) := Pending.nodup_names hs.waiting_nodup kind
  have hattached {kind : LinkKind} (hkind : kind ≠ .classInFile) (place : String) :=
    attached_attachments hplaces hlast hkind place
  have hhome {a : Attachment} (ha : a ∈ s.attachments (.comment tokens following)) :
      (s.step (.comment tokens following)).model.links.home? a.kind a.item = some a.place := by
    rw [hlinks]
    exact home?_of_mem_attachments ha
  have hwaiting {item : Pending} (hitem : item ∈ s.context.pending) :
      item.attachment mod ∈ s.attachments (.comment tokens following) := by
    rw [attachments_of_named hplaces hlast]
    exact List.mem_append_left _ (List.mem_map_of_mem hitem)
  constructor
  case openAt =>
    rw [step, readComment_fst]
    exact openAt_place tokens hopen hlast hplaces _
  case homeOfClass =>
    rintro cls (hcls | hcls)
    · exact hhome (hwaiting hcls)
    · refine hhome (a := ⟨.classInModule, cls, mod⟩) (mem_attached.1 ?_)
      rw [hattached (by decide), if_pos rfl, if_pos rfl, hcls]
      simp
  case homeOfFile =>
    intro file hfile
    exact hhome (hwaiting hfile)
  case classList =>
    rw [hlinks, Links.listed_foldl_attach, hattached (by decide), if_pos rfl, if_pos rfl,
      List.foldl_append, foldl_pushNew_of_nodup _ (hnodup _)]
  case fileList =>
    rw [hlinks, Links.listed_foldl_attach, hattached (by decide), if_pos rfl,
      if_neg (by decide), List.append_nil, foldl_pushNew_of_nodup _ (hnodup _)]
  case kept =>
    intro other hother
    rw [← (s.prepare_fst tokens following).2.2] at hother
    rw [step, readComment_fst]
    exact (keepsOpen_place _ tokens _ _).modules other hother
  case others =>
    intro other hother
    rw [hlinks, Links.listed_foldl_attach, Links.listed_foldl_attach, hattached (by decide),
      hattached (by decide), if_neg hother, if_neg hother]
    exact ⟨rfl, rfl⟩

/-- A file and a class wait for the comment of another class, whose constructor cannot be placed. -/
theorem drains_step_constructor :
    let s := (start "1.0.0" 3).run
      [.comment ["@filemarker a.js"] none, .comment ["@class A"] none]
    let tokens := ["@class B", "@module x", "@module m", "@constructor", "@param -"]
    s.context.pending = [.file "a.js", .cls "A"] ∧ (s.readComment tokens none).2.isOk = false ∧
      s.Drains (s.step (.comment tokens none)) "m" (some "B") := by
  intro s tokens
  have hdeclares : s.declares tokens none = some "B" := by decide +kernel
  refine ⟨by decide +kernel, by decide +kernel, ?_⟩
  rw [← hdeclares]
  exact drains_step "1.0.0" 3 _ tokens none "m" (.inr ⟨by decide +kernel, by decide +kernel⟩)
    (by decide +kernel)

end Session

end ApiDocs
