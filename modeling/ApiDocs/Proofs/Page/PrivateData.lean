import ApiDocs.Page.Basic
import ApiDocs.Proofs.Model.Members
import ApiDocs.Proofs.Model.RoundTrip
import ApiDocs.Proofs.Page.Ancestors

/-!
# Private data on public pages

Without private entries, pages are to show the public classes of a model without their private
members (`publicClasses`). Everything on a page but one list keeps to this (`view_publicPart`): the
listings of members filter them, and the walk over the ancestors passes a private class by just as
one that is missing (`knownDocs_publicPart`).

The list of subclasses is the exception, since it takes all classes of the model, and it can be
read off the page again (`ClassView.document_subclasses_inj`). So **models with the same public
classes have the same pages if and only if these classes have the same subclasses, private ones
included** (`classPages_eq_iff`). A private subclass is on the page of its superclass.
-/

namespace ApiDocs

/-! ### The public part of a model -/

namespace Dict

variable {α : Type}

private theorem values_filter (p : α → Bool) (d : Dict α) :
    (d.filter p).values = d.values.filter p := by
  rw [values, values, filter, List.filter_map]
  rfl

private theorem values_map {β : Type} (f : α → β) (d : Dict α) :
    (d.map fun _ => f).values = d.values.map f := by
  rw [values, values, map, List.map_map, List.map_map]
  rfl

end Dict

/-- A class without its private members. -/
def ClassDoc.publicPart (c : ClassDoc) : ClassDoc :=
  c.mapMembers fun _ ms => ms.filter (·.access.shown false)

/-- The classes that are not private, without their private members. -/
def publicClasses (classes : Dict ClassDoc) : Dict ClassDoc :=
  (classes.filter (·.access.shown false)).map fun _ c => c.publicPart

/-- The public classes are those that are shown, without their private members. -/
private theorem get?_publicClasses (classes : Dict ClassDoc) (name : String) :
    (publicClasses classes).get? name =
      ((classes.get? name).filter (·.access.shown false)).map ClassDoc.publicPart := by
  rw [publicClasses, Dict.get?_map, Dict.get?_filter]

private theorem values_publicClasses (m : Model) :
    (publicClasses m.classes).values =
      (Output.shownClasses m false).map ClassDoc.publicPart := by
  rw [Output.shownClasses, ← Dict.values_filter, ← Dict.values_map]
  rfl

/-! ### Members -/

private theorem memberViews_publicPart (c : ClassDoc) (kind : MemberKind) :
    c.publicPart.memberViews false kind = c.memberViews false kind := by
  rw [ClassDoc.memberViews, ClassDoc.memberViews, ClassDoc.publicPart,
    ClassDoc.members_mapMembers, Dict.values_filter, List.filter_filter]
  simp [ClassDoc.mapMembers]

/-- The public part of a class passes on the same members. -/
private theorem inheritable_publicPart (c : ClassDoc) (kind : MemberKind) :
    inheritable false (c.publicPart.members kind) = inheritable false (c.members kind) := by
  rw [inheritable, inheritable, ClassDoc.publicPart, ClassDoc.members_mapMembers,
    Dict.values_filter, List.filter_filter]
  simp

/-! ### Ancestors -/

section Walk

variable {classes : Dict ClassDoc} {showPrivate : Bool} {visited todo : List String} {name : String}
  (hv : name ∉ visited)

include hv

/-- Unknown classes have no parents. -/
private theorem ancestors_unknown (hc : classes.get? name = none) :
    ancestors classes showPrivate visited (name :: todo) =
      .unknown name :: ancestors classes showPrivate (name :: visited) todo := by
  rw [ancestors, dif_neg hv]
  split
  · rfl
  · rename_i heq
    rw [hc] at heq
    cases heq

/-- Known classes are walked through if they are shown. -/
private theorem ancestors_known {c : ClassDoc} (hc : classes.get? name = some c) :
    ancestors classes showPrivate visited (name :: todo) =
      if c.access.shown showPrivate then
        .known c :: ancestors classes showPrivate (name :: visited) (c.parents ++ todo)
      else ancestors classes showPrivate (name :: visited) todo := by
  rw [ancestors, dif_neg hv]
  split
  · rename_i heq
    rw [hc] at heq
    cases heq
  · rename_i heq
    rw [hc] at heq
    cases heq
    rfl

end Walk

/-- **A private class on the walk is like a missing one.** -/
theorem knownDocs_publicPart (classes : Dict ClassDoc) (visited todo : List String) :
    Inherited.knownDocs (ancestors (publicClasses classes) false visited todo) =
      (Inherited.knownDocs (ancestors classes false visited todo)).map ClassDoc.publicPart := by
  fun_induction ancestors classes false visited todo with
  | case1 =>
    rw [ancestors]
    rfl
  | case2 visited name todo hv ih => rw [ancestors, dif_pos hv, ih]
  | case3 visited name todo hv _ hc ih =>
    have hnone : (publicClasses classes).get? name = none := by
      rw [get?_publicClasses, hc]
      rfl
    rw [ancestors_unknown hv hnone]
    exact ih
  | case4 visited name todo hv _ c hc _ shown ih =>
    have hsome : (publicClasses classes).get? name = some c.publicPart := by
      rw [get?_publicClasses, hc, Option.filter_some, if_pos shown]
      rfl
    have hshown : c.publicPart.access.shown false = true := shown
    rw [ancestors_known hv hsome, if_pos hshown, knownDocs_known, knownDocs_known, List.map_cons,
      ← ih]
    rfl
  | case5 visited name todo hv _ c hc _ hidden ih =>
    -- the walk over all classes drops the name, the other one finds it unknown
    have hnone : (publicClasses classes).get? name = none := by
      rw [get?_publicClasses, hc, Option.filter_some, if_neg hidden]
      rfl
    rw [ancestors_unknown hv hnone]
    exact ih

/-- Ancestors without their private members contribute the same. -/
private theorem contributions_publicPart (docs : List ClassDoc) (kind : MemberKind) :
    Inherited.contributions false (docs.map ClassDoc.publicPart) kind =
      Inherited.contributions false docs kind := by
  rw [Inherited.contributions, Inherited.contributions, List.foldl_map]
  congr 1
  funext d doc
  rw [inheritable_publicPart]
  rfl

/-- A class inherits the same from public classes. -/
private theorem inherited_publicPart (c : ClassDoc) (classes : Dict ClassDoc) :
    Inherited.ofClass c.publicPart (publicClasses classes) false =
      Inherited.ofClass c classes false := by
  have hwalk : Inherited.knownDocs (c.publicPart.ancestors (publicClasses classes) false) =
      (Inherited.knownDocs (c.ancestors classes false)).map ClassDoc.publicPart :=
    knownDocs_publicPart classes [c.name] c.parents
  have hnames (docs : List ClassDoc) :
      (docs.map ClassDoc.publicPart).map (·.name) = docs.map (·.name) := by
    rw [List.map_map]
    rfl
  rw [Inherited.ofClass, hwalk]
  simp only [contributions_publicPart, hnames]
  rfl

/-! ### Pages -/

/-- **The page of a class according to the public part of a model**, with a list of subclasses. -/
def publicPage (classes : Dict ClassDoc) (c : ClassDoc) (subclasses : List String) : Page where
  path := Path.join "classes" (c.name ++ ".json")
  content :=
    { ClassView.ofClass { classes } false c with subclasses }.toJson.document

/-- The shown classes of the model with a given superclass. -/
def Model.shownSubclasses (m : Model) (name : String) : List String :=
  ((Output.shownClasses m false).filter fun c => c.superclass = some name).map (·.name)

/-- The subclasses that are shown are the public ones. -/
private theorem shownSubclasses_eq (m : Model) (name : String) :
    m.shownSubclasses name = ({ classes := publicClasses m.classes } : Model).subclasses name := by
  rw [Model.subclasses, values_publicClasses, List.filter_map, List.map_map]
  rfl

/-- **A view shows the public part of a model**, but for the subclasses. -/
theorem view_publicPart (m : Model) (c : ClassDoc) (subclasses : List String) :
    { ClassView.ofClass m false c with subclasses } =
      { ClassView.ofClass { classes := publicClasses m.classes } false c.publicPart with
        subclasses } := by
  simp only [ClassView.ofClass, memberViews_publicPart, inherited_publicPart]
  rfl

/-- The page of a class shows its public part, but the subclasses of the whole model. -/
private theorem classPage_publicPart (m : Model) (c : ClassDoc) :
    Output.classPage m false c =
      publicPage (publicClasses m.classes) c.publicPart (m.subclasses c.name) := by
  rw [publicPage, ← view_publicPart]
  rfl

/-! ### What the list of subclasses gives away -/

section Document

open Json

/-- The list of subclasses stands in the middle of a view, and nothing else depends on it. -/
private theorem ClassView.toJson_subclasses (v : ClassView) :
    ∃ before after : List (String × Json), ∀ subclasses : List String,
      { v with subclasses }.toJson =
        obj (("name", str v.name) :: (before ++ ("subclasses", strs subclasses) :: after)) := by
  refine ⟨member "shortName" (str v.shortName) ++ member "namespace" (str v.inNamespace)
    ++ text? "module" v.inModule ++ text? "file" v.inFile
    ++ member "description" (str v.description) ++ v.access.toMember
    ++ text? "deprecated" v.deprecated ++ text? "extends" v.superclass
    ++ member "uses" (strs v.uses) ++ member "innerClasses" (strs v.innerClasses),
    _, fun subclasses => by
      simp only [toJson, member, List.append_assoc, List.cons_append, List.nil_append]
      rfl⟩

private theorem writeMembers_append_members (depth : Nat) (ms ms' : List (String × Json)) :
    writeMembers depth (ms ++ ms') = writeMembers depth ms ++ writeMembers depth ms' := by
  induction ms with
  | nil => rw [writeMembers, List.nil_append, List.nil_append]
  | cons m ms ih =>
    rw [List.cons_append, writeMembers, writeMembers, ih]
    simp only [List.append_assoc]

/-- **The subclasses can be read off a page.** -/
theorem ClassView.document_subclasses_inj (v : ClassView) {subclasses subclasses' : List String}
    (h : { v with subclasses }.toJson.document =
      { v with subclasses := subclasses' }.toJson.document) : subclasses = subclasses' := by
  obtain ⟨before, after, hjson⟩ := v.toJson_subclasses
  have hwrite := String.ofList_injective h
  rw [hjson, hjson, ← List.append_nil (write 0 _), write_obj_append, ← List.append_nil (write 0 _),
    write_obj_append] at hwrite
  -- what stands before the lists is the same; where they end is found by reading them
  simp only [writeMembers_append_members, List.append_assoc, writeMembers_append, List.cons.injEq,
    List.append_cancel_left_eq, true_and] at hwrite
  have hends (ms : List (String × Json)) :
      EndsValue (writeMembers 1 ms ++ (newline 0 ++ ['\x7d'])) :=
    endsValue_writeMembers 1 ms (endsValue_newline 0 _)
  exact ((decodes_strs subclasses).eq_of_write (decodes_strs subclasses') (hends after)
    (hends after) hwrite).1

end Document

/-- Pages tell lists of subclasses apart. -/
private theorem publicPage_inj {classes : Dict ClassDoc} {c : ClassDoc}
    {subclasses subclasses' : List String} :
    publicPage classes c subclasses = publicPage classes c subclasses' ↔
      subclasses = subclasses' := by
  constructor
  · intro h
    rw [publicPage, publicPage, Page.mk.injEq] at h
    exact (ClassView.ofClass { classes } false c).document_subclasses_inj h.2
  · intro h
    rw [h]

/-- The pages follow from the public classes and the lists of subclasses. -/
private theorem classPages_eq (m : Model) (modelFile : String) :
    (Output.pages ⟨modelFile, false⟩ m .classPages).1 = (publicClasses m.classes).values.map
      fun c => publicPage (publicClasses m.classes) c (m.subclasses c.name) := by
  rw [values_publicClasses, List.map_map, Output.pages]
  refine List.map_congr_left fun c _ => ?_
  rw [classPage_publicPart]
  rfl

/-- With the shown subclasses only, the views follow from the public classes. -/
private theorem shownViews_eq (m : Model) :
    (Output.shownClasses m false).map
        (fun c => { ClassView.ofClass m false c with subclasses := m.shownSubclasses c.name }) =
      (publicClasses m.classes).values.map
        (ClassView.ofClass { classes := publicClasses m.classes } false) := by
  rw [values_publicClasses, List.map_map]
  refine List.map_congr_left fun c _ => ?_
  rw [view_publicPart, shownSubclasses_eq]
  rfl

/-- **Private data stays off the pages, but for the names of private subclasses.** Let two models
have the same public classes. Were only shown subclasses listed, their views would be the same. As
all subclasses are listed, their pages are the same if and only if each shown class has the same
subclasses in both, private ones included. -/
theorem classPages_eq_iff {m m' : Model} (h : publicClasses m.classes = publicClasses m'.classes)
    (modelFile : String) :
    (Output.shownClasses m false).map
        (fun c => { ClassView.ofClass m false c with subclasses := m.shownSubclasses c.name }) =
      (Output.shownClasses m' false).map
        (fun c => { ClassView.ofClass m' false c with subclasses := m'.shownSubclasses c.name }) ∧
    ((Output.pages ⟨modelFile, false⟩ m .classPages).1 =
        (Output.pages ⟨modelFile, false⟩ m' .classPages).1 ↔
      ∀ c ∈ Output.shownClasses m false, m.subclasses c.name = m'.subclasses c.name) := by
  constructor
  · rw [shownViews_eq, shownViews_eq, h]
  · rw [classPages_eq, classPages_eq, ← h, List.map_inj_left, values_publicClasses,
      List.forall_mem_map]
    simp only [publicPage_inj]
    rfl

/-- A class with a private subclass. -/
def baseWithHidden : Dict ClassDoc :=
  .ofList [
    ("Base", { name := "Base" }),
    ("Hidden", { name := "Hidden", superclass := some "Base", access := .priv })]

/-- The page of a class changes with its private subclass. -/
theorem classPages_hidden_subclass :
    publicClasses baseWithHidden = publicClasses (baseWithHidden.erase "Hidden") ∧
    (Output.pages ⟨"parsed.json", false⟩ { classes := baseWithHidden } .classPages).1 ≠
      (Output.pages ⟨"parsed.json", false⟩ { classes := baseWithHidden.erase "Hidden" }
        .classPages).1 := by
  have hpublic : publicClasses baseWithHidden = publicClasses (baseWithHidden.erase "Hidden") := by
    decide +kernel
  refine ⟨hpublic, fun hpages => ?_⟩
  have hsame : ∀ c ∈ Output.shownClasses { classes := baseWithHidden } false,
      Model.subclasses { classes := baseWithHidden } c.name =
        Model.subclasses { classes := baseWithHidden.erase "Hidden" } c.name :=
    (classPages_eq_iff hpublic "parsed.json").2.1 hpages
  exact absurd (hsame { name := "Base" } (by decide +kernel)) (by decide +kernel)

end ApiDocs
