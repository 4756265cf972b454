import Mathlib.Data.List.Induction
import Mathlib.Logic.Relation
import ApiDocs.Page.Inherited

/-!
# Inheritance is visible reachability

The walk over the ancestors of a class is a depth-first search with one list of visited names for
all of its branches, over a graph that may have cycles. `Path` is the other side: a chain of shown
classes, each a parent of the one before, that avoids some names. **The walk finds exactly the
ends of such paths** (`mem_walkNames_iff`), by induction along the walk: a path that meets the name
just visited is cut at its last visit, and what is left of it begins at a parent of that name.

`Inherited.IsExact` collects what this says about a whole page of inherited members, and
`ofClass_isExact` proves it for every class of every model.
-/

namespace ApiDocs

section Graph

variable (classes : Dict ClassDoc) (showPrivate : Bool)

/-- A class is in the model and is shown. -/
def Visible (name : String) : Prop :=
  ∃ c, classes.get? name = some c ∧ (showPrivate = true ∨ c.access ≠ .priv)

/-- The second class is shown, and it is the superclass of the first or used by it. -/
def InheritsFrom (name parent : String) : Prop :=
  (∃ c, classes.get? name = some c ∧ (c.superclass = some parent ∨ parent ∈ c.uses)) ∧
    Visible classes showPrivate parent

/-- A path of shown classes, both ends included, that avoids some names. -/
inductive Path (avoid : List String) : String → String → Prop
  | here {name : String} (visible : Visible classes showPrivate name) (fresh : name ∉ avoid) :
      Path avoid name name
  | step {name parent a : String} {c : ClassDoc} (visible : Visible classes showPrivate name)
      (fresh : name ∉ avoid) (doc : classes.get? name = some c) (up : parent ∈ c.parents)
      (rest : Path avoid parent a) : Path avoid name a

end Graph

private theorem ClassDoc.mem_parents {c : ClassDoc} {parent : String} :
    parent ∈ c.parents ↔ c.superclass = some parent ∨ parent ∈ c.uses := by
  simp [parents, Option.mem_toList]

private theorem Access.shown_iff {access : Access} {showPrivate : Bool} :
    access.shown showPrivate = true ↔ showPrivate = true ∨ access ≠ .priv := by
  simp [shown]

namespace Path

variable {classes : Dict ClassDoc} {showPrivate : Bool} {avoid : List String}
  {name t a : String} {c : ClassDoc}

/-- A path does not begin at a class that is avoided. -/
private theorem start_fresh (h : Path classes showPrivate avoid t a) : t ∉ avoid := by
  cases h with
  | here _ fresh => exact fresh
  | step _ fresh _ _ _ => exact fresh

/-- A path begins at a visible class. -/
private theorem start_visible (h : Path classes showPrivate avoid t a) :
    Visible classes showPrivate t := by
  cases h with
  | here visible _ => exact visible
  | step visible _ _ _ _ => exact visible

/-- A path does not end at a class that is avoided. -/
private theorem end_fresh (h : Path classes showPrivate avoid t a) : a ∉ avoid := by
  induction h with
  | here _ fresh => exact fresh
  | step _ _ _ _ _ ih => exact ih

/-- A path that avoids more avoids less. -/
private theorem weaken (h : Path classes showPrivate (name :: avoid) t a) :
    Path classes showPrivate avoid t a := by
  induction h with
  | here visible fresh => exact .here visible fun h => fresh (List.mem_cons_of_mem name h)
  | step visible fresh doc up _ ih =>
    exact .step visible (fun h => fresh (List.mem_cons_of_mem name h)) doc up ih

/-- A path never meets a class that is not shown. -/
private theorem avoid_hidden (h : Path classes showPrivate avoid t a)
    (hidden : ¬Visible classes showPrivate name) :
    Path classes showPrivate (name :: avoid) t a := by
  have hne : ∀ {n}, Visible classes showPrivate n → n ∉ avoid → n ∉ name :: avoid := by
    intro n hn hfresh hmem
    rcases List.mem_cons.1 hmem with rfl | hmem
    · exact hidden hn
    · exact hfresh hmem
  induction h with
  | here visible fresh => exact .here visible (hne visible fresh)
  | step visible fresh doc up _ ih => exact .step visible (hne visible fresh) doc up ih

/-- **Cutting a path** at its last visit of a class: it avoids the class altogether, ends there,
or what is left avoids it and begins at one of its parents. -/
theorem cut (h : Path classes showPrivate avoid t a) (hc : classes.get? name = some c) :
    Path classes showPrivate (name :: avoid) t a ∨ a = name ∨
      ∃ p ∈ c.parents, Path classes showPrivate (name :: avoid) p a := by
  -- from the end of the path on, so that the visit found first is the last one
  induction h with
  | @here n visible fresh =>
    by_cases hn : n = name
    · exact .inr (.inl hn)
    · refine .inl (.here visible fun hmem => ?_)
      rcases List.mem_cons.1 hmem with rfl | hmem
      · exact hn rfl
      · exact fresh hmem
  | @step n parent a c' visible fresh doc up _ ih =>
    rcases ih with hpath | hend
    · by_cases hn : n = name
      · subst hn
        rw [hc, Option.some.injEq] at doc
        subst doc
        exact .inr (.inr ⟨parent, up, hpath⟩)
      · refine .inl (.step visible (fun hmem => ?_) doc up hpath)
        rcases List.mem_cons.1 hmem with rfl | hmem
        · exact hn rfl
        · exact fresh hmem
    · exact .inr hend

end Path

/-! ### The walk -/

@[simp] theorem knownDocs_nil : Inherited.knownDocs [] = [] := rfl

@[simp] theorem knownDocs_unknown (name : String) (walk : List Ancestor) :
    Inherited.knownDocs (.unknown name :: walk) = Inherited.knownDocs walk := rfl

@[simp] theorem knownDocs_known (doc : ClassDoc) (walk : List Ancestor) :
    Inherited.knownDocs (.known doc :: walk) = doc :: Inherited.knownDocs walk := rfl

/-- The names of the classes that a walk meets. -/
def walkNames (walk : List Ancestor) : List String := (Inherited.knownDocs walk).map (·.name)

section Walk

variable {classes : Dict ClassDoc} (named : ∀ e ∈ classes.entries, e.2.name = e.1)
  (showPrivate : Bool)

include named

/-- A class is kept under its name. -/
private theorem name_eq_of_get? {name : String} {c : ClassDoc} (hc : classes.get? name = some c) :
    c.name = name :=
  named (name, c) (Dict.mem_of_lookup hc)

/-- The classes that a walk meets are those of the model. -/
private theorem get?_of_mem_knownDocs (visited todo : List String) :
    ∀ doc ∈ Inherited.knownDocs (ancestors classes showPrivate visited todo),
      classes.get? doc.name = some doc := by
  fun_induction ancestors classes showPrivate visited todo with
  | case1 => simp
  | case2 visited name todo hv ih => exact ih
  | case3 visited name todo hv _ hc ih => simpa using ih
  | case4 visited name todo hv _ c hc _ shown ih =>
    intro doc hdoc
    rcases List.mem_cons.1 hdoc with rfl | hdoc
    · rwa [name_eq_of_get? named hc]
    · exact ih doc hdoc
  | case5 visited name todo hv _ c hc _ hidden ih => exact ih

/-- **The walk finds exactly the ends of the paths** that begin at a name still to be visited and
avoid the names visited before. -/
theorem mem_walkNames_iff (visited todo : List String) (a : String) :
    a ∈ walkNames (ancestors classes showPrivate visited todo) ↔
      ∃ t ∈ todo, Path classes showPrivate visited t a := by
  -- a name that no path passes may be counted as visited and dropped
  have drop : ∀ {visited name todo}, ¬Visible classes showPrivate name →
      ((∃ t ∈ todo, Path classes showPrivate (name :: visited) t a) ↔
        ∃ t ∈ name :: todo, Path classes showPrivate visited t a) := by
    intro visited name todo hidden
    constructor
    · rintro ⟨t, ht, hpath⟩
      exact ⟨t, List.mem_cons_of_mem name ht, hpath.weaken⟩
    · rintro ⟨t, ht, hpath⟩
      rcases List.mem_cons.1 ht with rfl | ht
      · exact absurd hpath.start_visible hidden
      · exact ⟨t, ht, hpath.avoid_hidden hidden⟩
  fun_induction ancestors classes showPrivate visited todo with
  | case1 visited => simp [walkNames]
  | case2 visited name todo hv ih =>
    refine ih.trans ⟨?_, ?_⟩
    · rintro ⟨t, ht, hpath⟩
      exact ⟨t, List.mem_cons_of_mem name ht, hpath⟩
    · rintro ⟨t, ht, hpath⟩
      rcases List.mem_cons.1 ht with rfl | ht
      · exact absurd hv hpath.start_fresh
      · exact ⟨t, ht, hpath⟩
  | case3 visited name todo hv _ hc ih =>
    have hidden : ¬Visible classes showPrivate name := by
      rintro ⟨c, hc', -⟩
      rw [hc] at hc'
      cases hc'
    exact ih.trans (drop hidden)
  | case4 visited name todo hv _ c hc _ shown ih =>
    have visible : Visible classes showPrivate name := ⟨c, hc, Access.shown_iff.1 shown⟩
    have hname : c.name = name := name_eq_of_get? named hc
    rw [walkNames, knownDocs_known, List.map_cons, List.mem_cons, hname]
    constructor
    · rintro (rfl | ha)
      · exact ⟨a, List.mem_cons_self, .here visible hv⟩
      · obtain ⟨t, ht, hpath⟩ := ih.1 ha
        rcases List.mem_append.1 ht with ht | ht
        · exact ⟨name, List.mem_cons_self, .step visible hv hc ht hpath.weaken⟩
        · exact ⟨t, List.mem_cons_of_mem name ht, hpath.weaken⟩
    · rintro ⟨t, ht, hpath⟩
      rcases hpath.cut hc with hcut | rfl | ⟨p, hp, hcut⟩
      · rcases List.mem_cons.1 ht with rfl | ht
        · exact absurd List.mem_cons_self hcut.start_fresh
        · exact .inr (ih.2 ⟨t, List.mem_append_right _ ht, hcut⟩)
      · exact .inl rfl
      · exact .inr (ih.2 ⟨p, List.mem_append_left _ hp, hcut⟩)
  | case5 visited name todo hv _ c hc _ hidden ih =>
    have hidden' : ¬Visible classes showPrivate name := by
      rintro ⟨c', hc', hshown⟩
      rw [hc, Option.some.injEq] at hc'
      subst hc'
      exact hidden (Access.shown_iff.2 hshown)
    exact ih.trans (drop hidden')

/-- No class is met twice. -/
private theorem nodup_walkNames (visited todo : List String) :
    (walkNames (ancestors classes showPrivate visited todo)).Nodup := by
  fun_induction ancestors classes showPrivate visited todo with
  | case1 => simp [walkNames]
  | case2 visited name todo hv ih => exact ih
  | case3 visited name todo hv _ hc ih => exact ih
  | case4 visited name todo hv _ c hc _ shown ih =>
    rw [walkNames, knownDocs_known, List.map_cons, name_eq_of_get? named hc]
    refine List.nodup_cons.2 ⟨fun hmem => ?_, ih⟩
    -- what is met later ends a path that avoids this name
    obtain ⟨t, -, hpath⟩ := (mem_walkNames_iff named showPrivate _ _ _).1 hmem
    exact hpath.end_fresh List.mem_cons_self
  | case5 visited name todo hv _ c hc _ hidden ih => exact ih

end Walk

/-! ### Paths and chains of parents -/

section Reach

variable {classes : Dict ClassDoc} {showPrivate : Bool}

/-- A path leads up along the inheritance. -/
private theorem transGen_of_path {t a : String} (h : Path classes showPrivate [] t a) :
    ∀ {name c}, classes.get? name = some c → t ∈ c.parents →
      Relation.TransGen (InheritsFrom classes showPrivate) name a := by
  induction h with
  | here visible _ =>
    intro name c hc ht
    exact .single ⟨⟨c, hc, ClassDoc.mem_parents.1 ht⟩, visible⟩
  | step visible _ doc up _ ih =>
    intro name c hc ht
    exact .head ⟨⟨c, hc, ClassDoc.mem_parents.1 ht⟩, visible⟩ (ih doc up)

/-- Going up along the inheritance there is a path without repeats. -/
private theorem path_of_transGen {name a : String}
    (h : Relation.TransGen (InheritsFrom classes showPrivate) name a) :
    ∃ c, classes.get? name = some c ∧ ∃ t ∈ c.parents, Path classes showPrivate [] t a := by
  induction h using Relation.TransGen.head_induction_on with
  | single h =>
    obtain ⟨⟨c, hc, hup⟩, visible⟩ := h
    exact ⟨c, hc, a, ClassDoc.mem_parents.2 hup, .here visible List.not_mem_nil⟩
  | head h _ ih =>
    obtain ⟨⟨c, hc, hup⟩, visible⟩ := h
    obtain ⟨c', hc', t, ht, hpath⟩ := ih
    exact ⟨c, hc, _, ClassDoc.mem_parents.2 hup, .step visible List.not_mem_nil hc' ht hpath⟩

/-- A chain of parents that leads away from a class need not come back to it. -/
private theorem exists_path_iff_transGen {name a : String} {c : ClassDoc}
    (hc : classes.get? name = some c) (hne : a ≠ name) :
    (∃ t ∈ c.parents, Path classes showPrivate [name] t a) ↔
      Relation.TransGen (InheritsFrom classes showPrivate) name a := by
  constructor
  · rintro ⟨t, ht, hpath⟩
    exact transGen_of_path hpath.weaken hc ht
  · intro h
    obtain ⟨c', hc', t, ht, hpath⟩ := path_of_transGen h
    rw [hc, Option.some.injEq] at hc'
    subst hc'
    rcases hpath.cut hc with hcut | rfl | hcut
    · exact ⟨t, ht, hcut⟩
    · exact absurd rfl hne
    · exact hcut

end Reach

/-! ### What an ancestor contributes -/

/-- A member is passed on unless it is static, or private and not shown. -/
def MemberDoc.PassedOn (showPrivate : Bool) (m : MemberDoc) : Prop :=
  m.isStatic = false ∧ (showPrivate = true ∨ m.access ≠ .priv)

instance (showPrivate : Bool) (m : MemberDoc) : Decidable (m.PassedOn showPrivate) :=
  inferInstanceAs (Decidable (_ ∧ _))

/-- A member as it is listed. -/
def MemberDoc.listed (m : MemberDoc) : InheritedMember :=
  { name := m.name, access := m.access, deprecated := m.deprecated.isSome }

/-- The members that are passed on are sorted by name. -/
private theorem inheritable_eq (showPrivate : Bool) (ms : Dict MemberDoc) :
    inheritable showPrivate ms = Text.sortByName (·.name)
      ((ms.values.filter fun m => decide (m.PassedOn showPrivate)).map MemberDoc.listed) := by
  have htest : (fun m : MemberDoc => !m.isStatic && m.access.shown showPrivate) =
      fun m => decide (m.PassedOn showPrivate) := by
    funext m
    rw [Bool.eq_iff_iff, Bool.and_eq_true, Bool.not_eq_true', Access.shown_iff,
      decide_eq_true_eq, MemberDoc.PassedOn]
  rw [inheritable, htest]
  rfl

/-- Just the members that are passed on are listed. -/
private theorem inheritable_perm (showPrivate : Bool) (ms : Dict MemberDoc) :
    (inheritable showPrivate ms).Perm
      ((ms.values.filter fun m => decide (m.PassedOn showPrivate)).map MemberDoc.listed) := by
  rw [inheritable_eq]
  exact Text.sortByName_perm _ _

/-- They are listed by their names in lower case. -/
private theorem inheritable_ordered (showPrivate : Bool) (ms : Dict MemberDoc) :
    (inheritable showPrivate ms).Pairwise fun x y =>
      Text.lower x.name < Text.lower y.name ∨
        Text.lower x.name = Text.lower y.name ∧ x.name ≤ y.name := by
  rw [inheritable_eq]
  refine (Text.pairwise_sortByName (fun x : InheritedMember => x.name) _).imp ?_
  intro x y h
  exact Text.nameLE_iff.1 h

/-- A class contributes if it has a member to pass on. -/
private theorem inheritable_ne_nil {showPrivate : Bool} {ms : Dict MemberDoc} :
    inheritable showPrivate ms ≠ [] ↔ ∃ m ∈ ms.values, m.PassedOn showPrivate := by
  rw [← List.length_pos_iff, (inheritable_perm showPrivate ms).length_eq, List.length_pos_iff, Ne,
    List.map_eq_nil_iff, List.filter_eq_nil_iff]
  simp

namespace Inherited

/-- Classes of different names contribute apart from each other. -/
private theorem get?_contributions {showPrivate : Bool} {docs : List ClassDoc} {kind : MemberKind}
    (nodup : (docs.map (·.name)).Nodup) {a : String} {l : List InheritedMember} :
    (contributions showPrivate docs kind).get? a = some l ↔
      l ≠ [] ∧ ∃ doc ∈ docs, doc.name = a ∧ inheritable showPrivate (doc.members kind) = l := by
  -- from the last class on: its contribution is bound last
  induction docs using List.reverseRecOn with
  | nil => simp [contributions]
  | append_singleton docs doc ih =>
    rw [List.map_append, List.map_singleton, List.nodup_append] at nodup
    obtain ⟨nodup, -, hfresh⟩ := nodup
    have hfresh' : ∀ d ∈ docs, d.name ≠ doc.name := fun d hd =>
      hfresh d.name (List.mem_map_of_mem hd) doc.name (List.mem_singleton.2 rfl)
    have hfold : contributions showPrivate (docs ++ [doc]) kind =
        if (inheritable showPrivate (doc.members kind)).isEmpty then
          contributions showPrivate docs kind
        else (contributions showPrivate docs kind).insert doc.name
          (inheritable showPrivate (doc.members kind)) := by
      rw [contributions, List.foldl_append]
      rfl
    have hsplit : (∃ d ∈ docs ++ [doc],
          d.name = a ∧ inheritable showPrivate (d.members kind) = l) ↔
        (∃ d ∈ docs, d.name = a ∧ inheritable showPrivate (d.members kind) = l) ∨
          doc.name = a ∧ inheritable showPrivate (doc.members kind) = l := by
      simp only [List.mem_append, List.mem_singleton, or_and_right, exists_or, exists_eq_left]
    rw [hfold, hsplit]
    split
    · rename_i hempty
      rw [ih nodup]
      refine and_congr_right fun hl => ⟨.inl, ?_⟩
      rintro (h | ⟨-, rfl⟩)
      · exact h
      · exact absurd (List.isEmpty_iff.1 hempty) hl
    · rename_i hsome
      rw [Dict.get?_insert]
      split
      · rename_i ha
        subst ha
        rw [Option.some.injEq]
        constructor
        · rintro rfl
          exact ⟨fun h => hsome (List.isEmpty_iff.2 h), .inr ⟨rfl, rfl⟩⟩
        · rintro ⟨-, ⟨d, hd, hname, -⟩ | ⟨-, hl⟩⟩
          · exact absurd hname (hfresh' d hd)
          · exact hl
      · rename_i ha
        rw [ih nodup]
        refine and_congr_right fun _ => ⟨.inl, ?_⟩
        rintro (h | ⟨hname, -⟩)
        · exact h
        · exact absurd hname.symm ha

/-- The members that are inherited are those that the known ancestors contribute. -/
private theorem members_ofClass (c : ClassDoc) (classes : Dict ClassDoc) (showPrivate : Bool)
    (kind : MemberKind) :
    (ofClass c classes showPrivate).members kind =
      contributions showPrivate (knownDocs (c.ancestors classes showPrivate)) kind := by
  cases kind <;> rfl

/-! ### The page of inherited members -/

/-- What a class inherits, in terms of the classes alone: the ancestors are the other classes
that a chain of shown parents leads to, each once, and each of them lists exactly the members it
passes on, in the order of names. -/
structure IsExact (classes : Dict ClassDoc) (showPrivate : Bool) (key : String)
    (i : Inherited) : Prop where
  nodup : i.superclassChain.Nodup
  not_self : key ∉ i.superclassChain
  mem_chain : ∀ a, a ≠ key → (a ∈ i.superclassChain ↔
    Relation.TransGen (InheritsFrom classes showPrivate) key a)
  contains : ∀ kind a, (i.members kind).contains a = true ↔ a ∈ i.superclassChain ∧
    ∃ doc, classes.get? a = some doc ∧
      ∃ m ∈ (doc.members kind).values, m.PassedOn showPrivate
  perm : ∀ kind a l doc, (i.members kind).get? a = some l → classes.get? a = some doc →
    l.Perm (((doc.members kind).values.filter fun m => decide (m.PassedOn showPrivate)).map
      MemberDoc.listed)
  ordered : ∀ kind a l, (i.members kind).get? a = some l → l.Pairwise fun x y =>
    Text.lower x.name < Text.lower y.name ∨
      Text.lower x.name = Text.lower y.name ∧ x.name ≤ y.name

/-- **Inheritance is visible reachability.** Over every model that keeps its classes under their
names, cyclic or not, the page of inherited members of each class is exact. -/
theorem ofClass_isExact (classes : Dict ClassDoc) (named : ∀ e ∈ classes.entries, e.2.name = e.1)
    (key : String) (c : ClassDoc) (hc : classes.get? key = some c) (showPrivate : Bool) :
    (ofClass c classes showPrivate).IsExact classes showPrivate key := by
  have hkey : c.name = key := name_eq_of_get? named hc
  have hchain : (ofClass c classes showPrivate).superclassChain =
      walkNames (ancestors classes showPrivate [key] c.parents) := by
    rw [← hkey]
    rfl
  have hknown := get?_of_mem_knownDocs named showPrivate [key] c.parents
  have hsame : ∀ d ∈ knownDocs (ancestors classes showPrivate [key] c.parents), ∀ doc,
      classes.get? d.name = some doc → d = doc := fun d hd doc hdoc =>
    Option.some.inj ((hknown d hd).symm.trans hdoc)
  have hnodup := nodup_walkNames named showPrivate [key] c.parents
  -- one ancestor lists its members under its name, and nothing else is listed
  have hlists : ∀ kind a l, ((ofClass c classes showPrivate).members kind).get? a = some l ↔
      l ≠ [] ∧ ∃ doc ∈ knownDocs (ancestors classes showPrivate [key] c.parents),
        doc.name = a ∧ inheritable showPrivate (doc.members kind) = l := by
    intro kind a l
    rw [members_ofClass, ClassDoc.ancestors, hkey]
    exact get?_contributions hnodup
  have hself : key ∉ (ofClass c classes showPrivate).superclassChain := by
    rw [hchain]
    intro hmem
    obtain ⟨t, -, hpath⟩ := (mem_walkNames_iff named showPrivate _ _ _).1 hmem
    exact hpath.end_fresh (List.mem_singleton.2 rfl)
  refine ⟨hchain ▸ hnodup, hself, ?_, ?_, ?_, ?_⟩
  · intro a ha
    rw [hchain, mem_walkNames_iff named]
    exact exists_path_iff_transGen hc ha
  · intro kind a
    rw [Dict.contains_iff, hchain]
    constructor
    · rintro ⟨l, hl⟩
      obtain ⟨hne, doc, hdoc, rfl, rfl⟩ := (hlists kind a l).1 hl
      exact ⟨List.mem_map_of_mem hdoc, doc, hknown doc hdoc, inheritable_ne_nil.1 hne⟩
    · rintro ⟨ha, doc, hdoc, hsome⟩
      obtain ⟨d, hmem, rfl⟩ := List.mem_map.1 ha
      obtain rfl := hsame d hmem doc hdoc
      exact ⟨_, (hlists kind d.name _).2 ⟨inheritable_ne_nil.2 hsome, d, hmem, rfl, rfl⟩⟩
  · intro kind a l doc hl hdoc
    obtain ⟨-, d, hmem, rfl, rfl⟩ := (hlists kind a l).1 hl
    obtain rfl := hsame d hmem doc hdoc
    exact inheritable_perm showPrivate _
  · intro kind a l hl
    obtain ⟨-, doc, -, -, rfl⟩ := (hlists kind a l).1 hl
    exact inheritable_ordered showPrivate _

/-- Two classes that extend each other, one of them with a method and a class it uses. -/
def mutualClasses : Dict ClassDoc :=
  .ofList [
    ("Base", { name := "Base", superclass := some "Leaf", uses := ["Mixin"],
               methods := .ofList [("init", { name := "init" })] }),
    ("Leaf", { name := "Leaf", superclass := some "Base" }),
    ("Mixin", { name := "Mixin" })]

/-- A cycle of superclasses is no obstacle. -/
theorem ofClass_isExact_mutual :
    (ofClass { name := "Leaf", superclass := some "Base" } mutualClasses false).IsExact
      mutualClasses false "Leaf" :=
  ofClass_isExact mutualClasses (by decide +kernel) "Leaf" _ (by decide +kernel) false

end Inherited

end ApiDocs
