import ApiDocs.Proofs.Session.Names
import ApiDocs.Proofs.Session.Nameless

/-!
# The names of classes in a namespace

A class may be named with its namespace in front or without it, and `Qualifies` says what its short
and its full name are then. `qualify` takes the namespace and the dot out of the name wherever they
occur, not only in front. **So a class has the right names exactly if they do not occur in the rest
of its name** (`Recurs`), and exactly then no other name declares the same class
(`declaredNames_run`).
-/

namespace ApiDocs

/-! ### Taking a part out of a text -/

section RemoveAll

variable {part cs : List Char}

private theorem removeAll_append (hpart : part ≠ []) (rest : List Char) :
    removeAll part (part ++ rest) = removeAll part rest := by
  obtain ⟨c, cs, rfl⟩ := List.exists_cons_of_ne_nil hpart
  rw [List.cons_append, removeAll, if_pos (by simp)]
  simp

private theorem removeAll_cons {c : Char} (h : ¬part <+: c :: cs) :
    removeAll part (c :: cs) = c :: removeAll part cs := by
  rw [removeAll, if_neg (by simpa using h)]

private theorem length_removeAll_le (part cs : List Char) :
    (removeAll part cs).length ≤ cs.length := by
  induction cs using removeAll.induct part with
  | case1 => simp [removeAll]
  | case2 c rest hprefix ih =>
    rw [removeAll, if_pos hprefix, List.length_cons]
    rw [List.length_drop] at ih
    omega
  | case3 c rest hprefix ih =>
    rw [removeAll, if_neg hprefix, List.length_cons, List.length_cons]
    omega

/-- Nothing is taken out exactly if the part does not occur. -/
private theorem removeAll_eq_self_iff (hpart : part ≠ []) :
    removeAll part cs = cs ↔ ¬part <:+: cs := by
  induction cs with
  | nil => simp [removeAll, hpart]
  | cons c cs ih =>
    rw [List.infix_cons_iff, not_or]
    by_cases hprefix : part <+: c :: cs
    · have hne : removeAll part (c :: cs) ≠ c :: cs := by
        obtain ⟨rest, hrest⟩ := hprefix
        have hlength := length_removeAll_le part rest
        rw [← hrest, removeAll_append hpart]
        intro heq
        have := congrArg List.length heq
        rw [List.length_append] at this
        have := List.length_pos_iff.2 hpart
        omega
      exact iff_of_false hne fun h => h.1 hprefix
    · rw [removeAll_cons hprefix, List.cons.injEq, eq_self, true_and, ih, and_iff_right hprefix]

/-- Where the part occurs, it may as well occur once more: the outcome is the same, and so is what
the text starts with. -/
private theorem exists_removeAll_eq (hpart : part ≠ []) (h : part <:+: cs) :
    ∃ ds, ds ≠ cs ∧ removeAll part ds = removeAll part cs ∧ (part <+: ds ↔ part <+: cs) := by
  -- the start is kept as a text, so that no occurrence comes up when a character is put in front
  have htake : ∃ ds, ds ≠ cs ∧ removeAll part ds = removeAll part cs ∧
      ds.take part.length = cs.take part.length := by
    induction cs with
    | nil => exact absurd (List.infix_nil.1 h) hpart
    | cons c cs ih =>
      by_cases hprefix : part <+: c :: cs
      · refine ⟨part ++ c :: cs, by simpa using hpart, removeAll_append hpart _, ?_⟩
        rw [List.take_left, List.prefix_iff_eq_take.1 hprefix]
        simp
      · obtain ⟨ds, hne, hsame, hstart⟩ := ih ((List.infix_cons_iff.1 h).resolve_left hprefix)
        have hstart' : (c :: ds).take part.length = (c :: cs).take part.length := by
          obtain ⟨n, hn⟩ := Nat.exists_eq_add_one_of_ne_zero (mt List.length_eq_zero_iff.1 hpart)
          have hshorter := congrArg (List.take n) hstart
          rw [hn, List.take_take, List.take_take, min_eq_left (Nat.le_succ n)] at hshorter
          rw [hn, List.take_succ_cons, List.take_succ_cons, hshorter]
        have hprefix' : ¬part <+: c :: ds := by
          rwa [List.prefix_iff_eq_take, hstart', ← List.prefix_iff_eq_take]
        refine ⟨c :: ds, by simpa using hne, ?_, hstart'⟩
        rw [removeAll_cons hprefix, removeAll_cons hprefix', hsame]
  obtain ⟨ds, hne, hsame, hstart⟩ := htake
  refine ⟨ds, hne, hsame, ?_⟩
  rw [List.prefix_iff_eq_take, List.prefix_iff_eq_take, hstart]

end RemoveAll

/-! ### Short and full names -/

section Names

variable {ns name : String}

/-- A name has its namespace and a dot in front. -/
def StartsIn (ns name : String) : Prop := ∃ rest, name = ns ++ "." ++ rest

/-- **The names that a class should get**, if it is named in a namespace: the namespace and the dot
belong to the full name, and not to the short one, whether or not they were given. -/
structure Qualifies (ns name short full : String) : Prop where
  inside : ∀ rest, name = ns ++ "." ++ rest → short = rest ∧ full = name
  outside : ¬StartsIn ns name → short = name ∧ full = ns ++ "." ++ name

/-- A name without the namespace and the dot in front, if it has them there. -/
def unqualified (ns name : String) : String :=
  if (ns ++ ".").toList <+: name.toList then
    .ofList (name.toList.drop (ns ++ ".").toList.length)
  else name

/-- The namespace and a dot occur in a name, not counting those in front. -/
def Recurs (ns name : String) : Prop := (ns ++ ".").toList <:+: (unqualified ns name).toList

instance (ns name : String) : Decidable (Recurs ns name) :=
  inferInstanceAs (Decidable (_ <:+: _))

private theorem toList_qualifier_ne_nil (ns : String) : (ns ++ ".").toList ≠ [] := by
  rw [String.toList_append]
  simp

private theorem toList_qualified (ns rest : String) :
    (ns ++ "." ++ rest).toList = (ns ++ ".").toList ++ rest.toList :=
  String.toList_append

private theorem startsIn_iff : StartsIn ns name ↔ (ns ++ ".").toList <+: name.toList := by
  constructor
  · rintro ⟨rest, rfl⟩
    exact ⟨rest.toList, (toList_qualified ns rest).symm⟩
  · rintro ⟨rest, hrest⟩
    refine ⟨.ofList rest, String.toList_inj.1 ?_⟩
    rw [toList_qualified, String.toList_ofList, hrest]

private theorem unqualified_append (ns rest : String) :
    unqualified ns (ns ++ "." ++ rest) = rest := by
  rw [unqualified, if_pos (startsIn_iff.1 ⟨rest, rfl⟩), toList_qualified, List.drop_left,
    String.ofList_toList]

private theorem unqualified_of_not_startsIn (h : ¬StartsIn ns name) : unqualified ns name = name :=
  if_neg (mt startsIn_iff.2 h)

private theorem qualifies_iff {short full : String} :
    Qualifies ns name short full ↔
      short = unqualified ns name ∧ full = ns ++ "." ++ unqualified ns name := by
  by_cases hstarts : StartsIn ns name
  · obtain ⟨rest, rfl⟩ := hstarts
    rw [unqualified_append]
    constructor
    · exact fun h => h.inside rest rfl
    · rintro ⟨rfl, rfl⟩
      exact ⟨fun rest hrest => ⟨String.append_right_inj _ |>.1 hrest, rfl⟩,
        fun h => absurd ⟨_, rfl⟩ h⟩
  · rw [unqualified_of_not_startsIn hstarts]
    exact ⟨fun h => h.outside hstarts, fun h => ⟨fun rest hrest => absurd ⟨rest, hrest⟩ hstarts,
      fun _ => h⟩⟩

/-- In a namespace the short name is what is left of the name, and the full name puts the namespace
in front of that. -/
private theorem qualify_eq (hns : ns ≠ "") : qualify ns name =
    (.ofList (removeAll (ns ++ ".").toList (unqualified ns name).toList),
      ns ++ "." ++ .ofList (removeAll (ns ++ ".").toList (unqualified ns name).toList)) := by
  have hremove : removeAll (ns ++ ".").toList name.toList =
      removeAll (ns ++ ".").toList (unqualified ns name).toList := by
    by_cases hstarts : StartsIn ns name
    · obtain ⟨rest, rfl⟩ := hstarts
      rw [unqualified_append, toList_qualified, removeAll_append (toList_qualifier_ne_nil ns)]
    · rw [unqualified_of_not_startsIn hstarts]
  rw [qualify, if_neg fun h => hns (String.isEmpty_iff.1 h), hremove]

/-- **The short name is the right one exactly if the namespace does not recur.** -/
theorem qualify_fst_eq_iff (hns : ns ≠ "") :
    (qualify ns name).1 = unqualified ns name ↔ ¬Recurs ns name := by
  rw [qualify_eq hns, Recurs, ← removeAll_eq_self_iff (toList_qualifier_ne_nil ns),
    ← String.toList_inj, String.toList_ofList]

/-- Names in which the namespace does not recur declare the same class only if they are equal up to
the namespace in front. -/
private theorem unqualified_eq_of_qualify_eq {other : String} (hns : ns ≠ "")
    (hname : ¬Recurs ns name)
    (hother : ¬Recurs ns other) (h : (qualify ns other).2 = (qualify ns name).2) :
    unqualified ns other = unqualified ns name := by
  rw [← (qualify_fst_eq_iff hns).2 hname, ← (qualify_fst_eq_iff hns).2 hother]
  rw [qualify_eq hns, qualify_eq hns] at h ⊢
  exact String.append_right_inj _ |>.1 h

/-- A name in which the namespace recurs declares the same class as another name. -/
private theorem exists_qualify_eq (hns : ns ≠ "") (hstarts : ¬StartsIn ns name)
    (h : Recurs ns name) :
    ∃ other, other ≠ name ∧ ¬StartsIn ns other ∧ (qualify ns other).2 = (qualify ns name).2 := by
  rw [Recurs, unqualified_of_not_startsIn hstarts] at h
  obtain ⟨cs, hne, hsame, hprefix⟩ := exists_removeAll_eq (toList_qualifier_ne_nil ns) h
  have hstarts' : ¬StartsIn ns (.ofList cs) := by
    rwa [startsIn_iff, String.toList_ofList, hprefix, ← startsIn_iff]
  refine ⟨.ofList cs, fun heq => hne ?_, hstarts', ?_⟩
  · rw [← heq, String.toList_ofList]
  · rw [qualify_eq hns, qualify_eq hns, unqualified_of_not_startsIn hstarts,
      unqualified_of_not_startsIn hstarts', String.toList_ofList, hsame]

/-- The names of a class are the right ones exactly if it was declared in the namespace, which does
not recur. -/
private theorem ClassDoc.OwnNames.qualifies_names_iff {c : ClassDoc} (hns : ns ≠ "")
    (h : c.OwnNames (qualify ns name).2) :
    Qualifies ns name c.shortName c.name ↔ c.inNamespace = ns ∧ ¬Recurs ns name := by
  have hfull : c.name = ns ++ "." ++ (qualify ns name).1 := by
    rw [h.name, qualify_eq hns]
  have hqualified := h.qualified
  rw [qualifies_iff, ← qualify_fst_eq_iff hns]
  constructor
  · rintro ⟨hshort, hname⟩
    refine ⟨?_, String.append_right_inj _ |>.1 (hfull.symm.trans hname)⟩
    rw [hname, hshort] at hqualified
    split at hqualified
    · -- no text is longer than itself
      have hlength := congrArg String.length hqualified
      rw [String.length_append, String.length_append] at hlength
      have hdot : ".".length = 1 := rfl
      omega
    · exact (String.append_left_inj _ |>.1 (String.append_left_inj _ |>.1 hqualified)).symm
  · rintro ⟨rfl, hshort⟩
    rw [if_neg hns, hfull] at hqualified
    rw [← hshort]
    exact ⟨(String.append_right_inj _ |>.1 hqualified).symm, hfull⟩

end Names

namespace Session

/-! ### The class that a comment declares -/

/-- **A comment declares a class of a name in a namespace**: the one that it gives, or else the
current one. -/
structure DeclaresIn (s : Session) (tokens : List String) (following : Option String)
    (ns name : String) : Prop where
  subject : Subject.ofTags (s.prepare tokens following).2 = .cls
  named : TagMap.name? (s.prepare tokens following).2 "class" = some name
  inNamespace : s.namespaceFor tokens = ns

section Declares

variable {s : Session} {tokens : List String} {following : Option String} {ns name : String}

/-- The class that a comment declares is the one that it defines. -/
private theorem DeclaresIn.defines_eq (h : s.DeclaresIn tokens following ns name) :
    s.defines (.comment tokens following) = some (qualify ns name).2 := by
  have hdeclares : s.declares tokens following = some (qualify ns name).2 := by
    have hdeclared : s.declares tokens following =
        (s.prepare tokens following).1.declaredClass (s.prepare tokens following).2 := rfl
    rw [hdeclared, declaredClass, h.subject]
    dsimp only
    rw [h.named, Option.map_some, fullName, namespaceName_prepare, h.inNamespace]
  rw [defines]
  cases hinner : s.innerFor tokens with
  | none => exact hdeclares
  | some inner =>
    rw [s.declares_of_innerFor tokens following hinner] at hdeclares
    cases hdeclares

end Declares

/-- **The class that a comment declares** under a name in a namespace, in the step from `s` to
`s'`. -/
structure DeclaredAs (s s' : Session) (ns name : String) (c : ClassDoc) : Prop where
  fullName : c.name = (qualify ns name).2
  stored : s'.model.classes.get? c.name = some c
  only : ∀ cls, s'.Knows cls ↔ s.Knows cls ∨ cls = c.name
  /-- A class that exists already may be in another namespace, and stays there. -/
  placed : ¬s.Knows c.name → c.inNamespace = ns
  names : Qualifies ns name c.shortName c.name ↔ c.inNamespace = ns ∧ ¬Recurs ns name
  apart : ¬Recurs ns name → ∀ other, ¬Recurs ns other → (qualify ns other).2 = c.name →
    unqualified ns other = unqualified ns name
  shared : Recurs ns name → ¬StartsIn ns name →
    ∃ other, other ≠ name ∧ ¬StartsIn ns other ∧ (qualify ns other).2 = c.name

/-- **The names of a class that is declared in a namespace**, after every run: they are the right
ones exactly if the class was declared in this namespace, as a new class always is, and the
namespace does not recur in its name. Names in which it does not recur declare different classes,
but a name in which it does declares the same class as another one. -/
theorem declaredNames_run (version : String) (v : UInt32) (inputs : List Input)
    {tokens : List String} {following : Option String} {ns name : String} (hns : ns ≠ "")
    (h : ((start version v).run inputs).DeclaresIn tokens following ns name) :
    let s := (start version v).run inputs
    ∃ c, DeclaredAs s (s.step (.comment tokens following)) ns name c := by
  intro s
  obtain ⟨s', hs'⟩ : ∃ s', s' = s.step (.comment tokens following) := ⟨_, rfl⟩
  have hrun : s' = (start version v).run (inputs ++ [.comment tokens following]) :=
    hs'.trans (run_concat _ _ _).symm
  have hdefines := h.defines_eq
  have hknows (cls : String) : s'.Knows cls ↔ s.Knows cls ∨ cls = (qualify ns name).2 := by
    rw [hs', knows_step, hdefines, Option.some.injEq, eq_comm]
  obtain ⟨c, hc⟩ := Dict.contains_iff.1 ((hknows _).2 (.inr rfl))
  have hown : c.OwnNames (qualify ns name).2 :=
    ownNames_of_get?_run version v (inputs ++ [.comment tokens following]) (hrun ▸ hc)
  have hnamespace : some c.inNamespace =
      (s.model.namespaceOf? (qualify ns name).2).or (some ns) := by
    have hstep := s.namespaceOf?_step (.comment tokens following) (qualify ns name).2
    rw [hdefines, if_pos rfl, namespaceName_step, h.inNamespace, ← hs'] at hstep
    rw [← hstep, Model.namespaceOf?, hc, Option.map_some]
  rw [← hs']
  exact ⟨c, {
    fullName := hown.name
    stored := hown.name ▸ hc
    only := hown.name ▸ hknows
    placed := fun hnew => by
      rw [hown.name, Knows, Model.contains_iff_namespaceOf?, Option.not_isSome_iff_eq_none] at hnew
      rw [hnew, Option.none_or] at hnamespace
      exact Option.some.inj hnamespace
    names := hown.qualifies_names_iff hns
    apart := fun hname other hother heq =>
      unqualified_eq_of_qualify_eq hns hname hother (heq.trans hown.name)
    shared := fun hrecurs hstarts => by
      rw [hown.name]
      exact exists_qualify_eq hns hstarts hrecurs }⟩

/-- The end of a longer word is taken for the namespace. -/
theorem declaredNames_gui_button :
    let s := (start "1.0.0" 3).run [.comment ["@namespace ui"] none]
    let s' := s.step (.comment ["@class gui.Button"] none)
    s.DeclaresIn ["@class gui.Button"] none "ui" "gui.Button" ∧
      ∃ c, s'.model.classes.get? "ui.gButton" = some c ∧
        ¬Qualifies "ui" "gui.Button" c.shortName c.name := by
  intro s s'
  have hdeclares : s.DeclaresIn ["@class gui.Button"] none "ui" "gui.Button" :=
    ⟨by decide +kernel, by decide +kernel, by decide +kernel⟩
  have hfull : (qualify "ui" "gui.Button").2 = "ui.gButton" := by decide +kernel
  have hrecurs : Recurs "ui" "gui.Button" := by decide +kernel
  obtain ⟨c, hc⟩ :=
    declaredNames_run "1.0.0" 3 [.comment ["@namespace ui"] none] (by decide) hdeclares
  have hstored : s'.model.classes.get? c.name = some c := hc.stored
  rw [hc.fullName, hfull] at hstored
  exact ⟨hdeclares, c, hstored, fun h => (hc.names.1 h).2 hrecurs⟩

end Session

end ApiDocs
