import ApiDocs.Proofs.Session.MemberFrame
import ApiDocs.Proofs.Session.Nameless

/-!
# Comments that are written for a known class

A comment about a member may say which class it is written for, and the name is looked up as given
before it is looked up in the namespace. **So the comment goes to the class of its namespace unless
a class has the name as it is given** (`redirects_run_iff`): then this one is made the current
class, though the same name in the comment of a class would mean the other one. In both cases no
class comes up, and no class gets an inner one.
-/

namespace ApiDocs

/-! ### Inner classes -/

namespace Model

/-- The inner classes of a class. -/
def innerOf? (m : Model) (cls : String) : Option (List String) :=
  (m.classes.get? cls).map (·.innerClasses)

private theorem innerOf?_modifyClass (m : Model) (name : String) {f : ClassDoc → ClassDoc}
    (hf : ∀ c, (f c).innerClasses = c.innerClasses) :
    (m.modifyClass name f).innerOf? = m.innerOf? := by
  funext cls
  rw [innerOf?, get?_modifyClass, Option.map_map, innerOf?]
  cases m.classes.get? cls with
  | none => rfl
  | some c => by_cases hcls : cls = name <;> simp [hcls, hf]

end Model

namespace Session

variable (s : Session) (tokens : List String) (tags : TagMap)

/-- No class is new, and none gets an inner class. -/
def KeepsInner (s s' : Session) : Prop := s'.model.innerOf? = s.model.innerOf?

namespace KeepsInner

variable {s s' s'' : Session}

theorem refl (s : Session) : KeepsInner s s := rfl

theorem trans (h : KeepsInner s s') (h' : KeepsInner s' s'') : KeepsInner s s'' :=
  Eq.trans h' h

private theorem of_classes (h : s'.model.classes = s.model.classes) : KeepsInner s s' := by
  funext cls
  rw [Model.innerOf?, h, Model.innerOf?]

end KeepsInner

/-- A write to anything but inner classes keeps them. -/
private theorem Write.keepsInner {named : List String} {part : Option Part} {s s' : Session}
    (h : Write named part s s') (hpart : part ≠ some .innerClasses) : KeepsInner s s' := by
  cases h with
  | seek | redefine | remember | defer | drain | modifyModule | describePart | tagModule
  | modifyFile | addFile | enterFile => exact .of_classes rfl
  | modifyClass _ cls => exact s.model.innerOf?_modifyClass cls fun _ => rfl
  | insertMember _ cls kind | tagMember _ cls kind =>
    exact s.model.innerOf?_modifyClass cls fun c => by cases kind <;> rfl
  | tagClass _ cls tags =>
    refine s.model.innerOf?_modifyClass cls fun c => ?_
    obtain ⟨access, description, deprecated, attributes, heq⟩ := c.exists_applyTags_eq tags
    rw [heq]
  | relateClass => exact absurd rfl hpart

private theorem Writes.keepsInner {named : List String} {parts : List Part} {s s' : Session}
    (h : Writes named parts s s') (hparts : .innerClasses ∉ parts) : KeepsInner s s' :=
  h.rel .refl (fun _ _ _ => .trans) fun _ _ _ hpart h =>
    h.keepsInner fun hinner => hparts (hpart _ hinner)

/-- **Only a comment about a class adds classes or inner classes** when it is placed. -/
theorem keepsInner_place (outer : Option String) (h : Subject.ofTags tags ≠ .cls) :
    KeepsInner s (s.place tokens tags outer).1 := by
  have hparts : .innerClasses ∉ .leftovers :: (Subject.ofTags tags).parts := by
    cases hsubject : Subject.ofTags tags with
    | cls => exact absurd hsubject h
    | file | mod | method | event | property | attr | config | nothing => decide
  have hwrites := s.writes_place tokens tags outer
  rw [s.defineDeclared_of_ne tokens h] at hwrites
  exact hwrites.keepsInner hparts

/-! ### The class that a comment is written for -/

section Redirect

variable {name : String} (following : Option String)

/-- **The class that a comment goes to** if it is written for a name: the one of this very name, or
else the one of this name in the namespace. -/
def redirectTarget (name : String) : String :=
  if s.model.classes.contains name then name else (qualify (s.namespaceFor tokens) name).2

/-- **A comment only switches to a class**: this is the current one before the comment is placed,
and takes its members. No class comes up with it, and none gets an inner class. -/
structure Redirects (cls : String) : Prop where
  current : (s.prepare tokens following).1.context.inClass = some cls
  home : (s.prepare tokens following).1.home? = some cls
  inner : (s.step (.comment tokens following)).model.innerOf? = s.model.innerOf?

variable {s tokens}

/-- Going to a class that is known under its full name. -/
private theorem enterFor_of_knows (h : s.Knows (s.fullName name)) :
    s.enterFor tokens name =
      s.enterClass (if s.model.classes.contains name then name else s.fullName name) := by
  have hfind : [name, s.fullName name].find? s.model.classes.contains =
      some (if s.model.classes.contains name then name else s.fullName name) := by
    rw [List.find?_cons]
    cases hname : s.model.classes.contains name with
    | true => rfl
    | false =>
      have hfull : s.model.classes.contains (s.fullName name) = true := h
      simp [hfull]
  rw [enterFor]
  dsimp only
  rw [hfind]

private theorem opened_fullName (name : String) :
    (s.opened tokens).fullName name = (qualify (s.namespaceFor tokens) name).2 := by
  rw [fullName, s.namespaceName_opened tokens]

/-- A comment that is written for a class is prepared by going to this class. -/
private theorem exists_prepare_fst_eq (hfor : writtenFor tokens = some name) :
    ∃ notes, (s.prepare tokens following).1 =
      ((s.opened tokens).enterFor tokens name).log notes := by
  have hfirst : TagMap.first ((collect tokens).tags.erase "namespace") "for" = some name ∧
      Dict.contains ((collect tokens).tags.erase "namespace") "class" = false := by
    rw [TagMap.first_erase, if_neg (by decide), Dict.contains_erase_of_ne _ (by decide)]
    rw [writtenFor] at hfor
    split at hfor
    · cases hfor
    · rename_i hclass
      exact ⟨hfor, by simpa using hclass⟩
  rw [prepare, hfirst.1, hfirst.2]
  obtain ⟨notes, heq⟩ := exists_guessSubject_eq (s := (s.opened tokens).enterFor tokens name)
    (Dict.erase ((collect tokens).tags.erase "namespace") "for") following
  exact ⟨notes, congrArg Prod.fst heq⟩

private theorem redirects_redirectTarget (hfor : writtenFor tokens = some name)
    (hknown : s.Knows (qualify (s.namespaceFor tokens) name).2) :
    s.Redirects tokens following (s.redirectTarget tokens name) := by
  have hclasses : (s.opened tokens).model.classes = s.model.classes :=
    (s.opened_namespaces tokens).2.2
  have hname : (s.opened tokens).fullName name = (qualify (s.namespaceFor tokens) name).2 :=
    opened_fullName name
  have henter : (s.opened tokens).enterFor tokens name =
      (s.opened tokens).enterClass (s.redirectTarget tokens name) := by
    rw [enterFor_of_knows (by rwa [Knows, hname, hclasses]), hname, hclasses]
    rfl
  obtain ⟨notes, hprepare⟩ := exists_prepare_fst_eq (s := s) following hfor
  rw [henter] at hprepare
  have hprepared : (s.prepare tokens following).1.model.classes = s.model.classes := by
    rw [hprepare]
    exact hclasses
  have hcurrent : (s.prepare tokens following).1.context.inClass =
      some (s.redirectTarget tokens name) := by
    rw [hprepare]
    rfl
  have htarget : s.model.classes.contains (s.redirectTarget tokens name) = true := by
    rw [redirectTarget]
    split
    · assumption
    · exact hknown
  refine ⟨hcurrent, ?_, ?_⟩
  · rw [home?, hcurrent, hprepared]
    simp [htarget]
  · have hplace := (s.prepare tokens following).1.keepsInner_place tokens _
      (TagMap.first (s.prepare tokens following).2 "for")
      (s.subject_ne_cls_of_writtenFor tokens hfor following)
    rw [step, readComment_fst]
    exact (KeepsInner.of_classes hprepared).trans hplace

variable {following}

/-- The class that a comment goes to is its current one, so there is only one. -/
theorem Redirects.unique {cls cls' : String} (h : s.Redirects tokens following cls)
    (h' : s.Redirects tokens following cls') : cls = cls' :=
  Option.some.inj (h.current.symm.trans h'.current)

end Redirect

/-- **A comment that is written for a class goes to the one of its namespace** exactly if no input
before has defined another class under the very name that it gives. -/
theorem redirects_run_iff (version : String) (v : UInt32) (inputs : List Input)
    {tokens : List String} {name : String} (hfor : writtenFor tokens = some name)
    (hknown : ((start version v).run inputs).Knows
      (qualify (((start version v).run inputs).namespaceFor tokens) name).2)
    (following : Option String) :
    let s := (start version v).run inputs
    let full := (qualify (s.namespaceFor tokens) name).2
    s.Redirects tokens following (s.redirectTarget tokens name) ∧
      (s.Redirects tokens following full ↔ name = full ∨
        ∀ earlier i, earlier ++ [i] <+: inputs →
          ((start version v).run earlier).defines i ≠ some name) := by
  intro s full
  have htarget := redirects_redirectTarget following hfor hknown
  have hknows : s.Knows name ↔ ∃ earlier i, earlier ++ [i] <+: inputs ∧
      ((start version v).run earlier).defines i = some name :=
    run_iff_exists (P := fun s => s.Knows name) (Q := fun s i => s.defines i = some name)
      (by simp [Knows, start, Dict.contains]) (fun inputs i => knows_step _ i name) inputs
  have hiff : s.Redirects tokens following full ↔ s.redirectTarget tokens name = full :=
    ⟨fun h => htarget.unique h, fun h => h ▸ htarget⟩
  refine ⟨htarget, ?_⟩
  rw [hiff]
  by_cases hname : s.Knows name
  · have hself : s.redirectTarget tokens name = name := if_pos hname
    obtain ⟨earlier, i, hprefix, hdefines⟩ := hknows.1 hname
    rw [hself]
    exact (or_iff_left fun hnone => hnone earlier i hprefix hdefines).symm
  · have hfull : s.redirectTarget tokens name = full := if_neg hname
    have hnone : ∀ earlier i, earlier ++ [i] <+: inputs →
        ((start version v).run earlier).defines i ≠ some name :=
      fun earlier i hprefix hdefines => hname (hknows.2 ⟨earlier, i, hprefix, hdefines⟩)
    exact iff_of_true hfull (.inr hnone)

/-- A class of another namespace has the name as it is given. -/
theorem redirects_outer :
    let inputs : List Input := [.comment ["", "@class Outer"] none,
      .comment ["", "@namespace ui", "@class Outer"] none, .comment ["", "@class Other"] none]
    let s := (start "1.0.0" 3).run inputs
    let tokens := ["", "@for Outer", "@method poke"]
    writtenFor tokens = some "Outer" ∧ s.Knows "ui.Outer" ∧
      s.Redirects tokens none "Outer" ∧ ¬s.Redirects tokens none "ui.Outer" := by
  intro inputs s tokens
  have hfor : writtenFor tokens = some "Outer" := by decide +kernel
  have hfull : (qualify (s.namespaceFor tokens) "Outer").2 = "ui.Outer" := by decide +kernel
  have hknown : s.model.classes.contains "ui.Outer" = true := by decide +kernel
  have htarget : s.redirectTarget tokens "Outer" = "Outer" := by decide +kernel
  obtain ⟨hself, hiff⟩ := redirects_run_iff "1.0.0" 3 inputs hfor (hfull ▸ hknown) none
  rw [hfull] at hiff
  have hdefined : ((start "1.0.0" 3).run []).defines (.comment ["", "@class Outer"] none) =
      some "Outer" := by decide +kernel
  refine ⟨hfor, hknown, htarget ▸ hself, fun h => ?_⟩
  rcases hiff.1 h with heq | hnone
  · exact absurd heq (by decide)
  · exact hnone [] _ ⟨_, rfl⟩ hdefined

end Session

end ApiDocs
