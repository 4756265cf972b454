import ApiDocs.Proofs.Model.Shadowing
import ApiDocs.Proofs.Session.Writes

/-!
# Attributes come from copied tags alone

What a comment defines is new and bare: a class, a member, a module without attributes, or an event
that a config derives. All other writes are to other fields, except for those that copy the
remaining tags (`Write.separate`). So **a model stays separate up to the point where tags are
copied**:
while a comment is prepared (`separate_prepare`), while its subject is placed
(`separate_placeSubject`), and while its constructor is (`separate_placeConstructor`).

`separate_applyLeftovers` says what happens then: the model stays separate unless a tag has the name
of a field that it does not fill.
-/

namespace ApiDocs

namespace Session

variable {s : Session} (tokens : List String) (tags : TagMap)

private theorem Seeks.separate {s' : Session} (h : s.Seeks s') (hs : s.model.Separate) :
    s'.model.Separate := h.model ▸ hs

/-! ### Before the subject -/

private theorem separate_defineClass (hs : s.model.Separate) (name : String) :
    (s.defineClass tokens name).model.Separate := by
  obtain ⟨hclasses, hmodules⟩ := Model.separate_iff.1 hs
  rw [defineClass]
  split
  · exact hs
  · have hbare (short full ns : String) :
        ClassDoc.Separate { shortName := short, name := full, inNamespace := ns } := by
      refine ClassDoc.separate_iff.2 ⟨Dict.clear_of_empty rfl, fun kind key m hm => ?_⟩
      cases kind <;> cases hm
    exact Model.separate_iff.2 ⟨hclasses.insert _ (hbare _ _ _), hmodules⟩

/-- A class that comes up for a comment is bare. -/
private theorem separate_enterFor (hs : s.model.Separate) (name : String) :
    (s.enterFor tokens name).model.Separate := by
  have hdefine := separate_defineClass tokens hs name
  rw [enterFor]
  split
  · exact hs
  · split
    · exact hdefine
    · split
      · exact hdefine
      · exact hdefine.modifyClass _ fun c hc => hc.of_eq rfl rfl

/-- Before its subject is placed a comment writes no attribute. -/
theorem separate_prepare (hs : s.model.Separate) (following : Option String) :
    (s.prepare tokens following).1.model.Separate := by
  refine before_subject s tokens following (R := fun s s' => s.model.Separate → s'.model.Separate)
    (fun _ _ _ h h' hs => h' (h hs)) (fun _ _ h => h.separate) (fun s name hs => ?_)
    (fun _ _ hs => hs.of_eq rfl rfl) (fun _ name hs => separate_enterFor tokens hs name) hs
  cases name <;> exact hs

/-! ### Up to the remaining tags -/

/-- A write to anything but what takes the tags that are left keeps a model separate. -/
private theorem Write.separate {named : List String} {part : Option Part} {s s' : Session}
    (h : Write named part s s') (hpart : part ≠ some .leftovers) (hs : s.model.Separate) :
    s'.model.Separate := by
  cases h with
  | seek | redefine | remember | defer | drain => exact hs
  | modifyFile | addFile | enterFile => exact hs.of_eq rfl rfl
  | modifyClass _ cls | relateClass _ cls => exact hs.modifyClass cls fun c hc => hc.of_eq rfl rfl
  | insertMember _ cls kind doc bare =>
    exact hs.modifyClass cls fun c hc =>
      hc.setMembers kind ((hc.all kind).insert _ (MemberDoc.separate_of_empty bare))
  | modifyModule _ mod | describePart _ mod => exact hs.modifyModule mod fun _ => rfl
  | tagClass | tagMember | tagModule => exact absurd rfl hpart

private theorem Writes.separate {named : List String} {parts : List Part} {s s' : Session}
    (h : Writes named parts s s') (hparts : .leftovers ∉ parts) (hs : s.model.Separate) :
    s'.model.Separate :=
  h.rel (R := fun s s' => s.model.Separate → s'.model.Separate) (fun _ hs => hs)
    (fun _ _ _ h h' hs => h' (h hs))
    (fun _ _ _ hpart h => h.separate fun hleft => hparts (hpart _ hleft)) hs

/-- **A model stays separate while the subject of a comment is placed.** -/
theorem separate_placeSubject (hs : s.model.Separate) (outer : Option String) :
    (s.placeSubject tokens tags outer).1.model.Separate := by
  have hdefine : (s.defineDeclared tokens tags).model.Separate := by
    rw [defineDeclared]
    split
    · exact separate_defineClass tokens hs _
    · exact hs
  have hparts : .leftovers ∉ (Subject.ofTags tags).parts := by
    cases Subject.ofTags tags <;> decide
  exact (s.writes_placeSubject tokens tags outer).separate hparts hdefine

/-- A constructor has no attributes of its own. -/
theorem separate_placeConstructor (hs : s.model.Separate) :
    (s.placeConstructor tokens tags).1.model.Separate := by
  have hwrites : Writes [] [] s (s.placeConstructor tokens tags).1 :=
    s.writes_placeConstructor tokens tags
  exact hwrites.separate List.not_mem_nil hs

end Session

/-- The fields of what a comment documents that no tag fills. -/
def Target.unfilled : Target → List String
  | .cls _ => ClassDoc.unfilled
  | .member .. => MemberDoc.unfilled
  | .mod _ => ModuleDoc.unfilled
  | .file => []

/-- **A tag that is left has the name of a field** that it does not fill. -/
def Placed.Shadows (p : Placed) : Prop :=
  ∃ target, p.target = some target ∧
    ∃ field ∈ target.unfilled, (p.tags.first field).isSome = true

namespace Session

/-- What a comment documents is there. A module is created when it is needed. -/
def Holds (s : Session) : Option Target → Prop
  | some (.cls name) => s.Knows name
  | some (.member cls kind name) => s.Written cls kind name
  | _ => True

variable {s : Session}

/-- **Copied tags leave a model separate** if none of them shadows a field. -/
theorem separate_applyLeftovers {p : Placed} (h : s.Holds p.target) :
    (s.applyLeftovers p).model.Separate ↔ s.model.Separate ∧ ¬p.Shadows := by
  have hshadows (target : Target) (ht : p.target = some target) :
      (∀ field ∈ target.unfilled, field ∉ p.tags.leftovers.map Prod.fst) ↔ ¬p.Shadows := by
    simp only [Placed.Shadows, ht, Option.some.injEq, exists_eq_left', not_exists, not_and,
      TagMap.mem_leftovers_iff]
  have hnone (hunfilled : ∀ target, p.target = some target → target.unfilled = []) :
      s.model.Separate ↔ s.model.Separate ∧ ¬p.Shadows := by
    refine (and_iff_left ?_).symm
    rintro ⟨target, ht, field, hfield, -⟩
    rw [hunfilled target ht] at hfield
    cases hfield
  rw [applyLeftovers]
  cases ht : p.target with
  | none => exact hnone fun target h => by rw [ht] at h; cases h
  | some target =>
    rw [ht] at h
    cases target with
    | file =>
      refine hnone fun target h => ?_
      rw [ht] at h
      cases h
      rfl
    | cls name =>
      obtain ⟨c, hc⟩ := Dict.contains_iff.1 h
      rw [← hshadows _ ht]
      exact Model.separate_modifyClass hc ClassDoc.separate_applyTags
    | member cls kind name =>
      obtain ⟨c, hc, m, hm, -⟩ := h
      rw [← hshadows _ ht]
      exact Model.separate_modifyClass hc (ClassDoc.separate_modifyMember hm)
    | mod name =>
      rw [← hshadows _ ht]
      exact Model.separate_modifyModule name fun d => ModuleDoc.separate_applyTags

end Session

end ApiDocs
