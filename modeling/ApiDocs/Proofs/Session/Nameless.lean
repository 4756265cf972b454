import ApiDocs.Proofs.Session.Origins

/-!
# A class without a name

A tag that names a class, a module, a file, a namespace or a member is passed over if it has no
text. Only the tag for the class that a comment is written for is taken as it is. Outside of every
namespace a comment may so be written for the class without a name, which is then kept under the
empty name, and the comments that follow attach their members to it. **This is the only way in which
the empty name comes up**, as that of a class, of the current class or of the global one
(`named_run_iff`).
-/

namespace ApiDocs

/-- A full name is empty only if nothing is named outside of every namespace. -/
private theorem qualify_eq_empty_iff {ns name : String} :
    (qualify ns name).2 = "" ↔ ns = "" ∧ name = "" := by
  rw [qualify]
  split
  · rename_i hns
    simp [String.isEmpty_iff.1 hns]
  · rename_i hns
    have hne : ns ≠ "" := fun h => hns (String.isEmpty_iff.2 h)
    simp [hne]

namespace Session

variable (s : Session)

/-- An input is a comment that is written for a class without a name, outside of every
namespace. -/
def DefinesNameless : Input → Prop
  | .comment tokens _ => writtenFor tokens = some "" ∧ s.namespaceFor tokens = ""
  | .root => False

variable {s}

/-- The class that a comment declares has a name. -/
private theorem declares_ne_empty {tokens : List String} {following : Option String} {cls : String}
    (h : s.declares tokens following = some cls) : cls ≠ "" := by
  have hdeclared : (s.prepare tokens following).1.declaredClass
      (s.prepare tokens following).2 = some cls := h
  rw [declaredClass] at hdeclared
  split at hdeclared
  · obtain ⟨name, hname, rfl⟩ := Option.map_eq_some_iff.1 hdeclared
    intro hempty
    exact TagMap.ne_empty_of_name? hname (qualify_eq_empty_iff.1 hempty).2
  · cases hdeclared

/-- **The class without a name is defined only by a comment that is written for it.** -/
theorem defines_empty_iff (i : Input) :
    s.defines i = some "" ↔ s.DefinesNameless i ∧ ¬s.Knows "" := by
  cases i with
  | root => simp [defines, DefinesNameless]
  | comment tokens following =>
    have hinner : s.innerFor tokens = some "" ↔
        (writtenFor tokens = some "" ∧ s.namespaceFor tokens = "") ∧ ¬s.Knows "" := by
      rw [innerFor, Option.bind_eq_some_iff, Knows]
      constructor
      · rintro ⟨name, hname, hif⟩
        split at hif
        · cases hif
        · rename_i hnew
          obtain ⟨hns, rfl⟩ := qualify_eq_empty_iff.1 (Option.some.inj hif)
          exact ⟨⟨hname, hns⟩, hnew⟩
      · rintro ⟨⟨hname, hns⟩, hnew⟩
        refine ⟨"", hname, ?_⟩
        rw [if_neg hnew, hns]
        rfl
    rw [defines, DefinesNameless, ← hinner]
    cases hfor : s.innerFor tokens with
    | some cls => simp
    | none =>
      have hdeclares : s.declares tokens following ≠ some "" :=
        fun h => declares_ne_empty h rfl
      simp [hdeclares]

theorem knows_step (s : Session) (i : Input) (cls : String) :
    (s.step i).Knows cls ↔ s.Knows cls ∨ s.defines i = some cls := by
  rw [Knows, Knows, Model.contains_iff_namespaceOf?, Model.contains_iff_namespaceOf?,
    namespaceOf?_step, Option.isSome_or, Bool.or_eq_true]
  refine or_congr_right ?_
  split
  · rename_i hdefines
    simp [hdefines]
  · rename_i hdefines
    simp [hdefines]

/-- **Every class has a name, and so have the current and the global one, exactly if no comment of
the run is written for a class without a name**, outside of every namespace. -/
theorem named_run_iff (version : String) (v : UInt32) (inputs : List Input) :
    let s := (start version v).run inputs
    (s.model.classes.contains "" = false ∧ s.context.inClass ≠ some "" ∧
        s.context.globalClass ≠ some "") ↔
      ∀ earlier i, earlier ++ [i] <+: inputs →
        ¬((start version v).run earlier).DefinesNameless i := by
  intro s
  have hstart : (start version v).ContextKnown := contextKnown_start version v
  have hcontext : s.ContextKnown := (changes_run hstart inputs).contextKnown hstart
  -- the classes of the context exist, so only the classes of the model matter
  have hcontext : (s.model.classes.contains "" = false ∧ s.context.inClass ≠ some "" ∧
      s.context.globalClass ≠ some "") ↔ ¬s.Knows "" := by
    rw [← Bool.not_eq_true]
    constructor
    · exact fun h => h.1
    · intro h
      exact ⟨h, fun hclass => h (hcontext.inClass "" hclass),
        fun hglobal => h (hcontext.globalClass "" hglobal)⟩
  have hknows : s.Knows "" ↔ ∃ earlier i, earlier ++ [i] <+: inputs ∧
      ((start version v).run earlier).DefinesNameless i := by
    refine run_iff_exists (P := fun s => s.Knows "") (fun h => by cases h) (fun inputs i => ?_)
      inputs
    rw [knows_step, defines_empty_iff]
    by_cases hknown : ((start version v).run inputs).Knows "" <;> simp [hknown]
  rw [hcontext, hknows]
  simp only [not_exists, not_and]

/-- The members of the comments that follow are attached to the class without a name. -/
example :
    let s := (start "1.0.0" 3).run [.comment ["@for"] none, .comment ["@method m"] none]
    s.context.inClass = some "" ∧
      ((s.model.classes.get? "").map fun c => c.methods.keys) = some ["m"] := by
  decide +kernel

end Session

end ApiDocs
