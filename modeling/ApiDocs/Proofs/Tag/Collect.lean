import Mathlib.Tactic.SplitIfs
import ApiDocs.Proofs.Text.LowerCase
import ApiDocs.Tag.Collect

/-!
# What is collected from a comment

The tags of a comment are collected in one pass over its tokens, and `collect_induction` says what
that pass can do: it adds tags and records warnings. Four things follow. **The module that a
comment opens is the last one that it names** (`inModule_collect`), every tag has a value
(`contains_collect`), tags are in lower case (`lowerCase_of_contains_collect`), and no warning of
this pass is about the redefinition of a member (`warnings_collect`).
-/

namespace ApiDocs

/-! ### The values of a tag -/

namespace TagMap

/-- A value goes behind those that its tag has. -/
theorem all_push (t : TagMap) (tag value k : String) :
    (t.push tag value).all k = if k = tag then t.all tag ++ [value] else t.all k := by
  rw [all, push, Dict.get?_insert]
  split <;> rfl

/-- A tag that is taken out has no values. -/
theorem all_erase (t : TagMap) (tag k : String) :
    TagMap.all (t.erase tag) k = if k = tag then [] else t.all k := by
  rw [all, Dict.get?_erase]
  split <;> rfl

/-- The first value of a tag does not depend on other tags. -/
theorem first_erase (t : TagMap) (tag k : String) :
    TagMap.first (t.erase tag) k = if k = tag then none else t.first k := by
  rw [first, Dict.get?_erase]
  split <;> rfl

/-- The modules that the tags name. -/
def moduleNames (t : TagMap) : List String := (t.all "module").filter (!·.isEmpty)

/-- A module tag with a text names a module. -/
private theorem moduleNames_push (t : TagMap) (value : String) :
    (t.push "module" value).moduleNames =
      t.moduleNames ++ if value.isEmpty then [] else [value] := by
  rw [moduleNames, all_push, if_pos rfl, List.filter_append]
  cases hv : value.isEmpty <;> simp [moduleNames, hv]

/-- Other tags name no module. -/
private theorem moduleNames_push_of_ne (t : TagMap) {tag : String} (h : tag ≠ "module")
    (value : String) :
    (t.push tag value).moduleNames = t.moduleNames := by
  rw [moduleNames, all_push, if_neg h.symm]
  rfl

theorem moduleNames_erase_of_ne (t : TagMap) {tag : String} (h : tag ≠ "module") :
    moduleNames (t.erase tag) = t.moduleNames := by
  rw [moduleNames, all_erase, if_neg h.symm]
  rfl

/-- A named module has its tag. -/
theorem contains_of_mem_moduleNames {t : TagMap} {mod : String} (h : mod ∈ t.moduleNames) :
    t.contains "module" = true := by
  have hmem : mod ∈ t.all "module" := (List.mem_filter.1 h).1
  rw [all] at hmem
  cases hget : t.get? "module" with
  | none =>
    rw [hget] at hmem
    exact absurd hmem List.not_mem_nil
  | some values => exact Dict.contains_of_get? hget

/-- A name is not empty. -/
theorem ne_empty_of_name? {t : TagMap} {tag name : String} (h : t.name? tag = some name) :
    name ≠ "" := by
  rintro rfl
  simpa using (Option.filter_eq_some_iff.1 h).2

theorem ne_empty_of_mem_moduleNames {t : TagMap} {mod : String} (h : mod ∈ t.moduleNames) :
    mod ≠ "" := by
  rintro rfl
  simpa using (List.mem_filter.1 h).2

end TagMap

/-! ### The pass over the tokens -/

theorem collectFrom_singleton (c : Collected) (token : String) :
    collectFrom c [token] =
      if !Comment.isTag token then c.describe token
      else if !(splitTag token).2.isEmpty || (splitTag token).1 ∈ singleTags then
        c.add (splitTag token).1 (splitTag token).2
      else (c.warn (.emptyDescription (splitTag token).1)).add (splitTag token).1 "" :=
  rfl

/-- A tag takes the token behind it for its text, and a text that stands alone is described. -/
theorem collectFrom_cons_cons (c : Collected) (token next : String) (rest : List String) :
    collectFrom c (token :: next :: rest) =
      if !Comment.isTag token then collectFrom (c.describe token) (next :: rest)
      else if !(splitTag token).2.isEmpty || (splitTag token).1 ∈ singleTags then
        collectFrom (c.add (splitTag token).1 (splitTag token).2) (next :: rest)
      else if Comment.isTag next then
        collectFrom ((c.warn (.descriptionIsTag (splitTag token).1 (splitTag next).1)).add
          (splitTag token).1 "") (next :: rest)
      else if next.isEmpty then
        collectFrom ((c.warn (.emptyDescription (splitTag token).1)).add (splitTag token).1 "") rest
      else collectFrom (c.add (splitTag token).1 next) rest :=
  rfl

/-- A tag can come up: it is the description, or a token names it. -/
def ComesUp (tag : String) : Prop := tag = "description" ∨ ∃ token, tag = (splitTag token).1

section Induction

variable {P : Collected → Prop}
  (hempty : ∀ c tag, P c → P (c.warn (.emptyDescription tag)))
  (htag : ∀ c tag found, P c → P (c.warn (.descriptionIsTag tag found)))
  (hadd : ∀ c tag value, ComesUp tag → P c → P (c.add tag value))

include hempty htag hadd

/-- What holds of the tags at first and after each token holds in the end. -/
private theorem collectFrom_induction {c : Collected} (h : P c) (tokens : List String) :
    P (collectFrom c tokens) := by
  have hdescribe (c : Collected) (text : String) (h : P c) : P (c.describe text) := by
    rw [Collected.describe]
    split
    · exact h
    · exact hadd c _ _ (.inl rfl) h
  -- a tag may take the next token, so the induction is on the number of tokens
  induction hn : tokens.length using Nat.strongRecOn generalizing c tokens with
  | ind n ih =>
    subst hn
    cases tokens with
    | nil => exact h
    | cons token rest =>
      cases rest with
      | nil =>
        rw [collectFrom_singleton]
        split_ifs
        · exact hdescribe c _ h
        · exact hadd c _ _ (.inr ⟨_, rfl⟩) h
        · exact hadd _ _ _ (.inr ⟨_, rfl⟩) (hempty c _ h)
      | cons next rest =>
        have hnext : (next :: rest).length < (token :: next :: rest).length := Nat.lt_succ_self _
        have hrest : rest.length < (token :: next :: rest).length :=
          Nat.lt_succ_of_lt (Nat.lt_succ_self _)
        rw [collectFrom_cons_cons]
        split_ifs
        · exact ih _ hnext (hdescribe c _ h) _ rfl
        · exact ih _ hnext (hadd c _ _ (.inr ⟨_, rfl⟩) h) _ rfl
        · exact ih _ hnext (hadd _ _ _ (.inr ⟨_, rfl⟩) (htag c _ _ h)) _ rfl
        · exact ih _ hrest (hadd _ _ _ (.inr ⟨_, rfl⟩) (hempty c _ h)) _ rfl
        · exact ih _ hrest (hadd c _ _ (.inr ⟨_, rfl⟩) h) _ rfl

/-- **Induction over what is collected.** What holds at first and is kept by tags and by warnings
about their values holds of every comment. -/
theorem collect_induction (hstart : P {}) (tokens : List String) : P (collect tokens) :=
  collectFrom_induction hempty htag hadd hstart _

end Induction

/-- **A comment opens the last module that it names.** -/
theorem inModule_collect (tokens : List String) :
    (collect tokens).inModule = (collect tokens).tags.moduleNames.getLast? := by
  refine collect_induction (P := fun c => c.inModule = c.tags.moduleNames.getLast?)
    (fun _ _ h => h) (fun _ _ _ h => h) (fun c tag value _ h => ?_) rfl tokens
  rw [Collected.add]
  split_ifs with hmodule hvalue
  · subst hmodule
    rw [TagMap.moduleNames_push, if_pos hvalue, List.append_nil]
    exact h
  · subst hmodule
    rw [TagMap.moduleNames_push, if_neg hvalue, List.getLast?_concat]
  · rw [TagMap.moduleNames_push_of_ne _ hmodule]
    exact h

/-- Every tag that is collected has a value. -/
theorem contains_collect (tokens : List String) (tag : String) :
    (collect tokens).tags.contains tag = ((collect tokens).tags.first tag).isSome := by
  have hvalues : ∀ tag, (collect tokens).tags.get? tag ≠ some [] := by
    refine collect_induction (P := fun c => ∀ tag, c.tags.get? tag ≠ some []) (fun _ _ h => h)
      (fun _ _ _ h => h) (fun c tag value _ h => ?_) (fun tag => by simp) tokens
    have hpush : ∀ k, (c.tags.push tag value).get? k ≠ some [] := by
      intro k
      rw [TagMap.push, Dict.get?_insert]
      split
      · simp
      · exact h k
    rw [Collected.add]
    split_ifs <;> exact hpush
  have hvalue := hvalues tag
  rw [Dict.contains, TagMap.first]
  cases hget : (collect tokens).tags.get? tag with
  | none => rfl
  | some values =>
    cases values with
    | nil => exact absurd hget hvalue
    | cons value values => rfl

/-- Tags are written in lower case. -/
private theorem ComesUp.lowerCase {tag : String} (h : ComesUp tag) : Text.LowerCase tag := by
  rcases h with rfl | ⟨token, rfl⟩
  · decide
  · exact Text.lowerCase_lower _

/-- Tags are collected in lower case. -/
theorem lowerCase_of_contains_collect {tokens : List String} {tag : String}
    (h : (collect tokens).tags.contains tag = true) : Text.LowerCase tag := by
  refine collect_induction (P := fun c => ∀ tag, c.tags.contains tag = true → Text.LowerCase tag)
    (fun _ _ h => h) (fun _ _ _ h => h) (fun c tag value htag h => ?_) (fun tag h => by cases h)
    tokens tag h
  have hpush : ∀ k, (c.tags.push tag value).contains k = true → Text.LowerCase k := by
    intro k hk
    rw [TagMap.push, Dict.contains_insert, Bool.or_eq_true, beq_iff_eq] at hk
    rcases hk with rfl | hk
    · exact htag.lowerCase
    · exact h k hk
  rw [Collected.add]
  split_ifs <;> exact hpush

/-- A warning about the redefinition of a member. -/
def Warning.isRedefinition : Warning → Bool
  | memberRedefined .. => true
  | _ => false

/-- Collecting tags does not warn about the redefinition of members. -/
theorem warnings_collect {tokens : List String} {w : Warning}
    (h : w ∈ (collect tokens).warnings) : w.isRedefinition = false := by
  have hwarn (c : Collected) {v : Warning} (hv : v.isRedefinition = false)
      (hc : ∀ w ∈ c.warnings, w.isRedefinition = false) :
      ∀ w ∈ (c.warn v).warnings, w.isRedefinition = false := by
    intro w hw
    rcases List.mem_append.1 hw with hw | hw
    · exact hc w hw
    · rw [List.mem_singleton.1 hw]
      exact hv
  refine collect_induction (P := fun c => ∀ w ∈ c.warnings, w.isRedefinition = false)
    (fun c tag h => hwarn c rfl h) (fun c tag found h => hwarn c rfl h) (fun c tag value _ h => ?_)
    (fun w hw => absurd hw List.not_mem_nil) tokens w h
  rw [Collected.add]
  split_ifs
  · exact hwarn c rfl h
  · exact h
  · exact h

end ApiDocs
