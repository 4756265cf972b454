import ApiDocs.Proofs.Tag.Collect

/-!
# The values of collected tags

The pass that collects the tags of a comment takes one or two tokens at a time, and what it does
with a text depends on the tag before it and on what was collected earlier. Which value a tag gets
can be told without the pass, from the token and its neighbours alone: `Site` is a token between
the two around it, `Site.tag?` the tag that it is, with its value, and `Site.isFree` says that
it is a text of its own and not the value of the tag before it.

What the pass adds to the tag map is one entry for each tag, and one for the first free text if
nothing is described by then (`collectFrom_gains`): a tag is never taken for a value, and a text
that is taken is not free. **So the values of a tag are those of the tokens that are this tag, in
order; the description may have the first free text among them** (`collect_values`), and a tag that
gets no value although it could have one is warned about exactly once.
-/

namespace ApiDocs

open Text

/-! ### Tokens and their neighbours -/

/-- A token and the tokens around it. -/
structure Site where
  before : Option String
  token : String
  after : Option String

/-- Tokens, each between its neighbours; the first one follows `before`. -/
def sitesFrom (before : Option String) : List String → List Site
  | [] => []
  | token :: rest => ⟨before, token, rest.head?⟩ :: sitesFrom (some token) rest

/-- The tokens of a comment as the pass sees them, without the blanks at their ends. -/
def sites (tokens : List String) : List Site := sitesFrom none (tokens.map trim)

/-- A tag that looks for its value behind it: it has no text of its own, and may have one. -/
def seeksValue (token : String) : Bool :=
  Comment.isTag token && (splitTag token).2.isEmpty && (splitTag token).1 ∉ singleTags

namespace Site

/-- The value of a tag: its own text, or else the text after it unless the tag stands alone. -/
def value (p : Site) : String :=
  if !(splitTag p.token).2.isEmpty then (splitTag p.token).2
  else if (splitTag p.token).1 ∉ singleTags then (p.after.filter (!Comment.isTag ·)).getD ""
  else ""

/-- The tag that a token is, with its value. -/
def tag? (p : Site) : Option (String × String) :=
  if Comment.isTag p.token then some ((splitTag p.token).1, p.value) else none

/-- A text that is not blank and not the value of the tag before it. -/
def isFree (p : Site) : Bool :=
  !Comment.isTag p.token && !p.token.isEmpty && !p.before.any seeksValue

/-- A tag that may have a value and has none. -/
def lacksValue (p : Site) : Bool :=
  p.tag?.any fun t => t.1 ∉ singleTags && t.2.isEmpty

end Site

/-- The value of a pair of a tag and its value, if it is this tag. -/
def valueFor (tag : String) (e : String × String) : Option String :=
  if e.1 = tag then some e.2 else none

/-- The values that tokens give to a tag. -/
def valuesOf (tag : String) (ps : List Site) : List String :=
  ps.filterMap fun p => p.tag?.bind (valueFor tag)

/-- The descriptions that tokens give: those of the description tags, and the first free text at
its place if no description tag stands before it. -/
def descriptions (ps : List Site) : List String :=
  let earlier := valuesOf "description" (ps.takeWhile (!·.isFree))
  let later := valuesOf "description" (ps.dropWhile (!·.isFree))
  let free := (ps.find? (·.isFree)).map (·.token)
  earlier ++ (if earlier.isEmpty then free.toList else []) ++ later

/-- A warning about the value of a tag. -/
def Warning.isAboutValue : Warning → Bool
  | emptyDescription _ | descriptionIsTag .. => true
  | _ => false

/-! ### What the pass adds -/

/-- What a token adds to a tag map: its tag, or itself as the description if nothing is described
yet. -/
def Site.entry (described : Bool) (p : Site) : Option (String × String) :=
  p.tag?.or (if p.isFree && !described then some ("description", p.token) else none)

/-- What tokens add to a tag map, in order; `described` says whether there is a description. -/
def entriesFrom (described : Bool) : List Site → List (String × String)
  | [] => []
  | p :: ps =>
    (p.entry described).toList ++
      entriesFrom (described || (p.entry described).any (·.1 == "description")) ps

/-- The tag map with entries added. -/
def TagMap.pushAll (t : TagMap) (entries : List (String × String)) : TagMap :=
  entries.foldl (fun t e => t.push e.1 e.2) t

private theorem TagMap.pushAll_append (t : TagMap) (es fs : List (String × String)) :
    t.pushAll (es ++ fs) = (t.pushAll es).pushAll fs :=
  List.foldl_append

private theorem TagMap.contains_pushAll_toList (t : TagMap) (e : Option (String × String))
    (tag : String) :
    (t.pushAll e.toList).contains tag = (t.contains tag || e.any (·.1 == tag)) := by
  rcases e with _ | ⟨k, value⟩
  · exact (Bool.or_false _).symm
  · refine (Dict.contains_insert ..).trans ?_
    rw [Bool.or_comm, Option.any_some, BEq.comm]

namespace Collected

/-- The number of warnings about values. -/
def valueWarnings (c : Collected) : Nat := c.warnings.countP Warning.isAboutValue

/-- There is a description. -/
def described (c : Collected) : Bool := c.tags.contains "description"

/-- What was collected later has the entries and the number of warnings about values more. -/
structure Gains (c c' : Collected) (entries : List (String × String)) (warned : Nat) : Prop where
  tags : c'.tags = c.tags.pushAll entries
  valueWarnings : c'.valueWarnings = c.valueWarnings + warned

private theorem gains_add (c : Collected) (tag value : String) :
    c.Gains (c.add tag value) [(tag, value)] 0 := by
  rw [add]
  split_ifs
  · exact ⟨rfl, by simp [Collected.valueWarnings, warn, Warning.isAboutValue]⟩
  · exact ⟨rfl, rfl⟩
  · exact ⟨rfl, rfl⟩

private theorem gains_warn_add (c : Collected) {w : Warning} (h : w.isAboutValue = true)
    (tag value : String) : c.Gains ((c.warn w).add tag value) [(tag, value)] 1 where
  tags := (gains_add (c.warn w) tag value).tags
  valueWarnings := by
    rw [(gains_add (c.warn w) tag value).valueWarnings]
    simp [Collected.valueWarnings, warn, h]

/-- The first token adds what it does, and the others what they do after that. -/
theorem Gains.cons {c c₁ c₂ : Collected} {p : Site} {ps : List Site}
    (hp : c.Gains c₁ (p.entry c.described).toList (if p.lacksValue then 1 else 0))
    (hps : c₁.Gains c₂ (entriesFrom c₁.described ps) (ps.countP (·.lacksValue))) :
    c.Gains c₂ (entriesFrom c.described (p :: ps)) ((p :: ps).countP (·.lacksValue)) where
  tags := by
    have hdescribed : c₁.described =
        (c.described || (p.entry c.described).any (·.1 == "description")) := by
      rw [described, hp.tags, TagMap.contains_pushAll_toList]
      rfl
    rw [hps.tags, hp.tags, ← TagMap.pushAll_append, entriesFrom, hdescribed]
  valueWarnings := by
    rw [hps.valueWarnings, hp.valueWarnings, List.countP_cons]
    omega

/-- A tag that has its value, or does not take one, is added. -/
private theorem gains_tag (c : Collected) {p : Site} {tag value : String}
    (h : p.tag? = some (tag, value))
    (hvalue : value.isEmpty = false ∨ tag ∈ singleTags) :
    c.Gains (c.add tag value) (p.entry c.described).toList (if p.lacksValue then 1 else 0) := by
  have hlacks : p.lacksValue = false := by
    rcases hvalue with hvalue | hsingle
    · simp [Site.lacksValue, h, hvalue]
    · simp [Site.lacksValue, h, hsingle]
  rw [hlacks, Site.entry, h]
  exact c.gains_add tag value

/-- A tag that could have a value and has none is added with a warning. -/
private theorem gains_lacking (c : Collected) {p : Site} {tag : String}
    (h : p.tag? = some (tag, ""))
    (hsingle : tag ∉ singleTags) (w : Warning) (hw : w.isAboutValue = true) :
    c.Gains ((c.warn w).add tag "") (p.entry c.described).toList
      (if p.lacksValue then 1 else 0) := by
  have hlacks : p.lacksValue = true := by simp [Site.lacksValue, h, hsingle]
  rw [hlacks, Site.entry, h]
  exact c.gains_warn_add hw tag ""

/-- A text that no tag takes may be the description. -/
private theorem gains_text (c : Collected) {p : Site} (htext : Comment.isTag p.token = false)
    (hbefore : p.before.any seeksValue = false) :
    c.Gains (c.describe p.token) (p.entry c.described).toList (if p.lacksValue then 1 else 0) := by
  have htag : p.tag? = none := by simp [Site.tag?, htext]
  have hfree : p.isFree = !p.token.isEmpty := by simp [Site.isFree, htext, hbefore]
  rw [show p.lacksValue = false by simp [Site.lacksValue, htag], Site.entry, htag, hfree,
    describe, described]
  by_cases hempty : p.token.isEmpty
  · simpa [hempty] using Gains.mk rfl rfl
  · by_cases hdescribed : c.tags.contains "description"
    · simpa [hdescribed] using Gains.mk rfl rfl
    · simpa [hempty, hdescribed] using c.gains_add "description" p.token

/-- A text that is taken by the tag before it adds nothing of its own. -/
private theorem gains_taken (c : Collected) {p : Site} (htext : Comment.isTag p.token = false)
    (hbefore : p.before.any seeksValue = true) :
    c.Gains c (p.entry c.described).toList (if p.lacksValue then 1 else 0) := by
  have htag : p.tag? = none := by simp [Site.tag?, htext]
  have hfree : p.isFree = false := by simp [Site.isFree, hbefore]
  rw [show p.lacksValue = false by simp [Site.lacksValue, htag], Site.entry, htag, hfree]
  exact ⟨rfl, rfl⟩

end Collected

private theorem seeksValue_of_text {token : String} (h : Comment.isTag token = false) :
    seeksValue token = false := by
  rw [seeksValue, h, Bool.false_and, Bool.false_and]

/-- A tag either looks for its value or has it, or does not take one. -/
private theorem seeksValue_of_tag {token : String} (h : Comment.isTag token = true) :
    seeksValue token =
      !(!(splitTag token).2.isEmpty || decide ((splitTag token).1 ∈ singleTags)) := by
  rw [seeksValue, h, Bool.true_and, Bool.not_or, Bool.not_not, decide_not]

namespace Site

/-- The value of a tag that looks for one is the text after it. -/
private theorem tag?_of_seeksValue {p : Site} (h : seeksValue p.token = true) :
    p.tag? = some ((splitTag p.token).1, (p.after.filter (!Comment.isTag ·)).getD "") := by
  simp only [seeksValue, Bool.and_eq_true, decide_eq_true_eq] at h
  simp [tag?, value, h]

/-- A tag that looks for no value has its own text as it. -/
private theorem tag?_of_not_seeksValue {p : Site} (htag : Comment.isTag p.token = true)
    (h : seeksValue p.token = false) : p.tag? = some (splitTag p.token) := by
  by_cases hempty : (splitTag p.token).2.isEmpty
  · have hnone : (splitTag p.token).2 = "" := String.isEmpty_iff.1 hempty
    have hsingle : (splitTag p.token).1 ∈ singleTags := by
      simpa [seeksValue_of_tag htag, hempty] using h
    simp [tag?, value, htag, hempty, hsingle, ← hnone]
  · simp [tag?, value, htag, hempty]

end Site

private theorem collectFrom_nil (c : Collected) : collectFrom c [] = c := rfl

section Steps

variable (c : Collected) {token : String}

private theorem collectFrom_text (htag : Comment.isTag token = false) (rest : List String) :
    collectFrom c (token :: rest) = collectFrom (c.describe token) rest := by
  have hnot : (!Comment.isTag token) = true := by rw [htag, Bool.not_false]
  rcases rest with _ | ⟨next, rest⟩
  · rw [collectFrom_singleton, if_pos hnot, collectFrom_nil]
  · rw [collectFrom_cons_cons, if_pos hnot]

private theorem collectFrom_tag (htag : Comment.isTag token = true)
    (hseeks : seeksValue token = false)
    (rest : List String) :
    collectFrom c (token :: rest) =
      collectFrom (c.add (splitTag token).1 (splitTag token).2) rest := by
  have hnot : ¬(!Comment.isTag token) = true := by simp [htag]
  rw [seeksValue_of_tag htag, Bool.not_eq_false'] at hseeks
  rcases rest with _ | ⟨next, rest⟩
  · rw [collectFrom_singleton, if_neg hnot, if_pos hseeks, collectFrom_nil]
  · rw [collectFrom_cons_cons, if_neg hnot, if_pos hseeks]

end Steps

/-- **What the pass adds**, from a token on that is not the value of the tag before it. -/
theorem collectFrom_gains {c : Collected} {before : Option String} {tokens : List String}
    (h : ∀ token ∈ tokens.head?, Comment.isTag token = false → before.any seeksValue = false) :
    c.Gains (collectFrom c tokens) (entriesFrom c.described (sitesFrom before tokens))
      ((sitesFrom before tokens).countP (·.lacksValue)) := by
  -- a tag may take the next token, so the induction is on the number of tokens
  induction hn : tokens.length using Nat.strongRecOn generalizing c before tokens with
  | ind n ih =>
    subst hn
    rcases tokens with _ | ⟨token, rest⟩
    · exact ⟨rfl, rfl⟩
    have hrest (c' : Collected)
        (h : ∀ next ∈ rest.head?, Comment.isTag next = false → seeksValue token = false) :
        c'.Gains (collectFrom c' rest) (entriesFrom c'.described (sitesFrom (some token) rest))
          ((sitesFrom (some token) rest).countP (·.lacksValue)) :=
      ih rest.length (Nat.lt_succ_self _) h rfl
    by_cases htag : Comment.isTag token = true
    case neg =>
      rw [Bool.not_eq_true] at htag
      rw [collectFrom_text c htag]
      exact .cons (c.gains_text htag (h token rfl htag))
        (hrest _ fun _ _ _ => seeksValue_of_text htag)
    by_cases hseeks : seeksValue token = true
    case neg =>
      rw [Bool.not_eq_true] at hseeks
      have hvalue := hseeks
      rw [seeksValue_of_tag htag, Bool.not_eq_false', Bool.or_eq_true, Bool.not_eq_true',
        decide_eq_true_eq] at hvalue
      rw [collectFrom_tag c htag hseeks]
      exact .cons (c.gains_tag (Site.tag?_of_not_seeksValue htag hseeks) hvalue)
        (hrest _ fun _ _ _ => hseeks)
    have htag? := Site.tag?_of_seeksValue (p := ⟨before, token, rest.head?⟩) hseeks
    have hseeking := hseeks
    rw [seeksValue_of_tag htag, Bool.not_eq_true', ← Bool.not_eq_true] at hseeking
    have hsingle : (splitTag token).1 ∉ singleTags := fun h => hseeking (by simp [h])
    have hnot : ¬(!Comment.isTag token) = true := by simp [htag]
    rcases rest with _ | ⟨next, rest⟩
    · rw [collectFrom_singleton, if_neg hnot, if_neg hseeking]
      have hdone (c' : Collected) : c'.Gains c' (entriesFrom c'.described []) 0 := ⟨rfl, rfl⟩
      refine .cons (c.gains_lacking ?_ hsingle (.emptyDescription _) rfl) (hdone _)
      exact htag?
    rw [collectFrom_cons_cons, if_neg hnot, if_neg hseeking]
    by_cases hnext : Comment.isTag next = true
    case pos =>
      rw [if_pos hnext]
      refine .cons (c.gains_lacking ?_ hsingle (.descriptionIsTag _ _) rfl) (hrest _ ?_)
      · rw [htag?, List.head?_cons, Option.filter_some, hnext]
        rfl
      · rintro _ ⟨⟩ htext
        exact absurd hnext (Bool.not_eq_true _ ▸ htext)
    -- the text after the tag is taken, and the induction goes on behind it
    rw [Bool.not_eq_true] at hnext
    have htaken (c' : Collected) : c'.Gains (collectFrom c' rest)
        (entriesFrom c'.described (sitesFrom (some token) (next :: rest)))
        ((sitesFrom (some token) (next :: rest)).countP (·.lacksValue)) := by
      refine .cons (c'.gains_taken hnext hseeks) (ih rest.length ?_ ?_ rfl)
      · exact Nat.lt_succ_of_lt (Nat.lt_succ_self _)
      · exact fun _ _ _ => seeksValue_of_text hnext
    rw [if_neg (Bool.not_eq_true _ ▸ hnext)]
    by_cases hempty : next.isEmpty = true
    · rw [if_pos hempty]
      refine .cons (c.gains_lacking ?_ hsingle (.emptyDescription _) rfl) (htaken _)
      rw [htag?, List.head?_cons, Option.filter_some, hnext, String.isEmpty_iff.1 hempty]
      rfl
    · rw [if_neg hempty]
      rw [Bool.not_eq_true] at hempty
      refine .cons (c.gains_tag ?_ (.inl hempty)) (htaken _)
      rw [htag?, List.head?_cons, Option.filter_some, hnext]
      rfl

/-! ### The values of one tag -/

private theorem all_pushAll (t : TagMap) (entries : List (String × String)) (tag : String) :
    (t.pushAll entries).all tag = t.all tag ++ entries.filterMap (valueFor tag) := by
  induction entries generalizing t with
  | nil => exact (List.append_nil _).symm
  | cons e entries ih =>
    refine (ih (t.push e.1 e.2)).trans ?_
    rw [TagMap.all_push]
    by_cases htag : tag = e.1
    · rw [if_pos htag, List.filterMap_cons_some (by rw [valueFor, if_pos htag.symm]), htag,
        List.append_assoc, List.singleton_append]
    · rw [if_neg htag, List.filterMap_cons_none (by rw [valueFor, if_neg (Ne.symm htag)])]

private theorem valuesOf_append (tag : String) (ps qs : List Site) :
    valuesOf tag (ps ++ qs) = valuesOf tag ps ++ valuesOf tag qs := by
  simp only [valuesOf, List.filterMap_append]

private theorem Site.not_isFree_of_tag? {p : Site} {t : String × String} (h : p.tag? = some t) :
    p.isFree = false := by
  by_cases htag : Comment.isTag p.token
  · simp [isFree, htag]
  · simp [tag?, htag] at h

/-- The entries for a tag are the values of the tokens that are this tag; for the description this
holds once there is one. -/
private theorem filterMap_entriesFrom {tag : String} {described : Bool}
    (h : described = true ∨ tag ≠ "description") (ps : List Site) :
    (entriesFrom described ps).filterMap (valueFor tag) = valuesOf tag ps := by
  induction ps generalizing described with
  | nil => rfl
  | cons p ps ih =>
    rw [entriesFrom, List.filterMap_append, ih (h.imp_left fun h => by rw [h, Bool.true_or]),
      valuesOf, valuesOf, List.filterMap_cons, Site.entry]
    rcases p.tag? with _ | t
    · rw [Option.none_or]
      split_ifs with hfree
      · have hne : "description" ≠ tag := by
          rcases h with h | h
          · simp [h] at hfree
          · exact h.symm
        simp [valueFor, hne]
      · rfl
    · rcases hvalue : valueFor tag t with _ | value <;> simp [hvalue]

private theorem descriptions_cons_of_isFree {p : Site} (hfree : p.isFree = true) (ps : List Site) :
    descriptions (p :: ps) = p.token :: valuesOf "description" (p :: ps) := by
  simp [descriptions, valuesOf, hfree]

/-- A description tag at the front leaves no place for a free text. -/
private theorem descriptions_cons {p : Site} (hfree : p.isFree = false) (ps : List Site) :
    descriptions (p :: ps) =
      if valuesOf "description" [p] = [] then descriptions ps
      else valuesOf "description" (p :: ps) := by
  have htake : (p :: ps).takeWhile (!·.isFree) = [p] ++ ps.takeWhile (!·.isFree) := by
    simp [hfree]
  have hdrop : (p :: ps).dropWhile (!·.isFree) = ps.dropWhile (!·.isFree) := by simp [hfree]
  have hfind : (p :: ps).find? (·.isFree) = ps.find? (·.isFree) := by simp [hfree]
  have hall : valuesOf "description" (p :: ps) =
      valuesOf "description" [p] ++ (valuesOf "description" (ps.takeWhile (!·.isFree)) ++
        valuesOf "description" (ps.dropWhile (!·.isFree))) := by
    rw [← valuesOf_append, List.takeWhile_append_dropWhile, ← valuesOf_append,
      List.singleton_append]
  simp only [descriptions, htake, hdrop, hfind, hall, valuesOf_append]
  by_cases h : valuesOf "description" [p] = [] <;> simp [h]

/-- The entries for the description. -/
private theorem filterMap_entriesFrom_description (ps : List Site) :
    (entriesFrom false ps).filterMap (valueFor "description") = descriptions ps := by
  induction ps with
  | nil => rfl
  | cons p ps ih =>
    rw [entriesFrom, List.filterMap_append, Bool.false_or]
    by_cases hfree : p.isFree = true
    · -- the first free text is the description, and nothing stands before it
      have htag : p.tag? = none := Option.eq_none_iff_forall_not_mem.2 fun t ht => by
        simp [Site.not_isFree_of_tag? ht] at hfree
      have hentry : p.entry false = some ("description", p.token) := by
        simp [Site.entry, htag, hfree]
      rw [hentry, Option.any_some, filterMap_entriesFrom (.inl (beq_self_eq_true _)),
        descriptions_cons_of_isFree hfree]
      simp [valueFor, valuesOf, htag]
    · rw [Bool.not_eq_true] at hfree
      have hentry : p.entry false = p.tag? := by simp [Site.entry, hfree]
      rw [hentry, descriptions_cons hfree]
      rcases htag : p.tag? with _ | ⟨k, value⟩
      · simpa [valuesOf, htag] using ih
      · by_cases hk : k = "description"
        · rw [Option.any_some, hk, filterMap_entriesFrom (.inl (beq_self_eq_true _))]
          simp [valueFor, valuesOf, htag, hk]
        · rw [Option.any_some, beq_eq_false_iff_ne.2 hk, ih]
          simp [valueFor, valuesOf, htag, hk]

/-! ### The result of the pass -/

/-- **The values of a tag.** They are those of the tokens that are this tag, in order; the
description may have the first free text among them. A tag that could have a value and has none is
warned about once. -/
theorem collect_values (tokens : List String) :
    (∀ tag, (collect tokens).tags.all tag =
        if tag = "description" then descriptions (sites tokens)
        else valuesOf tag (sites tokens)) ∧
      (collect tokens).warnings.countP Warning.isAboutValue =
        (sites tokens).countP (·.lacksValue) := by
  have hgains : Collected.Gains {} (collect tokens) (entriesFrom false (sites tokens))
      ((sites tokens).countP (·.lacksValue)) :=
    collectFrom_gains fun _ _ _ => rfl
  refine ⟨fun tag => ?_, hgains.valueWarnings.trans (Nat.zero_add _)⟩
  have hall : (collect tokens).tags.all tag =
      (entriesFrom false (sites tokens)).filterMap (valueFor tag) := by
    rw [hgains.tags, all_pushAll]
    rfl
  split_ifs with htag
  · rw [hall, htag, filterMap_entriesFrom_description]
  · rw [hall, filterMap_entriesFrom (.inr htag)]

end ApiDocs
