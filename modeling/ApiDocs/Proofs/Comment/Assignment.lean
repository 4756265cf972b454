import ApiDocs.Comment.Declaration
import ApiDocs.Proofs.Text.Trim

/-!
# The assigned name of a line

An equals sign or a colon is an operator if the last character before it that is not blank belongs
to a word. **The assigned name is the longest word that ends before the first operator**, blanks
aside, and there is none if there is no operator (`assignedName_eq_some_iff`,
`assignedName_eq_none_iff`).

`assignedName` goes through a line word by word. A character that belongs to no word, and a word
that no sign follows, are passed over: no operator has its word in them, and the name before an
operator further on does not reach back into them (`Passes`). At a word that a sign follows, the
sign is the first operator, since only characters of words and blanks come before it
(`assigns_word`).
-/

namespace ApiDocs.Comment

open Text

/-! ### Through a line word by word -/

private theorem not_isWord_sign {sign : Char} (h : sign = '=' ∨ sign = ':') :
    isWord sign = false := by
  rcases h with rfl | rfl <;> decide +kernel

theorem not_isBlank_sign {sign : Char} (h : sign = '=' ∨ sign = ':') : isBlank sign = false := by
  rcases h with rfl | rfl <;> decide

/-- A text goes on with an equals sign or a colon, blanks aside. -/
def SignFollows (cs : List Char) : Prop :=
  ∃ blanks sign tail, cs = blanks ++ sign :: tail ∧ (∀ b ∈ blanks, isBlank b = true) ∧
    (sign = '=' ∨ sign = ':')

/-- A sign follows behind blanks. -/
theorem signFollows_iff {cs : List Char} :
    SignFollows cs ↔ ∃ c tail, dropBlanks cs = c :: tail ∧ (c = '=' ∨ c = ':') := by
  constructor
  · rintro ⟨blanks, sign, tail, rfl, hblanks, hsign⟩
    refine ⟨sign, tail, ?_, hsign⟩
    rw [dropBlanks_append hblanks]
    rcases hsign with rfl | rfl <;> rfl
  · rintro ⟨c, tail, htail, hc⟩
    obtain ⟨blanks, hsplit, hblanks, -⟩ := exists_eq_dropBlanks cs
    exact ⟨blanks, c, tail, by rw [← htail]; exact hsplit, hblanks, hc⟩

/-- What a sign follows has come to an end: no word goes on there. -/
theorem SignFollows.not_isWord {cs : List Char} (h : SignFollows cs) (c : Char)
    (hc : cs.head? = some c) : isWord c = false := by
  obtain ⟨blanks, sign, tail, rfl, hblanks, hsign⟩ := h
  cases blanks with
  | nil =>
    cases hc
    exact not_isWord_sign hsign
  | cons b blanks =>
    cases hc
    exact isWord_of_isBlank (hblanks c List.mem_cons_self)

theorem assignedName_nil : assignedName [] = none := by rw [assignedName]

/-- A character that is no part of a word is passed over. -/
theorem assignedName_other {c : Char} (h : isWord c = false) (rest : List Char) :
    assignedName (c :: rest) = assignedName rest := by
  rw [assignedName, h, if_neg Bool.false_ne_true]

section Word

variable {name rest : List Char} (hname : ∀ c ∈ name, isWord c = true)
  (hrest : ∀ d, rest.head? = some d → isWord d = false)

include hname hrest

/-- A word with a sign behind it is the name. -/
theorem assignedName_word_sign (hne : name ≠ []) (h : SignFollows rest) :
    assignedName (name ++ rest) = some (name, rest) := by
  obtain ⟨c, name, rfl⟩ := List.exists_cons_of_ne_nil hne
  obtain ⟨htake, hdrop⟩ := takeWhile_run (fun d hd => hname d (List.mem_cons_of_mem c hd)) hrest
  obtain ⟨d, tail, htail, hd⟩ := signFollows_iff.1 h
  rw [List.cons_append, assignedName, if_pos (hname c List.mem_cons_self), htake, hdrop, htail]
  rcases hd with rfl | rfl <;> rfl

/-- A word without a sign behind it is passed over as a whole. -/
theorem assignedName_skip (h : ¬SignFollows rest) :
    assignedName (name ++ rest) = assignedName rest := by
  cases name with
  | nil => rfl
  | cons c name =>
    obtain ⟨htake, hdrop⟩ := takeWhile_run (fun d hd => hname d (List.mem_cons_of_mem c hd)) hrest
    rw [List.cons_append, assignedName, if_pos (hname c List.mem_cons_self), htake, hdrop]
    split
    · rename_i tail htail
      exact absurd (signFollows_iff.2 ⟨'=', tail, htail, .inl rfl⟩) h
    · rename_i tail htail
      exact absurd (signFollows_iff.2 ⟨':', tail, htail, .inr rfl⟩) h
    · rfl

end Word

/-- Induction on a line by its words. -/
private theorem word_induction {P : List Char → Prop} (nil : P [])
    (other : ∀ c rest, isWord c = false → P rest → P (c :: rest))
    (word : ∀ name rest, name ≠ [] → (∀ c ∈ name, isWord c = true) →
      (∀ d, rest.head? = some d → isWord d = false) → P rest → P (name ++ rest))
    (cs : List Char) : P cs := by
  induction hn : cs.length using Nat.strong_induction_on generalizing cs with
  | _ n ih =>
    subst hn
    cases cs with
    | nil => exact nil
    | cons c cs =>
      cases hc : isWord c with
      | false => exact other c cs hc (ih _ (by simp) cs rfl)
      | true =>
        rw [← List.takeWhile_append_dropWhile (p := isWord) (l := c :: cs)]
        refine word _ _ (by simp [hc]) (fun d hd => List.mem_takeWhile_imp hd)
          (fun d => not_of_head?_dropWhile) (ih _ ?_ _ rfl)
        rw [List.dropWhile_cons_of_pos hc, List.length_cons]
        exact Nat.lt_succ_of_le (List.dropWhile_suffix isWord).length_le

/-! ### Operators -/

/-- **An operator after a text**: an equals sign or a colon, where the last character of the text
that is not blank belongs to a word. -/
structure IsOperator (before : List Char) (sign : Char) : Prop where
  sign : sign = '=' ∨ sign = ':'
  word : ∃ front c blanks, before = front ++ c :: blanks ∧ isWord c = true ∧
    ∀ b ∈ blanks, isBlank b = true

/-- The first operator of a line. -/
structure FirstOperator (line before : List Char) (sign : Char) (after : List Char) : Prop where
  split : line = before ++ sign :: after
  operator : IsOperator before sign
  first : ∀ before' sign' after', line = before' ++ sign' :: after' → IsOperator before' sign' →
    before.length ≤ before'.length

/-- The longest word that ends at the last character of a text that is not blank. -/
structure NameBefore (before name blanks : List Char) : Prop where
  split : ∃ front, before = front ++ (name ++ blanks) ∧
    ∀ c, front.getLast? = some c → isWord c = false
  nonempty : name ≠ []
  word : ∀ c ∈ name, isWord c = true
  blank : ∀ b ∈ blanks, isBlank b = true

/-- A part of a line may be passed over: an operator after it has its word after it, too, and no
word goes on from the part to the rest. -/
structure Passes (part rest : List Char) : Prop where
  operator : ∀ before sign after, part ++ rest = before ++ sign :: after → IsOperator before sign →
    ∃ before', before = part ++ before' ∧ IsOperator before' sign
  apart : ∀ d, rest.head? = some d → isWord d = true → ∀ c, part.getLast? = some c →
    isWord c = false

section Passes

variable {part rest before after name : List Char} {c sign : Char}

/-- An operator after a part has its word after the part, or only blanks stand between. -/
private theorem IsOperator.of_append (h : IsOperator (part ++ before) sign) :
    IsOperator before sign ∨ (∃ front c blanks, part = front ++ c :: blanks ∧ isWord c = true) ∧
      ∀ b ∈ before, isBlank b = true := by
  obtain ⟨front, c, blanks, hsplit, hc, hblanks⟩ := h.word
  rcases List.append_eq_append_iff.1 hsplit with ⟨front', hfront, hbefore⟩ | ⟨more, hpart, hmore⟩
  · exact .inl ⟨h.sign, front', c, blanks, hbefore, hc, hblanks⟩
  · cases more with
    | nil => exact .inl ⟨h.sign, [], c, blanks, hmore.symm, hc, hblanks⟩
    | cons d more =>
      obtain ⟨rfl, rfl⟩ := List.cons.inj hmore
      exact .inr ⟨⟨front, c, more, hpart, hc⟩,
        fun b hb => hblanks b (List.mem_append_right more hb)⟩

/-- A character outside words is passed: no operator has it for its name. -/
private theorem passes_other (hc : isWord c = false) (rest : List Char) : Passes [c] rest where
  operator := by
    intro before sign after hsplit h
    cases before with
    | nil =>
      obtain ⟨front, d, blanks, hnil, -⟩ := h.word
      simp at hnil
    | cons b before =>
      obtain ⟨rfl, -⟩ := List.cons.inj hsplit
      refine ⟨before, rfl, ?_⟩
      have hpast : IsOperator ([c] ++ before) sign := h
      rcases hpast.of_append with h | ⟨⟨front, d, blanks, hpart, hd⟩, -⟩
      · exact h
      · have hmem : d ∈ [c] := by rw [hpart]; simp
        rw [List.mem_singleton.1 hmem, hc] at hd
        cases hd
  apart := by
    rintro d - - e he
    cases he
    exact hc

/-- A whole word without a sign behind it is passed. -/
private theorem passes_word (hname : ∀ c ∈ name, isWord c = true)
    (hrest : ∀ d, rest.head? = some d → isWord d = false) (h : ¬SignFollows rest) :
    Passes name rest where
  operator := by
    intro before sign after hsplit hoperator
    rcases List.append_eq_append_iff.1 hsplit with ⟨before', rfl, hrest'⟩ | ⟨more, rfl, hmore⟩
    · refine ⟨before', rfl, ?_⟩
      rcases hoperator.of_append with hop | ⟨-, hblanks⟩
      · exact hop
      · exact absurd ⟨before', sign, after, hrest', hblanks, hoperator.sign⟩ h
    · -- the sign would stand in the word or right after it
      cases more with
      | nil => exact absurd ⟨[], sign, after, hmore.symm, by simp, hoperator.sign⟩ h
      | cons d more =>
        obtain ⟨rfl, -⟩ := List.cons.inj hmore
        have hsign := hname sign (by simp)
        rw [not_isWord_sign hoperator.sign] at hsign
        cases hsign
  apart := by
    intro d hd hword
    rw [hrest d hd] at hword
    cases hword

end Passes

/-- There is no operator in a line. -/
def NoOperator (line : List Char) : Prop :=
  ∀ before sign after, line = before ++ sign :: after → ¬IsOperator before sign

/-- **The name before the first operator** of a line, and what follows the name. -/
def Assigns (line name rest : List Char) : Prop :=
  ∃ before sign after blanks, FirstOperator line before sign after ∧ NameBefore before name blanks ∧
    rest = blanks ++ sign :: after

section Assigns

variable {line part rest name after : List Char}

/-- No operator behind a part that is passed, no operator at all. -/
private theorem Passes.noOperator (h : Passes part rest) (hnone : NoOperator rest) :
    NoOperator (part ++ rest) := by
  intro before sign after hsplit hoperator
  obtain ⟨before', rfl, hoperator'⟩ := h.operator _ _ _ hsplit hoperator
  rw [List.append_assoc] at hsplit
  exact hnone before' sign after (List.append_cancel_left hsplit) hoperator'

/-- Operators behind a part that is passed are those of the whole. -/
private theorem Passes.assigns (h : Passes part rest) (hassigns : Assigns rest name after) :
    Assigns (part ++ rest) name after := by
  obtain ⟨before, sign, tail, blanks, hfirst, hname, hafter⟩ := hassigns
  refine ⟨part ++ before, sign, tail, blanks, ⟨?_, ?_, ?_⟩, ⟨?_, hname.nonempty, hname.word,
    hname.blank⟩, hafter⟩
  · rw [hfirst.split, List.append_assoc]
  · obtain ⟨front, c, blanks, hbefore, hc⟩ := hfirst.operator.word
    exact ⟨hfirst.operator.sign, part ++ front, c, blanks, by rw [hbefore, List.append_assoc], hc⟩
  · intro before' sign' after' hsplit hoperator
    obtain ⟨before'', rfl, hoperator'⟩ := h.operator _ _ _ hsplit hoperator
    rw [List.append_assoc] at hsplit
    have hle := hfirst.first before'' sign' after' (List.append_cancel_left hsplit) hoperator'
    rw [List.length_append, List.length_append]
    omega
  · obtain ⟨front, hbefore, hfront⟩ := hname.split
    refine ⟨part ++ front, by rw [hbefore, List.append_assoc], fun c hc => ?_⟩
    cases front with
    | nil =>
      -- the name begins the rest, so no word of the part goes on in it
      obtain ⟨d, more, hmore⟩ := List.exists_cons_of_ne_nil hname.nonempty
      have hd : isWord d = true := hname.word d (by rw [hmore]; exact List.mem_cons_self)
      rw [List.append_nil] at hc
      refine h.apart d ?_ hd c hc
      rw [hfirst.split, hbefore, hmore]
      rfl
    | cons d front =>
      rw [List.getLast?_append, List.getLast?_eq_some_getLast (List.cons_ne_nil d front)] at hc
      refine hfront c ?_
      rw [List.getLast?_eq_some_getLast (List.cons_ne_nil d front)]
      exact hc

/-- A word with a sign behind it is assigned to. -/
private theorem assigns_word (hne : name ≠ []) (hname : ∀ c ∈ name, isWord c = true)
    (h : SignFollows rest) : Assigns (name ++ rest) name rest := by
  obtain ⟨blanks, sign, tail, rfl, hblanks, hsign⟩ := h
  refine ⟨name ++ blanks, sign, tail, blanks, ⟨?_, ⟨hsign, ?_⟩, ?_⟩,
    ⟨⟨[], rfl, by simp⟩, hne, hname, hblanks⟩, rfl⟩
  · rw [List.append_assoc]
  · refine ⟨name.dropLast, name.getLast hne, blanks, ?_, hname _ (List.getLast_mem hne), hblanks⟩
    rw [← List.singleton_append, ← List.append_assoc, List.dropLast_concat_getLast]
  · -- only characters of words and blanks come before the sign, and none of them is a sign
    intro before' sign' after' hsplit hoperator
    by_contra hlt
    have hmem : sign' ∈ name ++ blanks := by
      rw [← List.append_assoc] at hsplit
      rcases List.append_eq_append_iff.1 hsplit with ⟨more, hbefore, -⟩ | ⟨more, hname, hmore⟩
      · rw [hbefore] at hlt
        exact absurd (List.prefix_append _ _).length_le hlt
      · cases more with
        | nil =>
          rw [hname, List.append_nil] at hlt
          exact absurd (Nat.le_refl _) hlt
        | cons d more =>
          rw [hname, (List.cons.inj hmore).1]
          simp
    rcases List.mem_append.1 hmem with hmem | hmem
    · have hword := hname sign' hmem
      rw [not_isWord_sign hoperator.sign] at hword
      cases hword
    · have hblank := hblanks sign' hmem
      rw [not_isBlank_sign hoperator.sign] at hblank
      cases hblank

/-- The search finds the name before the first operator, or there is none. -/
private theorem assignedName_spec (line : List Char) :
    match assignedName line with
    | none => NoOperator line
    | some (name, after) => Assigns line name after := by
  induction line using word_induction with
  | nil =>
    rw [assignedName_nil]
    intro before sign after h
    simp at h
  | other c rest hc ih =>
    rw [assignedName_other hc]
    split at ih
    · exact (passes_other hc rest).noOperator ih
    · exact (passes_other hc rest).assigns ih
  | word name rest hne hname hrest ih =>
    by_cases hsign : SignFollows rest
    · rw [assignedName_word_sign hname hrest hne hsign]
      exact assigns_word hne hname hsign
    · rw [assignedName_skip hname hrest hsign]
      split at ih
      · exact (passes_word hname hrest hsign).noOperator ih
      · exact (passes_word hname hrest hsign).assigns ih

/-- There is one first operator. -/
theorem FirstOperator.unique {before before' after after' : List Char} {sign sign' : Char}
    (h : FirstOperator line before sign after) (h' : FirstOperator line before' sign' after') :
    before = before' ∧ sign :: after = sign' :: after' := by
  have hlength := Nat.le_antisymm (h.first _ _ _ h'.split h'.operator)
    (h'.first _ _ _ h.split h.operator)
  exact List.append_inj (h.split.symm.trans h'.split) hlength

/-- The name before an operator is read off the end of the text. -/
private theorem NameBefore.ends {before blanks : List Char} (h : NameBefore before name blanks) :
    (before.reverse.takeWhile isBlank).reverse = blanks ∧
      ((before.reverse.dropWhile isBlank).takeWhile isWord).reverse = name := by
  obtain ⟨front, rfl, hfront⟩ := h.split
  have hblank : ∀ d, (name.reverse ++ front.reverse).head? = some d → isBlank d = false := by
    intro d hd
    rw [List.head?_append, List.head?_reverse, List.getLast?_eq_some_getLast h.nonempty] at hd
    cases hd
    exact isBlank_of_isWord (h.word _ (List.getLast_mem h.nonempty))
  have hother : ∀ d, front.reverse.head? = some d → isWord d = false :=
    fun d hd => hfront d (by rwa [List.head?_reverse] at hd)
  obtain ⟨htake, hdrop⟩ := takeWhile_run (fun b hb => h.blank b (List.mem_reverse.1 hb)) hblank
  obtain ⟨hname, -⟩ := takeWhile_run (fun c hc => h.word c (List.mem_reverse.1 hc)) hother
  rw [List.reverse_append, List.reverse_append, List.append_assoc, htake, hdrop, hname,
    List.reverse_reverse, List.reverse_reverse]
  exact ⟨rfl, rfl⟩

/-- The name before an operator is one, and so are the blanks between. -/
theorem NameBefore.unique {before blanks name' blanks' : List Char}
    (h : NameBefore before name blanks) (h' : NameBefore before name' blanks') :
    name = name' ∧ blanks = blanks' :=
  ⟨h.ends.2.symm.trans h'.ends.2, h.ends.1.symm.trans h'.ends.1⟩

/-- At most one name is assigned to. -/
theorem Assigns.unique {name' after' : List Char} (h : Assigns line name after)
    (h' : Assigns line name' after') : name = name' ∧ after = after' := by
  obtain ⟨before, sign, tail, blanks, hfirst, hname, rfl⟩ := h
  obtain ⟨before', sign', tail', blanks', hfirst', hname', rfl⟩ := h'
  obtain ⟨rfl, htail⟩ := hfirst.unique hfirst'
  obtain ⟨rfl, rfl⟩ := hname.unique hname'
  exact ⟨rfl, by rw [htail]⟩

private theorem Assigns.not_noOperator (h : Assigns line name after) : ¬NoOperator line := by
  obtain ⟨before, sign, tail, blanks, hfirst, -⟩ := h
  exact fun hnone => hnone _ _ _ hfirst.split hfirst.operator

/-- The search fails exactly on lines without an operator that has a name. -/
theorem assignedName_eq_none_iff : assignedName line = none ↔ NoOperator line := by
  have hspec := assignedName_spec line
  constructor
  · intro h
    rwa [h] at hspec
  · intro h
    cases hline : assignedName line with
    | none => rfl
    | some found =>
      rw [hline] at hspec
      exact absurd h hspec.not_noOperator

/-- The search finds exactly the name that is assigned to. -/
theorem assignedName_eq_some_iff :
    assignedName line = some (name, after) ↔ Assigns line name after := by
  have hspec := assignedName_spec line
  constructor
  · intro h
    rwa [h] at hspec
  · intro h
    cases hline : assignedName line with
    | none =>
      rw [hline] at hspec
      exact absurd hspec h.not_noOperator
    | some found =>
      rw [hline] at hspec
      obtain ⟨rfl, rfl⟩ := hspec.unique h
      rfl

end Assigns

end ApiDocs.Comment
