import Mathlib.Data.List.TakeWhile
import Mathlib.Tactic.ByContra
import ApiDocs.Text.Trim

/-!
# Texts between blanks

A text is what is left of it when it is stripped, between blanks (`exists_eq_strip`), and **this is
its only part between blanks with no blank at its ends** (`strip_between`). Blanks around a text
therefore do not matter, neither for what is left of it nor for its first word (`firstWord_strip`).
-/

namespace ApiDocs.Text

variable {cs blanks : List Char}

/-- A blank is no character of a word. -/
theorem isWord_of_isBlank {c : Char} (h : isBlank c = true) : isWord c = false := by
  have hnone : ∀ r ∈ blankRanges, ∀ n < r.2 - r.1 + 1, inRanges wordRanges (r.1 + n) = false := by
    decide +kernel
  obtain ⟨r, hr, hlo, hhi⟩ := exists_of_inRanges h
  obtain ⟨n, hn⟩ := Nat.exists_eq_add_of_le hlo
  rw [isWord, hn]
  exact hnone r hr n (by omega)

theorem isBlank_of_isWord {c : Char} (h : isWord c = true) : isBlank c = false := by
  refine Bool.eq_false_iff.2 fun hblank => ?_
  rw [isWord_of_isBlank hblank] at h
  cases h

/-- After the longest run of a class comes no character of it. -/
theorem not_of_head?_dropWhile {p : Char → Bool} {c : Char}
    (h : (cs.dropWhile p).head? = some c) : p c = false := by
  have hhead := List.head?_dropWhile_not p cs
  rw [h] at hhead
  simpa using hhead

/-- A run of a class with none of it after it is the longest one. -/
theorem takeWhile_run {p : Char → Bool} {run rest : List Char} (hrun : ∀ c ∈ run, p c = true)
    (hrest : ∀ c, rest.head? = some c → p c = false) :
    (run ++ rest).takeWhile p = run ∧ (run ++ rest).dropWhile p = rest := by
  rw [List.takeWhile_append_of_pos hrun, List.dropWhile_append_of_pos hrun]
  cases rest with
  | nil => simp
  | cons c rest => simp [hrest c rfl]

/-! ### Blanks at the start -/

theorem dropBlanks_append (h : ∀ c ∈ blanks, isBlank c = true) (cs : List Char) :
    dropBlanks (blanks ++ cs) = dropBlanks cs :=
  List.dropWhile_append_of_pos h

/-- Nothing is left exactly of a text of blanks. -/
private theorem dropBlanks_eq_nil_iff : dropBlanks cs = [] ↔ ∀ c ∈ cs, isBlank c = true :=
  List.dropWhile_eq_nil_iff

/-- A text that does not begin with a blank is left as it is. -/
theorem dropBlanks_eq_self (h : ∀ c, cs.head? = some c → isBlank c = false) :
    dropBlanks cs = cs := by
  cases cs with
  | nil => rfl
  | cons c cs => rw [dropBlanks_cons, h c rfl, if_neg Bool.false_ne_true]

/-- Only blanks are dropped, and all of them. -/
theorem exists_eq_dropBlanks (cs : List Char) :
    ∃ blanks, cs = blanks ++ dropBlanks cs ∧ (∀ c ∈ blanks, isBlank c = true) ∧
      ∀ c, (dropBlanks cs).head? = some c → isBlank c = false := by
  exact ⟨cs.takeWhile isBlank, List.takeWhile_append_dropWhile.symm,
    fun _ hc => List.mem_takeWhile_imp hc, fun _ => not_of_head?_dropWhile⟩

/-! ### Blanks at both ends -/

/-- No blank stands at the ends of a text. -/
structure Stripped (cs : List Char) : Prop where
  head : ∀ c, cs.head? = some c → isBlank c = false
  last : ∀ c, cs.getLast? = some c → isBlank c = false

/-- Words are stripped already. -/
theorem stripped_of_isWord (h : ∀ c ∈ cs, isWord c = true) : Stripped cs :=
  ⟨fun c hc => isBlank_of_isWord (h c (List.mem_of_head? hc)),
    fun c hc => isBlank_of_isWord (h c (List.mem_of_getLast? hc))⟩

/-- Stripping leaves no blank at either end. -/
private theorem stripped_strip (cs : List Char) : Stripped (strip cs) := by
  obtain ⟨before, -, -, hhead⟩ := exists_eq_dropBlanks cs
  obtain ⟨after, hafter, -, hlast⟩ := exists_eq_dropBlanks (dropBlanks cs).reverse
  constructor
  · intro c hc
    refine hhead c ?_
    have hkept : dropBlanks cs = strip cs ++ after.reverse := by
      rw [strip, ← List.reverse_append, ← hafter, List.reverse_reverse]
    rw [hkept, List.head?_append, hc]
    rfl
  · intro c hc
    rw [strip, List.getLast?_reverse] at hc
    exact hlast c hc

/-- **A text is what is left of it between blanks.** -/
theorem exists_eq_strip (cs : List Char) :
    ∃ before after, cs = before ++ strip cs ++ after ∧ (∀ c ∈ before, isBlank c = true) ∧
      ∀ c ∈ after, isBlank c = true := by
  obtain ⟨before, hbefore, hblank, -⟩ := exists_eq_dropBlanks cs
  obtain ⟨after, hafter, hblank', -⟩ := exists_eq_dropBlanks (dropBlanks cs).reverse
  refine ⟨before, after.reverse, ?_, hblank, fun c hc => hblank' c (List.mem_reverse.1 hc)⟩
  have hkept : dropBlanks cs = strip cs ++ after.reverse := by
    rw [strip, ← List.reverse_append, ← hafter, List.reverse_reverse]
  rw [List.append_assoc, ← hkept, ← hbefore]

/-- **What stands between blanks is left**, if there is no blank at its ends. -/
theorem strip_between {before kept after : List Char} (hbefore : ∀ c ∈ before, isBlank c = true)
    (hkept : Stripped kept) (hafter : ∀ c ∈ after, isBlank c = true) :
    strip (before ++ kept ++ after) = kept := by
  have hafter' : ∀ c ∈ after.reverse, isBlank c = true :=
    fun c hc => hafter c (List.mem_reverse.1 hc)
  rw [List.append_assoc, strip, dropBlanks_append hbefore]
  cases kept with
  | nil => rw [List.nil_append, dropBlanks_eq_nil_iff.2 hafter]; rfl
  | cons c kept =>
    have hfirst : dropBlanks (c :: kept ++ after) = c :: kept ++ after :=
      dropBlanks_eq_self fun d hd => hkept.head d hd
    have hlast : dropBlanks (c :: kept).reverse = (c :: kept).reverse :=
      dropBlanks_eq_self fun d hd => hkept.last d (by rwa [List.head?_reverse] at hd)
    rw [hfirst, List.reverse_append, dropBlanks_append hafter', hlast, List.reverse_reverse]

/-- What is stripped already stays. -/
theorem strip_eq_self (h : Stripped cs) : strip cs = cs := by
  have hnone : ∀ c ∈ ([] : List Char), isBlank c = true := by simp
  simpa using strip_between hnone h hnone

/-- Blanks at the front are stripped. -/
theorem strip_append_left (h : ∀ c ∈ blanks, isBlank c = true) (cs : List Char) :
    strip (blanks ++ cs) = strip cs := by
  rw [strip, dropBlanks_append h, strip]

/-- Blanks at the end are stripped. -/
theorem strip_append_right (h : ∀ c ∈ blanks, isBlank c = true) (cs : List Char) :
    strip (cs ++ blanks) = strip cs := by
  obtain ⟨before, after, heq, hbefore, hafter⟩ := exists_eq_strip cs
  have hblanks : ∀ c ∈ after ++ blanks, isBlank c = true := fun c hc =>
    (List.mem_append.1 hc).elim (hafter c) (h c)
  have hmiddle := strip_between hbefore (stripped_strip cs) hblanks
  rwa [← List.append_assoc, ← heq] at hmiddle

/-- What is not blank is not trimmed away. -/
theorem count_strip {c : Char} (h : isBlank c = false) (cs : List Char) :
    (strip cs).count c = cs.count c := by
  obtain ⟨before, after, heq, hbefore, hafter⟩ := exists_eq_strip cs
  have hnone (blanks : List Char) (hblanks : ∀ d ∈ blanks, isBlank d = true) : blanks.count c = 0 :=
    List.count_eq_zero.2 fun hmem => by rw [hblanks c hmem] at h; cases h
  have hcount := congrArg (List.count c) heq
  rw [List.count_append, List.count_append, hnone before hbefore, hnone after hafter] at hcount
  omega

/-! ### The first word -/

/-- **The first word of a text and the rest**: after blanks, a run of other characters that the end
of the text or a blank ends. -/
structure StartsWith (cs word rest : List Char) : Prop where
  split : ∃ blanks, cs = blanks ++ word ++ rest ∧ ∀ c ∈ blanks, isBlank c = true
  nonempty : word ≠ []
  word : ∀ c ∈ word, isBlank c = false
  ended : ∀ c, rest.head? = some c → isBlank c = true

/-- The first word ends where no character of words follows. -/
theorem firstWord_of_startsWith {word rest : List Char} (h : StartsWith cs word rest) :
    firstWord cs = some (word, strip rest) := by
  obtain ⟨blanks, rfl, hblanks⟩ := h.split
  obtain ⟨c, word', rfl⟩ := List.exists_cons_of_ne_nil h.nonempty
  have hdrop : dropBlanks (blanks ++ (c :: word') ++ rest) = c :: word' ++ rest := by
    rw [List.append_assoc, dropBlanks_append hblanks]
    exact dropBlanks_eq_self fun d hd => h.word d (by cases hd; exact List.mem_cons_self)
  have hword : ∀ d ∈ c :: word', (!isBlank d) = true := fun d hd => by rw [h.word d hd]; rfl
  obtain ⟨htake, hdropped⟩ := takeWhile_run hword fun d hd => by rw [h.ended d hd]; rfl
  have hsome : firstWord (blanks ++ (c :: word') ++ rest) =
      some ((c :: word' ++ rest).takeWhile (!isBlank ·),
        strip ((c :: word' ++ rest).dropWhile (!isBlank ·))) := by
    rw [firstWord, hdrop]
    rfl
  rw [hsome, htake, hdropped]

/-- A text starts with a word unless it is blank. -/
theorem exists_startsWith (h : ¬∀ c ∈ cs, isBlank c = true) :
    ∃ word rest, StartsWith cs word rest := by
  obtain ⟨blanks, heq, hblanks, hhead⟩ := exists_eq_dropBlanks cs
  obtain ⟨c, kept, hkept⟩ := List.exists_cons_of_ne_nil fun hnil => h (dropBlanks_eq_nil_iff.1 hnil)
  rw [hkept] at heq hhead
  refine ⟨(c :: kept).takeWhile (!isBlank ·), (c :: kept).dropWhile (!isBlank ·),
    ⟨blanks, ?_, hblanks⟩, ?_, ?_, ?_⟩
  · rw [List.append_assoc, List.takeWhile_append_dropWhile, ← heq]
  · simp [hhead c rfl]
  · exact fun d hd => by simpa using List.mem_takeWhile_imp hd
  · exact fun d hd => by simpa using not_of_head?_dropWhile hd

/-- Only a text of blanks has no first word. -/
theorem firstWord_eq_none_iff : firstWord cs = none ↔ ∀ c ∈ cs, isBlank c = true := by
  constructor
  · intro hnone
    by_contra h
    obtain ⟨word, rest, hstarts⟩ := exists_startsWith h
    rw [firstWord_of_startsWith hstarts] at hnone
    cases hnone
  · intro h
    rw [firstWord, dropBlanks_eq_nil_iff.2 h]

/-- The first word is the one that the text starts with. -/
private theorem firstWord_eq_some_iff {word description : List Char} :
    firstWord cs = some (word, description) ↔
      ∃ rest, StartsWith cs word rest ∧ description = strip rest := by
  constructor
  · intro h
    have hword : ¬∀ c ∈ cs, isBlank c = true := fun hblank => by
      rw [firstWord_eq_none_iff.2 hblank] at h
      cases h
    obtain ⟨word', rest, hstarts⟩ := exists_startsWith hword
    rw [firstWord_of_startsWith hstarts] at h
    obtain ⟨rfl, rfl⟩ := Prod.mk.inj (Option.some.inj h)
    exact ⟨rest, hstarts, rfl⟩
  · rintro ⟨rest, hstarts, rfl⟩
    exact firstWord_of_startsWith hstarts

/-- Blanks around a text do not matter for its first word. -/
theorem firstWord_strip (cs : List Char) : firstWord (strip cs) = firstWord cs := by
  obtain ⟨before, after, heq, hbefore, hafter⟩ := exists_eq_strip cs
  cases hfirst : firstWord (strip cs) with
  | none =>
    rw [firstWord_eq_none_iff] at hfirst
    symm
    rw [firstWord_eq_none_iff, heq]
    intro c hc
    rw [List.mem_append, List.mem_append] at hc
    rcases hc with (hc | hc) | hc
    · exact hbefore c hc
    · exact hfirst c hc
    · exact hafter c hc
  | some out =>
    obtain ⟨word, description⟩ := out
    obtain ⟨rest, hstarts, rfl⟩ := firstWord_eq_some_iff.1 hfirst
    obtain ⟨blanks, hsplit, hblanks⟩ := hstarts.split
    symm
    refine firstWord_eq_some_iff.2 ⟨rest ++ after, ?_, (strip_append_right hafter rest).symm⟩
    refine ⟨⟨before ++ blanks, ?_, ?_⟩, hstarts.nonempty, hstarts.word, ?_⟩
    · rw [hsplit] at heq
      simpa using heq
    · exact fun c hc => (List.mem_append.1 hc).elim (hbefore c) (hblanks c)
    · intro c hc
      cases rest with
      | nil => exact hafter c (List.mem_of_mem_head? (by simpa using hc))
      | cons d rest => exact hstarts.ended c hc

end ApiDocs.Text
