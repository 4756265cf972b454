import Mathlib.Data.List.DropRight
import ApiDocs.Proofs.Comment.Scan

/-!
# What a masked text stands for

Taking the literals out of a source replaces them by placeholders, in two passes, and a string
literal may hold placeholders of the first pass. `StandsFor` compares a masked text with the text
it came from: every character stands for itself, and every placeholder for a whole literal. All
that is done to a masked text respects this relation. Decoration and blanks at its ends are dropped
as from the text itself (`StandsFor.undecorate`, `StandsFor.strip`), since a literal begins and
ends with a delimiter, and no comment end arises by masking (`StandsFor.infix_commentEnd`).

**A source without tildes is what its masked text stands for** (`standsFor_mask`), and **two rounds
of restoring give back what a masked text stands for** (`StandsFor.restore`). No property of the
lines is needed for this: that a literal stays on one line (`IsLiteral`) is enough to cut a masked
text where the source is cut (`StandsFor.split_line`).
-/

namespace ApiDocs.Comment

open Text

/-! ### Restoring in place -/

/-- One round of restoring turns a part of a masked text into `text`, whatever follows it. -/
def RestoresTo (literals : List (List Char)) (part text : List Char) : Prop :=
  ∀ cs, restoreOnce literals (part ++ cs) = text ++ restoreOnce literals cs

namespace RestoresTo

variable {literals : List (List Char)} {part part' text text' : List Char}

theorem nil : RestoresTo literals [] [] := fun _ => rfl

theorem append (h : RestoresTo literals part text) (h' : RestoresTo literals part' text') :
    RestoresTo literals (part ++ part') (text ++ text') := by
  intro cs
  rw [List.append_assoc, h, h', List.append_assoc]

theorem of_notMem (h : '~' ∉ part) : RestoresTo literals part part :=
  restoreOnce_append h literals

private theorem placeholder {index : Nat} {literal : List Char}
    (h : literals[index]? = some literal) :
    RestoresTo literals (placeholder index) literal := by
  intro cs
  rw [restoreOnce_placeholder, h, Option.getD_some]

private theorem restoreOnce_eq (h : RestoresTo literals part text) :
    restoreOnce literals part = text := by
  have hnil : restoreOnce literals [] = [] := by rw [restoreOnce]
  have happ := h []
  rwa [List.append_nil, hnil, List.append_nil] at happ

end RestoresTo

/-! ### Stretches of text at which the passes stop -/

private theorem rdropWhile_cons {α : Type} (p : α → Bool) (c : α) (cs : List α) :
    (c :: cs).rdropWhile p =
      if cs.rdropWhile p = [] ∧ p c = true then [] else c :: cs.rdropWhile p := by
  induction cs using List.reverseRecOn with
  | nil => cases h : p c <;> simp [h]
  | append_singleton cs d ih =>
    rw [← List.cons_append]
    by_cases hd : p d = true
    · rw [List.rdropWhile_concat_pos p _ d hd, List.rdropWhile_concat_pos p _ d hd, ih]
    · rw [List.rdropWhile_concat_neg p _ d hd, List.rdropWhile_concat_neg p _ d hd]
      simp

/-- A stretch that ends with no blank is not trimmed. -/
private theorem rdropWhile_token {c : Char} {cs inner : List Char} (hcs : cs = inner ++ [c])
    (hc : isBlank c = false) (rest : List Char) :
    (cs ++ rest).rdropWhile isBlank = cs ++ rest.rdropWhile isBlank := by
  subst hcs
  induction inner with
  | nil => simp [rdropWhile_cons, hc]
  | cons d inner ih =>
    rw [List.cons_append, List.cons_append, rdropWhile_cons, ih]
    simp

theorem infix_of_notMem {c : Char} {cs before after : List Char} (h : c ∉ before)
    (hin : c :: cs <:+: before ++ after) : c :: cs <:+: after := by
  induction before with
  | nil => exact hin
  | cons d before ih =>
    rcases List.infix_cons_iff.1 hin with hpre | hin
    · exact absurd (List.cons_prefix_cons.1 hpre).1 fun hc => h (hc ▸ List.mem_cons_self)
    · exact ih (fun hmem => h (List.mem_cons_of_mem d hmem)) hin

/-- A stretch of one line that begins with no decoration stays as it is. -/
theorem undecorate_token {c : Char} {cs inner : List Char} (hcs : cs = c :: inner)
    (hc : isDecoration c = false) (hline : '\n' ∉ cs) (lineStart : Bool) (rest : List Char) :
    undecorate lineStart (cs ++ rest) = cs ++ undecorate false rest := by
  rw [← undecorate_append hline]
  subst hcs
  cases lineStart with
  | false => rfl
  | true => exact undecorate_true hc _

/-! ### Literals -/

/-- The characters that a literal begins and ends with. -/
def isDelimiter (c : Char) : Bool := c == '/' || c == '\'' || c == '"'

/-- A text that may be taken out as a literal: it stands on one line between two delimiters. -/
structure IsLiteral (cs : List Char) : Prop where
  delimited : ∃ first inner last, cs = first :: inner ++ [last] ∧ isDelimiter first = true ∧
    isDelimiter last = true
  oneLine : '\n' ∉ cs

/-- Delimiters do not occur in placeholders. -/
theorem plain_of_isDelimiter {c : Char} (h : isDelimiter c = true) :
    c ≠ '~' ∧ isAsciiDigit c = false := by
  simp only [isDelimiter, Bool.or_eq_true, beq_iff_eq] at h
  rcases h with (rfl | rfl) | rfl <;> exact ⟨by decide, by decide⟩

private theorem not_blank_of_isDelimiter {c : Char} (h : isDelimiter c = true) :
    isBlank c = false := by
  simp only [isDelimiter, Bool.or_eq_true, beq_iff_eq] at h
  rcases h with (rfl | rfl) | rfl <;> decide

theorem not_decoration_of_isDelimiter {c : Char} (h : isDelimiter c = true) :
    isDecoration c = false := by
  simp only [isDelimiter, Bool.or_eq_true, beq_iff_eq] at h
  rcases h with (rfl | rfl) | rfl <;> decide

/-- A pattern literal ends with a slash on its own line. -/
theorem patternEnd_take {cs : List Char} {n : Nat} (h : patternEnd cs = some n) :
    ∃ inner, cs.take n = inner ++ ['/'] ∧ '\n' ∉ inner := by
  fun_induction patternEnd cs generalizing n with
  | case1 => cases h
  | case2 c rest hc => cases h
  | case3 c rest hc ih =>
    obtain ⟨k, hk, rfl⟩ := Option.map_eq_some_iff.1 h
    obtain ⟨inner, htake, hline⟩ := ih hk
    refine ⟨'*' :: c :: inner, by simp [htake], ?_⟩
    simp only [List.mem_cons, not_or]
    exact ⟨by decide, fun h => hc (.inr h.symm), hline⟩
  | case4 => cases h
  | case5 c rest _ hc k hk ih =>
    cases h
    obtain ⟨inner, htake, hline⟩ := ih hk
    refine ⟨c :: inner, by simp [htake], ?_⟩
    simp only [List.mem_cons, not_or]
    exact ⟨fun h => hc (.inr h.symm), hline⟩
  | case6 =>
    cases h
    exact ⟨[], by simp, by simp⟩
  | case7 => cases h

/-- A string ends with its quote on its own line. -/
theorem stringEnd_take {quote : Char} {cs : List Char} {n : Nat}
    (h : stringEnd quote cs = some n) :
    ∃ inner, cs.take n = inner ++ [quote] ∧ '\n' ∉ inner := by
  fun_induction stringEnd quote cs generalizing n with
  | case1 => cases h
  | case2 => cases h
  | case3 c rest hc ih =>
    obtain ⟨k, hk, rfl⟩ := Option.map_eq_some_iff.1 h
    obtain ⟨inner, htake, hline⟩ := ih hk
    refine ⟨'\\' :: c :: inner, by simp [htake], ?_⟩
    simp only [List.mem_cons, not_or]
    exact ⟨by decide, fun h => hc h.symm, hline⟩
  | case4 =>
    cases h
    exact ⟨[], by simp, by simp⟩
  | case5 => cases h
  | case6 c rest _ _ hc ih =>
    obtain ⟨k, hk, rfl⟩ := Option.map_eq_some_iff.1 h
    obtain ⟨inner, htake, hline⟩ := ih hk
    refine ⟨c :: inner, by simp [htake], ?_⟩
    simp only [List.mem_cons, not_or]
    exact ⟨fun h => hc (.inr h.symm), hline⟩

/-- **What is found are literals.** -/
def FindsLiterals (literal : List Char → Option Nat) : Prop :=
  ∀ c cs n, literal (c :: cs) = some n → IsLiteral (c :: cs.take n)

/-- A pattern literal begins with a slash and a character that is neither blank nor a mark. -/
theorem exists_of_patternLiteral {cs : List Char} {n : Nat} (h : patternLiteral cs = some n) :
    ∃ d rest k, cs = '/' :: d :: rest ∧ ¬(isBlank d || d == '/' || d == '*') = true ∧
      patternEnd rest = some k ∧ n = k + 1 := by
  rw [patternLiteral.eq_def] at h
  split at h
  · rename_i d rest
    split at h
    · cases h
    · rename_i hd
      obtain ⟨k, hk, rfl⟩ := Option.map_eq_some_iff.1 h
      exact ⟨d, rest, k, rfl, hd, hk, rfl⟩
  · cases h

theorem findsLiterals_pattern : FindsLiterals patternLiteral := by
  intro c cs n h
  obtain ⟨d, rest, k, hcs, hd, hk, rfl⟩ := exists_of_patternLiteral h
  cases hcs
  obtain ⟨inner, htake, hline⟩ := patternEnd_take hk
  have hd' : d ≠ '\n' := by
    rintro rfl
    exact hd (by decide)
  rw [List.take_succ_cons, htake]
  refine ⟨⟨'/', d :: inner, '/', rfl, by decide, by decide⟩, ?_⟩
  simp [hd'.symm, hline]

theorem findsLiterals_string : FindsLiterals stringLiteral := by
  intro c cs n h
  rw [stringLiteral] at h
  split at h
  · rename_i hc
    obtain ⟨inner, htake, hline⟩ := stringEnd_take h
    have hdelimiter : isDelimiter c = true := by
      rcases hc with rfl | rfl <;> decide
    have hne : c ≠ '\n' := by
      rintro rfl
      exact absurd hc (by decide)
    refine ⟨⟨c, inner, c, by rw [htake]; rfl, hdelimiter, hdelimiter⟩, ?_⟩
    simp [htake, hne.symm, hline]
  · cases h

/-! ### Masked texts and what they stand for -/

/-- **A masked text stands for another**: a character stands for itself, and a placeholder for the
literal that it holds. -/
inductive StandsFor (holds : Nat → List Char → Prop) : List Char → List Char → Prop
  | nil : StandsFor holds [] []
  | char {c : Char} {part text : List Char} (plain : c ≠ '~') (rest : StandsFor holds part text) :
      StandsFor holds (c :: part) (c :: text)
  | literal {index : Nat} {literal part text : List Char} (held : holds index literal)
      (rest : StandsFor holds part text) :
      StandsFor holds (placeholder index ++ part) (literal ++ text)

namespace StandsFor

variable {holds : Nat → List Char → Prop} {part part' text text' : List Char}

/-- Without literals a text stands for itself only. -/
theorem eq_of_forall_not (h : StandsFor holds part text) (hnone : ∀ index lit, ¬holds index lit) :
    part = text ∧ '~' ∉ text := by
  induction h with
  | nil => exact ⟨rfl, List.not_mem_nil⟩
  | char plain _ ih => exact ⟨by rw [ih.1], by simp [plain.symm, ih.2]⟩
  | literal held => exact absurd held (hnone _ _)

theorem of_notMem (h : '~' ∉ text) : StandsFor holds text text := by
  induction text with
  | nil => exact .nil
  | cons c text ih =>
    exact .char (fun hc => h (hc ▸ List.mem_cons_self))
      (ih fun hmem => h (List.mem_cons_of_mem c hmem))

theorem append (h : StandsFor holds part text) (h' : StandsFor holds part' text') :
    StandsFor holds (part ++ part') (text ++ text') := by
  induction h with
  | nil => exact h'
  | char plain _ ih => exact .char plain ih
  | literal held _ ih =>
    rw [List.append_assoc, List.append_assoc]
    exact .literal held ih

/-- A character other than a tilde stands for itself. -/
theorem of_cons {c : Char} (hc : c ≠ '~') (h : StandsFor holds (c :: part) text) :
    ∃ text', text = c :: text' ∧ StandsFor holds part text' := by
  generalize hall : c :: part = whole at h
  cases h with
  | nil => cases hall
  | char plain rest =>
    cases hall
    exact ⟨_, rfl, rest⟩
  | literal held rest =>
    cases hall
    exact absurd rfl hc

/-- A character that is in no placeholder stands for itself, with what is before it and after it
apart. -/
theorem split {before after : List Char} {c : Char} (htilde : c ≠ '~')
    (hdigit : isAsciiDigit c = false) (h : StandsFor holds (before ++ c :: after) text) :
    ∃ text₁ text₂, text = text₁ ++ c :: text₂ ∧ StandsFor holds before text₁ ∧
      StandsFor holds after text₂ := by
  generalize hall : before ++ c :: after = part at h
  induction h generalizing before with
  | nil => simp at hall
  | @char d part text plain rest ih =>
    cases before with
    | nil =>
      cases hall
      exact ⟨[], text, rfl, .nil, rest⟩
    | cons b before =>
      cases hall
      obtain ⟨text₁, text₂, rfl, hbefore, hafter⟩ := ih rfl
      exact ⟨d :: text₁, text₂, rfl, .char plain hbefore, hafter⟩
  | @literal index literal part text held rest ih =>
    -- the placeholder is on one side of the character
    have hc := notMem_placeholder htilde hdigit index
    rcases List.append_eq_append_iff.1 hall with ⟨as, hph, has⟩ | ⟨cs, rfl, hpart⟩
    · cases as with
      | nil =>
        obtain ⟨text₁, text₂, rfl, hbefore, hafter⟩ := @ih [] has
        have hheld := StandsFor.literal held hbefore
        rw [hph, List.append_nil, List.append_nil] at hheld
        exact ⟨literal ++ text₁, text₂, by simp, hheld, hafter⟩
      | cons a as =>
        cases has
        exact absurd (hph ▸ List.mem_append_right before List.mem_cons_self) hc
    · obtain ⟨text₁, text₂, rfl, hbefore, hafter⟩ := ih hpart.symm
      exact ⟨literal ++ text₁, text₂, by simp, .literal held hbefore, hafter⟩

/-- Every character of a masked text is one of the text or one of a placeholder. -/
theorem notMem_part {c : Char} (htilde : c ≠ '~') (hdigit : isAsciiDigit c = false)
    (h : StandsFor holds part text) (hc : c ∉ text) : c ∉ part := by
  induction h with
  | nil => exact hc
  | char plain _ ih =>
    rw [List.mem_cons, not_or] at hc ⊢
    exact ⟨hc.1, ih hc.2⟩
  | literal held _ ih =>
    rw [List.mem_append, not_or] at hc ⊢
    exact ⟨notMem_placeholder htilde hdigit _, ih hc.2⟩

/-- Masking makes no comment end. -/
theorem infix_commentEnd (h : StandsFor holds part text) (hend : ['*', '/'] <:+: part) :
    ['*', '/'] <:+: text := by
  induction h with
  | nil => exact hend
  | @char c part text plain rest ih =>
    rcases List.infix_cons_iff.1 hend with hend | hend
    · obtain ⟨rfl, hslash⟩ := List.cons_prefix_cons.1 hend
      obtain ⟨tail, rfl⟩ := hslash
      obtain ⟨text', rfl, -⟩ := rest.of_cons (by decide)
      exact ⟨[], text', rfl⟩
    · exact (ih hend).trans (List.suffix_cons c text).isInfix
  | @literal index literal part text held rest ih =>
    have hstar : '*' ∉ placeholder index := notMem_placeholder (by decide) (by decide) index
    exact (ih (infix_of_notMem hstar hend)).trans (List.suffix_append literal text).isInfix

section Literals

variable (hholds : ∀ index literal, holds index literal → IsLiteral literal)

include hholds

private theorem oneLine (h : StandsFor holds part text) (hline : '\n' ∉ part) : '\n' ∉ text := by
  induction h with
  | nil => exact hline
  | char plain _ ih =>
    rw [List.mem_cons, not_or] at hline ⊢
    exact ⟨hline.1, ih hline.2⟩
  | literal held _ ih =>
    rw [List.mem_append, not_or] at hline ⊢
    exact ⟨(hholds _ _ held).oneLine, ih hline.2⟩

/-- A text with a single delimiter holds no literal, and stands for itself. -/
theorem eq_of_countP_le_one (h : StandsFor holds part text)
    (hcount : text.countP isDelimiter ≤ 1) : part = text := by
  induction h with
  | nil => rfl
  | char plain _ ih =>
    rw [List.countP_cons] at hcount
    rw [ih (by omega)]
  | literal held _ ih =>
    obtain ⟨first, inner, last, heq, hfirst, hlast⟩ := (hholds _ _ held).delimited
    simp [heq, hfirst, hlast] at hcount

/-- A line end in the text is one in the masked text. -/
theorem split_line {line rest : List Char} (h : StandsFor holds part (line ++ '\n' :: rest)) :
    ∃ part₁ part₂, part = part₁ ++ '\n' :: part₂ ∧ StandsFor holds part₁ line ∧
      StandsFor holds part₂ rest := by
  generalize hall : line ++ '\n' :: rest = text at h
  induction h generalizing line with
  | nil => simp at hall
  | @char c part text plain hrest ih =>
    cases line with
    | nil =>
      cases hall
      exact ⟨[], part, rfl, .nil, hrest⟩
    | cons d line =>
      cases hall
      obtain ⟨part₁, part₂, rfl, hline, hrest⟩ := ih rfl
      exact ⟨c :: part₁, part₂, rfl, .char plain hline, hrest⟩
  | @literal index literal part text held hrest ih =>
    -- the literal stands on one line, and so before the line end
    rcases List.append_eq_append_iff.1 hall with ⟨after, rfl, htext⟩ | ⟨after, rfl, htext⟩
    · cases after with
      | nil =>
        obtain ⟨part₁, part₂, rfl, hline, hrest⟩ := @ih [] htext
        have hheld := StandsFor.literal held hline
        rw [List.append_nil, List.append_nil] at hheld
        exact ⟨placeholder index ++ part₁, part₂, by simp, hheld, hrest⟩
      | cons c after =>
        cases htext
        exact absurd (List.mem_append_right line List.mem_cons_self) (hholds _ _ held).oneLine
    · obtain ⟨part₁, part₂, rfl, hline, hrest⟩ := ih htext.symm
      exact ⟨placeholder index ++ part₁, part₂, by simp, .literal held hline, hrest⟩

/-- What stands for a literal is one. -/
theorem isLiteral (h : StandsFor holds part text) (hpart : IsLiteral part) : IsLiteral text := by
  obtain ⟨⟨first, inner, last, rfl, hfirst, hlast⟩, hline⟩ := hpart
  have hfirst' := plain_of_isDelimiter hfirst
  have hlast' := plain_of_isDelimiter hlast
  have hcut := h
  obtain ⟨before, after, rfl, hbefore, hafter⟩ := h.split hlast'.1 hlast'.2
  obtain ⟨inner', rfl, -⟩ := hbefore.of_cons hfirst'.1
  cases hafter
  exact ⟨⟨first, inner', last, rfl, hfirst, hlast⟩, hcut.oneLine hholds hline⟩

private theorem eq_nil_iff (h : StandsFor holds part text) : part = [] ↔ text = [] := by
  cases h with
  | nil => exact Iff.rfl
  | char => simp
  | literal held rest =>
    obtain ⟨first, inner, last, hlit, -⟩ := (hholds _ _ held).delimited
    simp [placeholder, hlit]

/-- **Decoration is dropped from a masked text as from the text it stands for.** -/
theorem undecorate (h : StandsFor holds part text) (lineStart : Bool) :
    StandsFor holds (Comment.undecorate lineStart part) (Comment.undecorate lineStart text) := by
  induction h generalizing lineStart with
  | nil => exact .nil
  | char plain _ ih =>
    rw [Comment.undecorate, Comment.undecorate]
    split
    · exact ih true
    · exact .char plain (ih _)
  | @literal index literal part text held _ ih =>
    have hlit := hholds _ _ held
    obtain ⟨first, inner, last, heq, hfirst, -⟩ := hlit.delimited
    have hplain : isDecoration first = false := not_decoration_of_isDelimiter hfirst
    have hline : '\n' ∉ placeholder index := notMem_placeholder (by decide) (by decide) index
    have hpart : Comment.undecorate lineStart (placeholder index ++ part) =
        placeholder index ++ Comment.undecorate false part :=
      undecorate_token (c := '~') rfl (by decide) hline lineStart part
    rw [hpart, undecorate_token heq hplain hlit.oneLine]
    exact .literal held (ih false)

private theorem dropBlanks (h : StandsFor holds part text) :
    StandsFor holds (Text.dropBlanks part) (Text.dropBlanks text) := by
  induction h with
  | nil => exact .nil
  | char plain rest ih =>
    rw [dropBlanks_cons, dropBlanks_cons]
    split
    · exact ih
    · exact .char plain rest
  | @literal index literal part text held rest ih =>
    obtain ⟨first, inner, last, heq, hfirst, -⟩ := (hholds _ _ held).delimited
    have hpart : Text.dropBlanks (placeholder index ++ part) = placeholder index ++ part :=
      dropBlanks_cons '~' _
    have htext : Text.dropBlanks (literal ++ text) = literal ++ text := by
      rw [heq]
      exact (dropBlanks_cons first _).trans (if_neg (by simp [not_blank_of_isDelimiter hfirst]))
    rw [hpart, htext]
    exact .literal held rest

private theorem dropEndBlanks (h : StandsFor holds part text) :
    StandsFor holds (part.rdropWhile isBlank) (text.rdropWhile isBlank) := by
  induction h with
  | nil => exact .nil
  | @char c part text plain rest ih =>
    simp only [rdropWhile_cons, ih.eq_nil_iff hholds]
    split
    · exact .nil
    · exact .char plain ih
  | @literal index literal part text held rest ih =>
    obtain ⟨first, inner, last, heq, -, hlast⟩ := (hholds _ _ held).delimited
    have hconcat : placeholder index =
        (['~', '~', '~'] ++ decimal index ++ ['~', '~']) ++ ['~'] := by
      simp [placeholder]
    rw [rdropWhile_token hconcat (by decide), rdropWhile_token heq (not_blank_of_isDelimiter hlast)]
    exact .literal held ih

/-- **A masked text is trimmed like the text it stands for.** -/
theorem strip (h : StandsFor holds part text) :
    StandsFor holds (Text.strip part) (Text.strip text) :=
  (h.dropBlanks hholds).dropEndBlanks hholds

end Literals

end StandsFor

/-! ### Taking literals out -/

section Mask

variable {literal : List Char → Option Nat} (hfinds : FindsLiterals literal)
  {holds holds' : Nat → List Char → Prop} {literals : List (List Char)}

include hfinds

omit hfinds in
theorem cons_prefix_drop {lit : List Char} {rest : List (List Char)} {index : Nat}
    (h : lit :: rest <+: literals.drop index) :
    literals[index]? = some lit ∧ rest <+: literals.drop (index + 1) := by
  obtain ⟨more, hmore⟩ := h
  have hget : literals[index]? = some lit := by
    rw [← List.head?_drop, ← hmore]
    rfl
  refine ⟨hget, more, ?_⟩
  rw [← List.tail_drop, ← hmore]
  rfl

/-- No literal begins within a placeholder. -/
theorem FindsLiterals.eq_none_of_mem_placeholder {index : Nat} {c : Char}
    (hc : c ∈ placeholder index) (cs : List Char) : literal (c :: cs) = none := by
  cases hfound : literal (c :: cs) with
  | none => rfl
  | some n =>
    obtain ⟨first, inner, last, heq, hfirst, -⟩ := (hfinds c cs n hfound).delimited
    obtain rfl : c = first := (List.cons.inj heq).1
    obtain ⟨htilde, hdigit⟩ := plain_of_isDelimiter hfirst
    exact absurd hc (notMem_placeholder htilde hdigit index)

/-- A literal in a masked text is one in the text that it stands for. -/
private theorem StandsFor.cut (hholds : ∀ index lit, holds index lit → IsLiteral lit) {c : Char}
    {part text : List Char} {n : Nat} (h : StandsFor holds (c :: part) text)
    (hfound : literal (c :: part) = some n) :
    ∃ lit rest, text = lit ++ rest ∧ StandsFor holds (c :: part.take n) lit ∧ IsLiteral lit ∧
      StandsFor holds (part.drop n) rest := by
  obtain ⟨⟨first, inner, last, heq, hfirst, hlast⟩, -⟩ := hfinds c part n hfound
  have hfirst' := plain_of_isDelimiter hfirst
  have hlast' := plain_of_isDelimiter hlast
  have hsplit : c :: part = (first :: inner) ++ last :: part.drop n := by
    rw [← List.take_append_drop n part, ← List.cons_append, heq]
    simp
  rw [hsplit] at h
  obtain ⟨before, rest, rfl, hbefore, hrest⟩ := h.split hlast'.1 hlast'.2
  obtain ⟨inner', rfl, hinner⟩ := hbefore.of_cons hfirst'.1
  have hlit : StandsFor holds (first :: inner ++ [last]) (first :: inner' ++ [last]) :=
    (StandsFor.char hfirst'.1 hinner).append (.char hlast'.1 .nil)
  rw [← heq] at hlit
  exact ⟨first :: inner' ++ [last], rest, by simp, hlit,
    hlit.isLiteral hholds (hfinds c part n hfound), hrest⟩

/-- **A pass that takes out literals keeps what a text stands for**, if the table of literals holds
those that are taken out. -/
theorem StandsFor.maskFrom (hholds : ∀ index lit, holds index lit → IsLiteral lit)
    (hkeep : ∀ index lit, holds index lit → holds' index lit)
    (hnew : ∀ index lit text, literals[index]? = some lit → StandsFor holds lit text →
      IsLiteral text → holds' index text)
    {part text : List Char} (h : StandsFor holds part text) {index : Nat}
    (htable : (maskFrom literal index part).literals <+: literals.drop index) :
    StandsFor holds' (maskFrom literal index part).text text := by
  induction hn : part.length using Nat.strong_induction_on generalizing part text index with
  | _ n ih =>
    subst hn
    cases part with
    | nil =>
      obtain rfl := (h.eq_nil_iff hholds).1 rfl
      rw [Comment.maskFrom]
      exact .nil
    | cons c part =>
      cases hfound : literal (c :: part) with
      | some k =>
        obtain ⟨lit, rest, rfl, hlit, hisLit, hrest⟩ := h.cut hfinds hholds hfound
        rw [maskFrom_literal hfound] at htable ⊢
        obtain ⟨hfirst, htable⟩ := cons_prefix_drop htable
        refine .literal (hnew index _ lit hfirst hlit hisLit) (ih _ ?_ hrest htable rfl)
        simp only [List.length_drop, List.length_cons]
        omega
      | none =>
        generalize hall : c :: part = whole at *
        cases h with
        | nil => cases hall
        | @char d rest text plain hrest =>
          cases hall
          rw [maskFrom_cons hfound] at htable ⊢
          exact .char plain (ih _ (by simp) hrest htable rfl)
        | @literal i lit rest text held hrest =>
          -- no literal begins in a placeholder, so that it stays whole
          have hplain : ∀ d ∈ placeholder i, ∀ ds, literal (d :: ds) = none :=
            fun d hd ds => hfinds.eq_none_of_mem_placeholder hd ds
          rw [maskFrom_append hplain] at htable ⊢
          refine .literal (hkeep i lit held) (ih _ ?_ hrest htable rfl)
          simp [placeholder]
          omega

end Mask

/-! ### Putting literals back -/

/-- What the placeholders of a text with all its literals taken out hold: a literal that one round
of restoring completes. -/
def Holds (literals : List (List Char)) (index : Nat) (text : List Char) : Prop :=
  (∃ lit, literals[index]? = some lit ∧ RestoresTo literals lit text) ∧ IsLiteral text

/-- One round restores a text whose placeholders hold the literals of the table. -/
theorem StandsFor.restoresTo {holds : Nat → List Char → Prop} {literals : List (List Char)}
    (hholds : ∀ index lit, holds index lit → literals[index]? = some lit)
    {part text : List Char} (h : StandsFor holds part text) : RestoresTo literals part text := by
  induction h with
  | nil => exact .nil
  | @char c part text plain _ ih =>
    have hc : RestoresTo literals [c] [c] := .of_notMem (by simp [plain.symm])
    exact hc.append ih
  | literal held _ ih => exact (RestoresTo.placeholder (hholds _ _ held)).append ih

/-- **Two rounds restore what a masked text stands for.** -/
theorem StandsFor.restore {m : Masked} {part text : List Char}
    (h : StandsFor (Holds m.literals) part text) : m.restore part = text := by
  have hrounds : ∃ between, RestoresTo m.literals part between ∧
      RestoresTo m.literals between text := by
    induction h with
    | nil => exact ⟨[], .nil, .nil⟩
    | @char c part text plain _ ih =>
      obtain ⟨between, hfirst, hsecond⟩ := ih
      have hc : RestoresTo m.literals [c] [c] := .of_notMem (by simp [plain.symm])
      exact ⟨c :: between, hc.append hfirst, hc.append hsecond⟩
    | @literal index text part _ held _ ih =>
      obtain ⟨between, hfirst, hsecond⟩ := ih
      obtain ⟨⟨lit, hlit, hrestores⟩, -⟩ := held
      exact ⟨lit ++ between, (RestoresTo.placeholder hlit).append hfirst,
        hrestores.append hsecond⟩
  obtain ⟨between, hfirst, hsecond⟩ := hrounds
  rw [Masked.restore, hfirst.restoreOnce_eq, hsecond.restoreOnce_eq]

/-- **A masked source stands for the source.** -/
theorem standsFor_mask {source : List Char} (h : '~' ∉ source) :
    StandsFor (Holds (mask source).literals) (mask source).text source := by
  obtain ⟨patterns, hpatterns⟩ : ∃ m, m = maskFrom patternLiteral 0 source := ⟨_, rfl⟩
  obtain ⟨strings, hstrings⟩ : ∃ m, m = maskFrom stringLiteral patterns.literals.length
      patterns.text := ⟨_, rfl⟩
  obtain ⟨literals, hliterals⟩ : ∃ l, l = patterns.literals ++ strings.literals := ⟨_, rfl⟩
  have hmask : mask source = ⟨strings.text, literals⟩ := by
    rw [hliterals, hstrings, hpatterns]
    rfl
  -- a pattern literal is the text itself
  have hfirst : StandsFor (fun index text => literals[index]? = some text ∧ '~' ∉ text ∧
      IsLiteral text) patterns.text source := by
    have hsource : StandsFor (fun _ _ => False) source source := .of_notMem h
    have htable : (maskFrom patternLiteral 0 source).literals <+: literals.drop 0 := by
      rw [List.drop_zero, hliterals, ← hpatterns]
      exact List.prefix_append _ _
    rw [hpatterns]
    refine hsource.maskFrom findsLiterals_pattern (fun _ _ => False.elim) (fun _ _ => False.elim)
      (fun index lit text hget hlit hisLit => ?_) htable
    obtain ⟨rfl, hplain⟩ := hlit.eq_of_forall_not fun _ _ => id
    exact ⟨hget, hplain, hisLit⟩
  -- a string literal may hold placeholders of pattern literals
  have hrest : literals.drop patterns.literals.length =
      (maskFrom stringLiteral patterns.literals.length patterns.text).literals := by
    rw [← hstrings, hliterals, List.drop_left]
  have htable : (maskFrom stringLiteral patterns.literals.length patterns.text).literals <+:
      literals.drop patterns.literals.length := hrest ▸ List.prefix_rfl
  rw [hmask]
  dsimp only
  rw [hstrings]
  refine hfirst.maskFrom findsLiterals_string (fun _ _ held => held.2.2)
    (fun index lit held => ⟨⟨lit, held.1, .of_notMem held.2.1⟩, held.2.2⟩)
    (fun index lit text hget hlit hisLit => ⟨⟨lit, hget, ?_⟩, hisLit⟩) htable
  exact hlit.restoresTo fun _ _ held => held.1

end ApiDocs.Comment
