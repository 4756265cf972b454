import Mathlib.Data.List.TakeWhile
import ApiDocs.Comment.Basic
import ApiDocs.Proofs.Text.Decimal

/-!
# What the passes over a source text do to plain text

Finding comments takes four passes: literals are masked, comments are looked for, the decoration
of their lines is dropped, and the literals are put back. Each pass is described here by what it
does to a stretch of text that holds none of the characters it looks for, with anything behind it.
**Masking and restoring leave such a stretch alone** (`maskFrom_append`, `restoreOnce_append`), and
**the search for comments only counts its double quotes** (`rawComments_append`): code without a
slash is passed over, and an odd number of quotes in it leaves the search inside a quoted text.
-/

namespace ApiDocs.Comment

open Text

/-! ### Masking -/

theorem maskFrom_cons {literal : List Char → Option Nat} {index : Nat} {c : Char}
    {cs : List Char} (h : literal (c :: cs) = none) :
    maskFrom literal index (c :: cs) =
      ⟨c :: (maskFrom literal index cs).text, (maskFrom literal index cs).literals⟩ := by
  rw [maskFrom, h]

theorem maskFrom_literal {literal : List Char → Option Nat} {index n : Nat} {c : Char}
    {cs : List Char} (h : literal (c :: cs) = some n) :
    maskFrom literal index (c :: cs) =
      ⟨placeholder index ++ (maskFrom literal (index + 1) (cs.drop n)).text,
        (c :: cs.take n) :: (maskFrom literal (index + 1) (cs.drop n)).literals⟩ := by
  rw [maskFrom, h]

/-- A stretch of text in which no literal can begin stays as it is. -/
theorem maskFrom_append {literal : List Char → Option Nat} {plain : List Char}
    (h : ∀ c ∈ plain, ∀ cs, literal (c :: cs) = none) (index : Nat) (cs : List Char) :
    maskFrom literal index (plain ++ cs) =
      ⟨plain ++ (maskFrom literal index cs).text, (maskFrom literal index cs).literals⟩ := by
  induction plain with
  | nil => rfl
  | cons c plain ih =>
    rw [List.cons_append, maskFrom_cons (h c List.mem_cons_self _),
      ih fun c' hc' => h c' (List.mem_cons_of_mem c hc')]
    rfl

theorem patternLiteral_of_ne {c : Char} (h : c ≠ '/') (cs : List Char) :
    patternLiteral (c :: cs) = none := by
  rw [patternLiteral]
  rintro c' rest ⟨⟩
  exact h rfl

theorem stringLiteral_of_ne {c : Char} (h : c ≠ '\'') (h' : c ≠ '"') (cs : List Char) :
    stringLiteral (c :: cs) = none := by
  simp [stringLiteral, h, h']

/-- A placeholder is made of tildes and digits. -/
theorem notMem_placeholder {c : Char} (htilde : c ≠ '~') (hdigit : isAsciiDigit c = false)
    (index : Nat) : c ∉ placeholder index := by
  have hdecimal : c ∉ decimal index := by
    intro hmem
    rw [(digits_of_mem_decimal hmem).2] at hdigit
    cases hdigit
  simp [placeholder, htilde, hdecimal]

/-- A text is masked from its second character on if no literal begins at the first. -/
theorem mask_cons {c : Char} {cs : List Char} (h : patternLiteral (c :: cs) = none)
    (hsingle : c ≠ '\'') (hdouble : c ≠ '"') :
    mask (c :: cs) = ⟨c :: (mask cs).text, (mask cs).literals⟩ := by
  simp only [mask, maskFrom_cons h, maskFrom_cons (stringLiteral_of_ne hsingle hdouble _)]

/-- A stretch of text without slashes and quotes is not masked. -/
theorem mask_append {plain : List Char} (h : ∀ c ∈ plain, c ∉ ['/', '\'', '"'])
    (cs : List Char) : mask (plain ++ cs) = ⟨plain ++ (mask cs).text, (mask cs).literals⟩ := by
  induction plain with
  | nil => rfl
  | cons c plain ih =>
    have hc := h c List.mem_cons_self
    simp only [List.mem_cons, List.not_mem_nil, or_false, not_or] at hc
    rw [List.cons_append, mask_cons (patternLiteral_of_ne hc.1 _) hc.2.1 hc.2.2,
      ih fun d hd => h d (List.mem_cons_of_mem c hd)]
    rfl

/-- A pattern literal at the start of a text is its first literal. -/
theorem mask_of_patternLiteral {c : Char} {cs : List Char} {n : Nat}
    (h : patternLiteral (c :: cs) = some n) :
    ∃ text literals, mask (c :: cs) = ⟨placeholder 0 ++ text, (c :: cs.take n) :: literals⟩ := by
  have hplain : ∀ d ∈ placeholder 0, ∀ ds, stringLiteral (d :: ds) = none := by
    intro d hd ds
    refine stringLiteral_of_ne ?_ ?_ ds
    · rintro rfl
      exact notMem_placeholder (by decide) (by decide) 0 hd
    · rintro rfl
      exact notMem_placeholder (by decide) (by decide) 0 hd
  simp only [mask, maskFrom_literal h, maskFrom_append hplain]
  exact ⟨_, _, rfl⟩

/-! ### The code after a comment -/

/-- The text behind the code at its start. -/
def behindCode (cs : List Char) : List Char := cs.drop (codeAfter cs).length

theorem codeAfter_append_behindCode (cs : List Char) : codeAfter cs ++ behindCode cs = cs := by
  have hpre : codeAfter cs <+: cs := by
    have hcode := (List.prefix_append_right_inj (cs.takeWhile isBlank)).2
      (List.takeWhile_prefix (l := cs.dropWhile isBlank) fun c => c ≠ '/' ∧ c ≠ '\n')
    rwa [List.takeWhile_append_dropWhile] at hcode
  exact List.prefix_iff_eq_append.1 hpre

theorem slash_notMem_codeAfter (cs : List Char) : '/' ∉ codeAfter cs := by
  rw [codeAfter, List.mem_append, not_or]
  constructor
  · intro hmem
    exact absurd (List.mem_takeWhile_imp hmem) (by decide)
  · intro hmem
    simpa using List.mem_takeWhile_imp hmem

/-! ### Searching -/

/-- The text after the next double quote; all of the text if there is none. -/
def leaveQuote (cs : List Char) : List Char :=
  match cs.findIdx? (· = '"') with
  | some n => cs.drop (n + 1)
  | none => cs

theorem rawComments_quote (cs : List Char) :
    rawComments ('"' :: cs) = rawComments (leaveQuote cs) := by
  rw [rawComments, leaveQuote]
  cases cs.findIdx? (· = '"') <;> rfl

theorem rawComments_skip {c : Char} (hslash : c ≠ '/') (hquote : c ≠ '"') (cs : List Char) :
    rawComments (c :: cs) = rawComments cs := by
  rw [rawComments]
  · intro rest hc
    exact absurd hc hslash
  · intro hc
    exact absurd hc hquote

/-- A slash that opens no documentation comment is passed over. -/
theorem rawComments_slash {cs : List Char} (h : ¬['*', '*'] <+: cs) :
    rawComments ('/' :: cs) = rawComments cs := by
  rw [rawComments]
  · intro rest _ hcs
    exact h ⟨rest, hcs.symm⟩
  · intro hc
    cases hc

private theorem leaveQuote_quote (cs : List Char) : leaveQuote ('"' :: cs) = cs := by
  simp [leaveQuote, List.findIdx?_cons]

theorem leaveQuote_append {before : List Char} (h : '"' ∉ before) (after : List Char) :
    leaveQuote (before ++ '"' :: after) = after := by
  have hnone : before.findIdx? (· = '"') = none := by
    rw [List.findIdx?_eq_none_iff]
    intro c hc
    rw [decide_eq_false_iff_not]
    rintro rfl
    exact h hc
  rw [leaveQuote, List.findIdx?_append, hnone]
  simp [List.findIdx?_cons]

theorem leaveQuote_of_notMem {cs : List Char} (h : '"' ∉ cs) : leaveQuote cs = cs := by
  have hnone : cs.findIdx? (· = '"') = none := by
    rw [List.findIdx?_eq_none_iff]
    intro c hc
    rw [decide_eq_false_iff_not]
    rintro rfl
    exact h hc
  rw [leaveQuote, hnone]

theorem length_leaveQuote_le (cs : List Char) : (leaveQuote cs).length ≤ cs.length := by
  rw [leaveQuote]
  split
  · simp
  · exact le_rfl

/-- What stands before the quote that ends a quoted text does not matter. -/
private theorem rawComments_leaveQuote_skip {c : Char} (hslash : c ≠ '/') (hquote : c ≠ '"')
    (cs : List Char) : rawComments (leaveQuote (c :: cs)) = rawComments (leaveQuote cs) := by
  have hc : decide (c = '"') = false := by simpa using hquote
  rw [leaveQuote, leaveQuote, List.findIdx?_cons, hc]
  cases cs.findIdx? (· = '"') with
  | none => exact rawComments_skip hslash hquote cs
  | some n => rfl

/-- **Code without a slash is passed over.** The search goes on behind it, or at the end of the
quoted text that its last quote opens. -/
theorem rawComments_append {code : List Char} (h : '/' ∉ code) (cs : List Char) :
    rawComments (code ++ cs) =
        rawComments (if code.count '"' % 2 = 0 then cs else leaveQuote cs) ∧
      rawComments (leaveQuote (code ++ cs)) =
        rawComments (if code.count '"' % 2 = 0 then leaveQuote cs else cs) := by
  -- both phases of the search at once: each quote exchanges them
  induction code with
  | nil => exact ⟨rfl, rfl⟩
  | cons c code ih =>
    obtain ⟨outside, inside⟩ := ih fun hmem => h (List.mem_cons_of_mem c hmem)
    have hslash : c ≠ '/' := fun hc => h (hc ▸ List.mem_cons_self)
    rw [List.cons_append]
    by_cases hquote : c = '"'
    · subst hquote
      rw [rawComments_quote, leaveQuote_quote, outside, inside, List.count_cons_self]
      by_cases heven : code.count '"' % 2 = 0
      · have hodd : ¬(code.count '"' + 1) % 2 = 0 := by omega
        rw [if_pos heven, if_pos heven, if_neg hodd, if_neg hodd]
        exact ⟨rfl, rfl⟩
      · have hnext : (code.count '"' + 1) % 2 = 0 := by omega
        rw [if_neg heven, if_neg heven, if_pos hnext, if_pos hnext]
        exact ⟨rfl, rfl⟩
    · rw [rawComments_skip hslash hquote, rawComments_leaveQuote_skip hslash hquote,
        List.count_cons_of_ne hquote]
      exact ⟨outside, inside⟩

/-- A placeholder is passed over. -/
theorem rawComments_placeholder (index : Nat) (cs : List Char) :
    rawComments (placeholder index ++ cs) = rawComments cs := by
  have hslash : '/' ∉ placeholder index := notMem_placeholder (by decide) (by decide) index
  have hquote : '"' ∉ placeholder index := notMem_placeholder (by decide) (by decide) index
  rw [(rawComments_append hslash cs).1, List.count_eq_zero.2 hquote]
  rfl

/-- A line without quotes and opening marks is passed over. -/
theorem rawComments_plainLine {line : List Char} (hquote : '"' ∉ line)
    (hmark : ¬['/', '*'] <:+: line) (cs : List Char) :
    rawComments (line ++ '\n' :: cs) = rawComments cs := by
  induction line with
  | nil => exact rawComments_skip (by decide) (by decide) cs
  | cons c line ih =>
    have hrest : rawComments (line ++ '\n' :: cs) = rawComments cs :=
      ih (fun hmem => hquote (List.mem_cons_of_mem c hmem))
        fun hin => hmark (hin.trans (List.suffix_cons c line).isInfix)
    have hc : c ≠ '"' := fun hc => hquote (hc ▸ List.mem_cons_self)
    by_cases hslash : c = '/'
    · subst hslash
      have hopen : ¬['*', '*'] <+: line ++ '\n' :: cs := by
        intro hpre
        cases line with
        | nil => exact absurd (List.cons_prefix_cons.1 hpre).1 (by decide)
        | cons d line =>
          obtain rfl := (List.cons_prefix_cons.1 hpre).1
          exact hmark ⟨[], line, rfl⟩
      rw [List.cons_append, rawComments_slash hopen, hrest]
    · rw [List.cons_append, rawComments_skip hslash hc, hrest]

/-- A comment goes on over text without a slash, unless the text ends with a star and a slash
follows. -/
theorem bodyLength_append {plain : List Char} (h : '/' ∉ plain) {cs : List Char}
    (hend : plain.getLast? = some '*' → cs.head? ≠ some '/') :
    bodyLength (plain ++ cs) = (bodyLength cs).map (· + plain.length) := by
  induction plain with
  | nil => simp
  | cons c plain ih =>
    have hplain : '/' ∉ plain := fun hmem => h (List.mem_cons_of_mem c hmem)
    -- a comment end can only arise where the two texts meet
    have hgo : ¬(c = '*' ∧ (plain ++ cs).head? = some '/') := by
      rintro ⟨rfl, hnext⟩
      cases plain with
      | nil => exact hend rfl hnext
      | cons d plain =>
        rw [List.cons_append, List.head?_cons, Option.some.injEq] at hnext
        exact hplain (hnext ▸ List.mem_cons_self)
    have hend' : plain.getLast? = some '*' → cs.head? ≠ some '/' := by
      intro hlast
      refine hend ?_
      rw [List.getLast?_cons, hlast]
      rfl
    rw [List.cons_append, bodyLength, if_neg hgo, ih hplain hend', Option.map_map,
      List.length_cons]
    congr 1

theorem rawComments_comment {cs : List Char} {n : Nat} (h : bodyLength cs = some n) :
    rawComments ('/' :: '*' :: '*' :: cs) =
      (cs.take n, codeAfter (cs.drop (n + 2))) :: rawComments (behindCode (cs.drop (n + 2))) := by
  rw [rawComments, h]
  rfl

theorem rawComments_unclosed {cs : List Char} (h : bodyLength cs = none) :
    rawComments ('/' :: '*' :: '*' :: cs) = [] := by
  rw [rawComments, h]

/-- A comment that begins with text without a slash is not read, or is read with all of it. -/
theorem rawComments_begin {plain : List Char} (h : '/' ∉ plain)
    (hend : plain.getLast? ≠ some '*') (cs : List Char) :
    rawComments ('/' :: '*' :: '*' :: (plain ++ cs)) = [] ∨ ∃ body code rest,
      rawComments ('/' :: '*' :: '*' :: (plain ++ cs)) = (plain ++ body, code) :: rest := by
  have hlength : bodyLength (plain ++ cs) = (bodyLength cs).map (· + plain.length) :=
    bodyLength_append h fun hlast => absurd hlast hend
  cases hcs : bodyLength cs with
  | none =>
    rw [hcs, Option.map_none] at hlength
    exact .inl (rawComments_unclosed hlength)
  | some n =>
    rw [hcs, Option.map_some, Nat.add_comm] at hlength
    rw [rawComments_comment hlength, List.take_length_add_append]
    exact .inr ⟨cs.take n, _, _, rfl⟩

/-! ### Decoration -/

/-- The rest of a line is not looked at. -/
theorem undecorate_append {plain : List Char} (h : '\n' ∉ plain) (cs : List Char) :
    undecorate false (plain ++ cs) = plain ++ undecorate false cs := by
  induction plain with
  | nil => rfl
  | cons c plain ih =>
    have hc : (c == '\n') = false := by
      rw [beq_eq_false_iff_ne]
      rintro rfl
      exact h List.mem_cons_self
    rw [List.cons_append, undecorate, hc, ih fun hmem => h (List.mem_cons_of_mem c hmem)]
    rfl

theorem undecorate_true {c : Char} (h : isDecoration c = false) (cs : List Char) :
    undecorate true (c :: cs) = undecorate false (c :: cs) := by
  simp [undecorate, h]

theorem undecorate_newline (cs : List Char) :
    undecorate false ('\n' :: cs) = '\n' :: undecorate true cs := rfl

theorem undecorate_placeholder (index : Nat) (cs : List Char) :
    undecorate true (placeholder index ++ cs) = placeholder index ++ undecorate false cs := by
  have hline : '\n' ∉ placeholder index := notMem_placeholder (by decide) (by decide) index
  rw [← undecorate_append hline]
  exact undecorate_true (by decide) _

/-- A character that is not blank is not trimmed away. -/
theorem strip_cons_ne_nil {c : Char} (h : isBlank c = false) (cs : List Char) :
    strip (c :: cs) ≠ [] := by
  rw [strip, dropBlanks_cons, if_neg (by simp [h]), Ne, List.reverse_eq_nil_iff, dropBlanks,
    List.dropWhile_eq_nil_iff]
  intro hall
  have hc := hall c (List.mem_reverse.2 List.mem_cons_self)
  rw [h] at hc
  cases hc

/-! ### Restoring -/

private theorem placeholderDigits_of_ne {c : Char} (h : c ≠ '~') (cs : List Char) :
    placeholderDigits (c :: cs) = none := by
  rw [placeholderDigits]
  rintro rest ⟨⟩
  exact h rfl

/-- Text without a tilde stays as it is. -/
theorem restoreOnce_append {plain : List Char} (h : '~' ∉ plain) (literals : List (List Char))
    (cs : List Char) :
    restoreOnce literals (plain ++ cs) = plain ++ restoreOnce literals cs := by
  induction plain with
  | nil => rfl
  | cons c plain ih =>
    have hc : c ≠ '~' := fun hc => h (hc ▸ List.mem_cons_self)
    rw [List.cons_append, restoreOnce, placeholderDigits_of_ne hc,
      ih fun hmem => h (List.mem_cons_of_mem c hmem)]
    rfl

private theorem placeholderDigits_placeholder (index : Nat) (cs : List Char) :
    placeholderDigits (placeholder index ++ cs) = some (decimal index) := by
  have hne : (decimal index).isEmpty = false := by
    rw [decimal]
    split <;> simp
  have hdigits : (decimal index ++ ('~' :: '~' :: '~' :: cs)).takeWhile isDigit =
      decimal index := by
    rw [List.takeWhile_append_of_pos fun c hc => (digits_of_mem_decimal hc).1,
      List.takeWhile_cons_of_neg (by decide), List.append_nil]
  have happ : placeholder index ++ cs =
      '~' :: '~' :: '~' :: (decimal index ++ ('~' :: '~' :: '~' :: cs)) := by
    simp [placeholder]
  rw [happ, placeholderDigits]
  simp only [hdigits, hne, List.drop_left]
  rfl

/-- A placeholder gives way to the literal it numbers, and stays if there is none. -/
theorem restoreOnce_placeholder (literals : List (List Char)) (index : Nat) (cs : List Char) :
    restoreOnce literals (placeholder index ++ cs) =
      literals[index]?.getD (placeholder index) ++ restoreOnce literals cs := by
  have hascii : (decimal index).all isAsciiDigit = true :=
    List.all_eq_true.2 fun c hc => (digits_of_mem_decimal hc).2
  have hrest : (['~', '~'] ++ decimal index ++ ['~', '~', '~'] ++ cs).drop
      ((decimal index).length + 5) = cs := by
    rw [List.drop_left' (by simp)]
  have happ : placeholder index ++ cs =
      '~' :: (['~', '~'] ++ decimal index ++ ['~', '~', '~'] ++ cs) := rfl
  have hdigits := placeholderDigits_placeholder index cs
  rw [happ] at hdigits ⊢
  rw [restoreOnce, hdigits]
  simp only [hrest, literalAt, hascii, if_true, ofDecimal_decimal]
  rfl

end ApiDocs.Comment
