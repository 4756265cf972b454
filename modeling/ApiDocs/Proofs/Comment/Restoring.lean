import ApiDocs.Proofs.Comment.Tokens

/-!
# Restoring a masked source

A source may have tildes of its own, next to a literal and inside it, so that a placeholder can
stand in the middle of a run of tildes. Restoring looks for placeholders from left to right, and it
finds the ones that masking put there, and only these, if no place of the source begins like a
placeholder, with three tildes and a digit (`opens 3`).

`Shows` compares a masked text with what one round of restoring makes of it: a placeholder shows
its literal, and any other character shows itself, provided that the text from there on does not
begin like a placeholder. Masking cannot make a text begin so (`opens_maskFrom`), since a
placeholder itself begins with the three tildes, and a literal ends with a delimiter, across which
no placeholder reaches (`opens_append_delimiter`). So the pass that takes out the string literals
leaves a text that shows the source but for the pattern literals inside strings, and that text
shows the source (`Shows.maskFrom`): **two rounds of restoring give back a source without such
places** (`restore_mask`).
-/

namespace ApiDocs.Comment

open Text

/-! ### Where a placeholder may begin -/

/-- Whether a text begins with a number of tildes and a digit. -/
def opens : Nat → List Char → Bool
  | _, [] => false
  | 0, c :: _ => isDigit c
  | n + 1, c :: cs => c == '~' && opens n cs

/-- An opening is some tildes and a digit. -/
private theorem exists_prefix_of_opens {n : Nat} {cs : List Char} (h : opens n cs = true) :
    ∃ d, isDigit d = true ∧ List.replicate n '~' ++ [d] <+: cs := by
  induction cs generalizing n with
  | nil => simp [opens] at h
  | cons c cs ih =>
    rcases n with _ | n
    · exact ⟨c, h, cs, rfl⟩
    · obtain ⟨htilde, hrest⟩ := Bool.and_eq_true_iff.1 h
      obtain ⟨d, hd, hpre⟩ := ih hrest
      obtain rfl := beq_iff_eq.1 htilde
      exact ⟨d, hd, List.cons_prefix_cons.2 ⟨rfl, hpre⟩⟩

/-- A place begins like a placeholder only if it does so with the text that follows it there. -/
private theorem opens_cons_of {c : Char} {cs cs' : List Char} {n : Nat}
    (h : ∀ m < n, opens m cs = true → opens m cs' = true) (hopens : opens n (c :: cs) = true) :
    opens n (c :: cs') = true := by
  rcases n with _ | n
  · exact hopens
  · obtain ⟨htilde, hrest⟩ := Bool.and_eq_true_iff.1 hopens
    exact Bool.and_eq_true_iff.2 ⟨htilde, h n (Nat.lt_succ_self n) hrest⟩

/-- No other character can open a placeholder. -/
private theorem opens_cons_of_ne {c : Char} (htilde : c ≠ '~') (hdigit : isDigit c = false)
    (n : Nat)
    (cs : List Char) : opens n (c :: cs) = false := by
  rcases n with _ | n
  · exact hdigit
  · simp [opens, htilde]

/-- What is behind a character that is no tilde and no digit does not matter. -/
private theorem opens_append_delimiter {c : Char} (htilde : c ≠ '~') (hdigit : isDigit c = false)
    (n : Nat) (cs after : List Char) : opens n (cs ++ c :: after) = opens n cs := by
  fun_induction opens n cs with
  | case1 n => exact opens_cons_of_ne htilde hdigit n after
  | case2 d cs => rfl
  | case3 n d cs ih => rw [List.cons_append, opens, ih]

/-- Where nothing opens there are no digits of a placeholder. -/
private theorem placeholderDigits_of_not_opens {cs : List Char} (h : opens 3 cs = false) :
    placeholderDigits cs = none := by
  rw [placeholderDigits.eq_def]
  split
  · rename_i rest
    have hdigits : rest.takeWhile isDigit = [] := by
      rcases rest with _ | ⟨d, rest⟩
      · rfl
      · exact List.takeWhile_cons_of_neg (Bool.eq_false_iff.1 h)
    simp [hdigits]
  · rfl

/-- Where nothing opens the character stays. -/
private theorem restoreOnce_cons {c : Char} {cs : List Char} (h : opens 3 (c :: cs) = false)
    (literals : List (List Char)) :
    restoreOnce literals (c :: cs) = c :: restoreOnce literals cs := by
  rw [restoreOnce, placeholderDigits_of_not_opens h]

private theorem isDigit_tilde : isDigit '~' = false := by decide +kernel

private theorem isDigit_of_isDelimiter {c : Char} (h : isDelimiter c = true) :
    isDigit c = false := by
  simp only [isDelimiter, Bool.or_eq_true, beq_iff_eq] at h
  rcases h with (rfl | rfl) | rfl <;> decide +kernel

/-- A placeholder begins with more than two tildes. -/
private theorem opens_placeholder {n : Nat} (hn : n < 3) (index : Nat) (cs : List Char) :
    opens n (placeholder index ++ cs) = false := by
  match n, hn with
  | 0, _ => exact isDigit_tilde
  | 1, _ => exact isDigit_tilde
  | 2, _ => exact isDigit_tilde

/-- Literals begin with a delimiter, and so open nothing. -/
private theorem IsLiteral.opens_append {lit : List Char} (h : IsLiteral lit) (n : Nat)
    (cs : List Char) :
    opens n (lit ++ cs) = false := by
  obtain ⟨first, inner, last, rfl, hfirst, -⟩ := h.delimited
  exact opens_cons_of_ne (plain_of_isDelimiter hfirst).1 (isDigit_of_isDelimiter hfirst) n _

/-- Masking does not bring tildes and a digit together. -/
private theorem opens_maskFrom {literal : List Char → Option Nat} {n index : Nat} {cs : List Char}
    (hn : n < 3) (h : opens n (maskFrom literal index cs).text = true) : opens n cs = true := by
  induction cs generalizing n with
  | nil => simpa [maskFrom] using h
  | cons c cs ih =>
    rcases hfound : literal (c :: cs) with _ | k
    · rw [maskFrom_cons hfound] at h
      exact opens_cons_of (fun m hm => ih (hm.trans hn)) h
    · rw [maskFrom_literal hfound, opens_placeholder hn] at h
      cases h

/-- Where masking leaves a character, it leaves a place that begins like a placeholder only if it
did so before. -/
private theorem not_opens_maskFrom {literal : List Char → Option Nat} {c : Char} {cs : List Char}
    (h : opens 3 (c :: cs) = false) (index : Nat) :
    opens 3 (c :: (maskFrom literal index cs).text) = false := by
  rw [← Bool.not_eq_true] at h ⊢
  exact mt (opens_cons_of fun m hm => opens_maskFrom hm) h

/-! ### Masked texts and what they show -/

/-- **A masked text shows another**: a placeholder shows a literal that it holds, and a character
shows itself if no placeholder may begin there. -/
inductive Shows (holds : Nat → List Char → Prop) : List Char → List Char → Prop
  | nil : Shows holds [] []
  | char {c : Char} {part text : List Char} (plain : opens 3 (c :: part) = false)
      (rest : Shows holds part text) : Shows holds (c :: part) (c :: text)
  | literal {index : Nat} {literal part text : List Char} (held : holds index literal)
      (rest : Shows holds part text) :
      Shows holds (placeholder index ++ part) (literal ++ text)

/-- No place in a text begins like a placeholder; digits of every script count, as they do in
restoring. -/
def Unmarked (cs : List Char) : Prop := ∀ d, isDigit d = true → ¬['~', '~', '~', d] <:+: cs

/-- A part of an unmarked text is unmarked. -/
theorem Unmarked.mono {cs cs' : List Char} (h : Unmarked cs) (hin : cs' <:+: cs) : Unmarked cs' :=
  fun d hd hmark => h d hd (hmark.trans hin)

theorem Unmarked.tail {c : Char} {cs : List Char} (h : Unmarked (c :: cs)) : Unmarked cs :=
  h.mono (List.suffix_cons c cs).isInfix

/-- An unmarked text opens nothing. -/
private theorem Unmarked.not_opens {cs : List Char} (h : Unmarked cs) : opens 3 cs = false := by
  rw [← Bool.not_eq_true]
  intro hopens
  obtain ⟨d, hd, hpre⟩ := exists_prefix_of_opens hopens
  exact h d hd hpre.isInfix

namespace Shows

variable {holds : Nat → List Char → Prop} {part part' text text' : List Char}

/-- A text without marks shows itself. -/
private theorem of_unmarked (h : Unmarked text) : Shows holds text text := by
  induction text with
  | nil => exact .nil
  | cons c text ih => exact .char h.not_opens (ih h.tail)

/-- A delimiter stands between two parts that can be shown apart. -/
private theorem append_delimiter {c : Char} (hc : isDelimiter c = true) (h : Shows holds part text)
    (h' : Shows holds part' text') : Shows holds (part ++ c :: part') (text ++ c :: text') := by
  have htilde := (plain_of_isDelimiter hc).1
  have hdigit := isDigit_of_isDelimiter hc
  induction h with
  | nil => exact .char (opens_cons_of_ne htilde hdigit 3 _) h'
  | char plain _ ih =>
    exact .char ((opens_append_delimiter htilde hdigit 3 (_ :: _) _).trans plain) ih
  | literal held _ ih =>
    rw [List.append_assoc, List.append_assoc]
    exact .literal held ih

/-- A delimiter shows itself, with what is before it and after it apart. -/
theorem split {before after : List Char} {c : Char} (hc : isDelimiter c = true)
    (h : Shows holds (before ++ c :: after) text) :
    ∃ text₁ text₂, text = text₁ ++ c :: text₂ ∧ Shows holds before text₁ ∧
      Shows holds after text₂ := by
  obtain ⟨htilde, hascii⟩ := plain_of_isDelimiter hc
  have hdigit := isDigit_of_isDelimiter hc
  generalize hall : before ++ c :: after = part at h
  induction h generalizing before with
  | nil => simp at hall
  | @char d part text plain rest ih =>
    rcases before with _ | ⟨b, before⟩
    · cases hall
      exact ⟨[], text, rfl, .nil, rest⟩
    · cases hall
      obtain ⟨text₁, text₂, rfl, hbefore, hafter⟩ := ih rfl
      have hplain : opens 3 (d :: before) = false := by
        rw [← plain]
        exact (opens_append_delimiter htilde hdigit 3 (d :: before) after).symm
      exact ⟨d :: text₁, text₂, rfl, .char hplain hbefore, hafter⟩
  | @literal index literal part text held rest ih =>
    -- the placeholder is on one side of the delimiter
    have hnot := notMem_placeholder htilde hascii index
    rcases List.append_eq_append_iff.1 hall with ⟨as, hph, has⟩ | ⟨cs, rfl, hpart⟩
    · rcases as with _ | ⟨a, as⟩
      · obtain ⟨text₁, text₂, rfl, hbefore, hafter⟩ := @ih [] has
        have hheld := Shows.literal held hbefore
        rw [hph, List.append_nil, List.append_nil] at hheld
        exact ⟨literal ++ text₁, text₂, by simp, hheld, hafter⟩
      · cases has
        exact absurd (hph ▸ List.mem_append_right before List.mem_cons_self) hnot
    · obtain ⟨text₁, text₂, rfl, hbefore, hafter⟩ := ih hpart.symm
      exact ⟨literal ++ text₁, text₂, by simp, .literal held hbefore, hafter⟩

/-- A literal may be put before a text and its showing. -/
private theorem append_literal {lit : List Char} (hlit : IsLiteral lit) (hplain : Unmarked lit)
    (h : Shows holds part text) : Shows holds (lit ++ part) (lit ++ text) := by
  obtain ⟨first, inner, last, rfl, -, hlast⟩ := hlit.delimited
  have hbefore : Shows holds (first :: inner) (first :: inner) :=
    .of_unmarked (hplain.mono (List.prefix_append _ _).isInfix)
  simpa using hbefore.append_delimiter hlast h

/-- Restoring once gives the text that a part shows, if the literals are held. -/
private theorem restoreOnce_eq {literals : List (List Char)}
    (hholds : ∀ index lit, holds index lit → literals[index]? = some lit)
    (h : Shows holds part text) : restoreOnce literals part = text := by
  induction h with
  | nil => rw [restoreOnce]
  | char plain _ ih => rw [restoreOnce_cons plain, ih]
  | literal held _ ih => rw [restoreOnce_placeholder, hholds _ _ held, Option.getD_some, ih]

end Shows

/-! ### The two passes -/

private theorem cons_eq_take_append_drop (c : Char) (cs : List Char) (k : Nat) :
    c :: cs = (c :: cs.take k) ++ cs.drop k := by
  rw [List.cons_append, List.take_append_drop]

section Passes

variable {literal : List Char → Option Nat} (hfinds : FindsLiterals literal)
  {literals : List (List Char)}

include hfinds

/-- What a pass over a source leaves shows the source. -/
private theorem shows_maskFrom {cs : List Char} (h : Unmarked cs) {index : Nat}
    (htable : (maskFrom literal index cs).literals <+: literals.drop index) :
    Shows (fun i lit => literals[i]? = some lit ∧ IsLiteral lit ∧ Unmarked lit)
      (maskFrom literal index cs).text cs := by
  fun_induction maskFrom literal index cs with
  | case1 => exact .nil
  | case2 index c rest k hfound tail ih =>
    obtain ⟨hget, htable⟩ := cons_prefix_drop htable
    have hcut := cons_eq_take_append_drop c rest k
    have hlit : Unmarked (c :: rest.take k) := h.mono (hcut ▸ (List.prefix_append _ _).isInfix)
    have hrest : Unmarked (rest.drop k) := h.mono (hcut ▸ (List.suffix_append _ _).isInfix)
    rw [hcut]
    exact .literal ⟨hget, hfinds c rest k hfound, hlit⟩ (ih hrest htable)
  | case3 index c rest hfound tail ih =>
    exact .char (not_opens_maskFrom h.not_opens index) (ih h.tail htable)

/-- **A second pass is undone by one more round.** A round of restoring what it leaves puts back all
but the literals inside the literals that it took out. -/
theorem Shows.maskFrom {holds : Nat → List Char → Prop}
    (hholds : ∀ i lit, holds i lit → literals[i]? = some lit ∧ IsLiteral lit ∧ Unmarked lit)
    {part text : List Char} (h : Shows holds part text) {index : Nat}
    (htable : (maskFrom literal index part).literals <+: literals.drop index) :
    ∃ between, Shows (fun i lit => literals[i]? = some lit)
        (Comment.maskFrom literal index part).text between ∧
      Shows holds between text ∧ ∀ m < 3, opens m between = true → opens m part = true := by
  induction hn : part.length using Nat.strong_induction_on generalizing part text index with
  | _ n ih =>
    subst hn
    rcases part with _ | ⟨c, part⟩
    · cases h
      rw [Comment.maskFrom]
      exact ⟨[], .nil, .nil, fun _ _ h => h⟩
    rcases hfound : literal (c :: part) with _ | k
    · generalize hall : c :: part = whole at *
      cases h with
      | nil => cases hall
      | @char d rest text plain hrest =>
        cases hall
        rw [maskFrom_cons hfound] at htable ⊢
        obtain ⟨between, hfirst, hsecond, hopens⟩ := ih _ (Nat.lt_succ_self _) hrest htable rfl
        have hplain : opens 3 (c :: between) = false := by
          rw [← Bool.not_eq_true] at plain ⊢
          exact mt (opens_cons_of hopens) plain
        refine ⟨c :: between, .char (not_opens_maskFrom plain index) hfirst,
          .char hplain hsecond, ?_⟩
        exact fun m hm => opens_cons_of fun m' hm' => hopens m' (hm'.trans hm)
      | @literal i lit rest text held hrest =>
        -- no literal begins in a placeholder, so that it stays whole
        have hkeep : ∀ d ∈ placeholder i, ∀ ds, literal (d :: ds) = none :=
          fun d hd ds => hfinds.eq_none_of_mem_placeholder hd ds
        have hshort : rest.length < (placeholder i ++ rest).length := by
          simp [placeholder]
          omega
        obtain ⟨hget, hlit, hplain⟩ := hholds i lit held
        rw [maskFrom_append hkeep] at htable ⊢
        obtain ⟨between, hfirst, hsecond, -⟩ := ih _ hshort hrest htable rfl
        refine ⟨lit ++ between, .literal hget hfirst, hsecond.append_literal hlit hplain, ?_⟩
        intro m _ hm
        rw [hlit.opens_append] at hm
        cases hm
    · have hlit := hfinds c part k hfound
      obtain ⟨first, inner, last, heq, -, hlast⟩ := hlit.delimited
      rw [cons_eq_take_append_drop c part k, heq, List.append_assoc, List.singleton_append] at h
      obtain ⟨before, rest, rfl, hbefore, hrest⟩ := h.split hlast
      have hshort : (part.drop k).length < (c :: part).length :=
        Nat.lt_succ_of_le (List.drop_suffix k part).length_le
      rw [maskFrom_literal hfound] at htable ⊢
      obtain ⟨hget, htable⟩ := cons_prefix_drop htable
      obtain ⟨between, hfirst, hsecond, -⟩ := ih _ hshort hrest htable rfl
      refine ⟨c :: part.take k ++ between, .literal hget hfirst, ?_, ?_⟩
      · rw [heq]
        simpa using hbefore.append_delimiter hlast hsecond
      · intro m _ hm
        rw [hlit.opens_append] at hm
        cases hm

end Passes

/-! ### Lines -/

/-- A pass keeps the line ends. -/
private theorem count_maskFrom {literal : List Char → Option Nat} (hfinds : FindsLiterals literal)
    (index : Nat) (cs : List Char) :
    (maskFrom literal index cs).text.count '\n' = cs.count '\n' := by
  fun_induction maskFrom literal index cs with
  | case1 => rfl
  | case2 index c rest k hfound tail ih =>
    have hplaceholder : '\n' ∉ placeholder index :=
      notMem_placeholder (by decide) (by decide) index
    rw [List.count_append, List.count_eq_zero.2 hplaceholder, ih,
      cons_eq_take_append_drop c rest k, List.count_append,
      List.count_eq_zero.2 (hfinds c rest k hfound).oneLine]
  | case3 index c rest hfound tail ih => rw [List.count_cons, List.count_cons, ih]

/-- There is one piece more than there are separators. -/
private theorem length_splitOn (c : Char) (cs : List Char) :
    (cs.splitOn c).length = cs.count c + 1 := by
  induction cs with
  | nil => rw [List.splitOn_nil, List.count_nil, List.length_singleton]
  | cons d cs ih =>
    rw [List.splitOn_cons_eq_if_modifyHead, List.count_cons]
    split_ifs
    · rw [List.length_cons, ih]
    · rw [List.length_modifyHead, ih, Nat.add_zero]

/-! ### The round trip -/

/-- **Masking is undone by two rounds of restoring** in a source of which no place begins like a
placeholder, and every literal that was taken out stands on one line, so that the masked text has
the lines of the source. -/
theorem restore_mask {source : List Char} (h : Unmarked source) :
    (mask source).restore (mask source).text = source ∧
      (∀ lit ∈ (mask source).literals, '\n' ∉ lit) ∧
      ((mask source).text.splitOn '\n').length = (source.splitOn '\n').length := by
  refine ⟨?_, fun lit hlit => (mask_literals source lit hlit).oneLine, ?_⟩
  · obtain ⟨patterns, hpatterns⟩ : ∃ m, m = maskFrom patternLiteral 0 source := ⟨_, rfl⟩
    obtain ⟨strings, hstrings⟩ : ∃ m, m = maskFrom stringLiteral patterns.literals.length
        patterns.text := ⟨_, rfl⟩
    obtain ⟨literals, hliterals⟩ : ∃ l, l = patterns.literals ++ strings.literals := ⟨_, rfl⟩
    have hmask : mask source = ⟨strings.text, literals⟩ := by
      rw [hliterals, hstrings, hpatterns]
      rfl
    have hpatternTable : (maskFrom patternLiteral 0 source).literals <+: literals.drop 0 := by
      rw [List.drop_zero, hliterals, ← hpatterns]
      exact List.prefix_append _ _
    have hrest : literals.drop patterns.literals.length =
        (maskFrom stringLiteral patterns.literals.length patterns.text).literals := by
      rw [← hstrings, hliterals, List.drop_left]
    have hstringTable : (maskFrom stringLiteral patterns.literals.length patterns.text).literals <+:
        literals.drop patterns.literals.length := hrest ▸ List.prefix_rfl
    have hpattern := shows_maskFrom findsLiterals_pattern h hpatternTable
    rw [← hpatterns] at hpattern
    obtain ⟨between, hfirst, hsecond, -⟩ :=
      hpattern.maskFrom findsLiterals_string (fun _ _ held => held) hstringTable
    rw [← hstrings] at hfirst
    rw [hmask, Masked.restore, hfirst.restoreOnce_eq fun _ _ held => held,
      hsecond.restoreOnce_eq fun _ _ held => held.1]
  · rw [length_splitOn, length_splitOn, mask, count_maskFrom findsLiterals_string,
      count_maskFrom findsLiterals_pattern]

/-- A pattern literal with tildes inside a string literal, and tildes around both. -/
theorem restore_mask_tildes :
    let source := "~~~x '~~/a~~~/~~2'~~~\n~~/~b/~~3".toList
    Unmarked source ∧ (mask source).restore (mask source).text = source ∧
      (∀ lit ∈ (mask source).literals, '\n' ∉ lit) ∧
      ((mask source).text.splitOn '\n').length = (source.splitOn '\n').length := by
  intro source
  have h : Unmarked source := by
    intro d hd hmark
    have hnext : d = 'x' ∨ d = '/' ∨ d = '\n' := by
      simpa [source, List.infix_cons_iff] using hmark
    rcases hnext with rfl | rfl | rfl <;> exact absurd hd (by decide +kernel)
  exact ⟨h, restore_mask h⟩

end ApiDocs.Comment
