import ApiDocs.Proofs.Comment.Renumbering

/-!
# Masking line by line

A literal stands on one line, and whether one begins somewhere depends on the rest of that line
only (`OnOneLine`). Both passes can therefore be made line by line (`maskFrom_line`): what stands
on a line does not change which literals are found behind it, only their numbers.

With the numbers out of the way (`Renumbers.comments_eq`) this says when a line can be left out of
a source: **a line that the search for comments passes over in its masked form changes nothing
about the comments found behind it** (`extract_line`).
-/

namespace ApiDocs.Comment

open Text

/-! ### What a pass leaves -/

/-- A pass brings in no characters but those of placeholders. -/
theorem notMem_maskFrom {literal : List Char → Option Nat} {c : Char} (htilde : c ≠ '~')
    (hdigit : isAsciiDigit c = false) {cs : List Char} (hc : c ∉ cs) (index : Nat) :
    c ∉ (maskFrom literal index cs).text := by
  fun_induction maskFrom literal index cs with
  | case1 => exact hc
  | case2 index d rest n h tail ih =>
    have hrest : c ∉ rest.drop n :=
      fun hmem => hc (List.mem_cons_of_mem d (List.mem_of_mem_drop hmem))
    exact List.not_mem_append (notMem_placeholder htilde hdigit index) (ih hrest)
  | case3 index d rest h tail ih =>
    rw [List.mem_cons, not_or] at hc ⊢
    exact ⟨hc.1, ih hc.2⟩

/-- A pass brings no two characters together. -/
theorem pair_infix_maskFrom {literal : List Char → Option Nat} {c d : Char} (hc : c ≠ '~')
    (hdigit : isAsciiDigit c = false) (hd : d ≠ '~') {cs : List Char} (index : Nat)
    (h : [c, d] <:+: (maskFrom literal index cs).text) : [c, d] <:+: cs := by
  fun_induction maskFrom literal index cs with
  | case1 => exact h
  | case2 index b rest n hfound tail ih =>
    have hrest := ih (infix_of_notMem (notMem_placeholder hc hdigit index) h)
    exact hrest.trans ((List.drop_suffix n rest).isInfix.trans (List.suffix_cons b rest).isInfix)
  | case3 index b rest hfound tail ih =>
    rcases List.infix_cons_iff.1 h with hpre | hin
    · obtain ⟨rfl, hnext⟩ := List.cons_prefix_cons.1 hpre
      -- the second character is no placeholder either
      cases rest with
      | nil => simp [tail, maskFrom] at hnext
      | cons e rest =>
        cases hrest : literal (e :: rest) with
        | none =>
          rw [show tail = _ from maskFrom_cons hrest] at hnext
          obtain ⟨rfl, -⟩ := List.cons_prefix_cons.1 hnext
          exact ⟨[], rest, rfl⟩
        | some n =>
          rw [show tail = _ from maskFrom_literal hrest] at hnext
          exact absurd (List.cons_prefix_cons.1 hnext).1 hd
    · exact (ih hin).trans (List.suffix_cons b rest).isInfix

/-- A text in which no literal begins is not masked. -/
theorem maskFrom_of_forall_none {literal : List Char → Option Nat} {cs : List Char}
    (h : ∀ tail ∈ cs.tails, literal tail = none) (index : Nat) :
    maskFrom literal index cs = ⟨cs, []⟩ := by
  induction cs with
  | nil => rw [maskFrom]
  | cons c cs ih =>
    rw [List.tails, List.forall_mem_cons] at h
    rw [maskFrom_cons h.1, ih h.2]

/-! ### Literals on one line -/

/-- Whether a literal begins at a text depends on the first line only, where it also ends. -/
structure OnOneLine (literal : List Char → Option Nat) : Prop where
  line : ∀ line rest, '\n' ∉ line → literal (line ++ '\n' :: rest) = literal line
  length : ∀ c cs n, literal (c :: cs) = some n → n ≤ cs.length
  nil : literal [] = none

/-- A pattern literal may go on, and ends with the last slash that it can. -/
theorem patternEnd_cons {c : Char} (h : c ≠ '*') (cs : List Char) :
    patternEnd (c :: cs) =
      if c = '\n' then none
      else match patternEnd cs with
        | some n => some (n + 1)
        | none => if c = '/' then some 1 else none := by
  rw [patternEnd]
  · exact if_congr (or_iff_right h) rfl rfl
  · rintro d rest rfl
    exact absurd rfl h

/-- A pattern literal ends on its line. -/
private theorem patternEnd_line {line : List Char} (h : '\n' ∉ line) (rest : List Char) :
    patternEnd (line ++ '\n' :: rest) = patternEnd line := by
  fun_induction patternEnd line with
  | case1 =>
    rw [List.nil_append, patternEnd_cons (by decide)]
    rfl
  | case2 c cs hc => rw [List.cons_append, List.cons_append, patternEnd, if_pos hc]
  | case3 c cs hc ih =>
    rw [List.cons_append, List.cons_append, patternEnd, if_neg hc, 
      ih fun hmem => h (by simp [hmem])]
  | case4 c cs hne hc =>
    -- a star at the end of the line goes together with the line end
    have hline : c ≠ '\n' := fun hc => h (hc ▸ List.mem_cons_self)
    obtain rfl := hc.resolve_right hline
    cases cs with
    | nil => rfl
    | cons d cs => exact (hne d cs rfl rfl).elim
  | case5 c cs hne hc k hk ih =>
    rw [not_or] at hc
    rw [List.cons_append, patternEnd_cons hc.1, if_neg hc.2,
      ih fun hmem => h (List.mem_cons_of_mem c hmem), hk]
  | case6 cs hk _ _ ih =>
    rw [List.cons_append, patternEnd_cons (by decide), if_neg (by decide),
      ih fun hmem => h (List.mem_cons_of_mem _ hmem), hk]
    rfl
  | case7 c cs hne hc hk hslash ih =>
    rw [not_or] at hc
    rw [List.cons_append, patternEnd_cons hc.1, if_neg hc.2,
      ih fun hmem => h (List.mem_cons_of_mem c hmem), hk]
    simp [hslash]

/-- A pattern literal lies in the text. -/
private theorem patternEnd_le {cs : List Char} {n : Nat} (h : patternEnd cs = some n) :
    n ≤ cs.length := by
  fun_induction patternEnd cs generalizing n with
  | case1 => cases h
  | case2 => cases h
  | case3 c rest _ ih =>
    obtain ⟨k, hk, rfl⟩ := Option.map_eq_some_iff.1 h
    exact Nat.add_le_add_right (ih hk) 2
  | case4 => cases h
  | case5 c rest _ _ k hk ih =>
    cases h
    exact Nat.succ_le_succ (ih hk)
  | case6 =>
    cases h
    simp
  | case7 => cases h

/-- A string ends on its line. -/
private theorem stringEnd_line {quote : Char} (hquote : quote = '\'' ∨ quote = '"')
    {line : List Char}
    (h : '\n' ∉ line) (rest : List Char) :
    stringEnd quote (line ++ '\n' :: rest) = stringEnd quote line := by
  fun_induction stringEnd quote line with
  | case1 =>
    have hline : '\n' ≠ quote := by rcases hquote with rfl | rfl <;> decide
    rw [List.nil_append, stringEnd_cons (by decide), if_neg hline, if_pos rfl]
  | case2 cs =>
    exact absurd (List.mem_cons_of_mem _ List.mem_cons_self) h
  | case3 c cs hc ih =>
    rw [List.cons_append, List.cons_append, stringEnd, if_neg hc,
      ih fun hmem => h (by simp [hmem])]
  | case4 cs hne =>
    have hslash : quote ≠ '\\' := by rcases hquote with rfl | rfl <;> decide
    rw [List.cons_append, stringEnd_cons hslash, if_pos rfl]
  | case5 c cs hne hc hc' =>
    -- a backslash at the end of the line protects nothing
    have hline : c ≠ '\n' := fun hc => h (hc ▸ List.mem_cons_self)
    obtain rfl := hc'.resolve_right hline
    cases cs with
    | nil => rfl
    | cons d cs => exact (hne d cs rfl rfl).elim
  | case6 c cs hne hc hc' ih =>
    rw [not_or] at hc'
    rw [List.cons_append, stringEnd_cons hc'.1, if_neg hc, if_neg hc'.2,
      ih fun hmem => h (List.mem_cons_of_mem c hmem)]

/-- A string lies in the text. -/
private theorem stringEnd_le {quote : Char} {cs : List Char} {n : Nat}
    (h : stringEnd quote cs = some n) : n ≤ cs.length := by
  fun_induction stringEnd quote cs generalizing n with
  | case1 => cases h
  | case2 => cases h
  | case3 c rest _ ih =>
    obtain ⟨k, hk, rfl⟩ := Option.map_eq_some_iff.1 h
    exact Nat.add_le_add_right (ih hk) 2
  | case4 =>
    cases h
    simp
  | case5 => cases h
  | case6 c rest _ _ _ ih =>
    obtain ⟨k, hk, rfl⟩ := Option.map_eq_some_iff.1 h
    exact Nat.succ_le_succ (ih hk)

/-- Whether a pattern literal begins is decided on its line. -/
private theorem patternLiteral_line {line : List Char} (h : '\n' ∉ line) (rest : List Char) :
    patternLiteral (line ++ '\n' :: rest) = patternLiteral line := by
  match line with
  | [] => rfl
  | [c] =>
    by_cases hc : c = '/'
    · have hblank : isBlank '\n' = true := by decide
      simp [hc, patternLiteral, hblank]
    · rw [List.cons_append, patternLiteral_of_ne hc, patternLiteral_of_ne hc]
  | c :: d :: line =>
    by_cases hc : c = '/'
    · have hline : '\n' ∉ line := fun hmem => h (by simp [hmem])
      rw [hc, List.cons_append, List.cons_append, patternLiteral, patternLiteral,
        patternEnd_line hline]
    · rw [List.cons_append, patternLiteral_of_ne hc, patternLiteral_of_ne hc]

private theorem onOneLine_pattern : OnOneLine patternLiteral where
  line _ rest h := patternLiteral_line h rest
  length := by
    intro c cs n h
    obtain ⟨d, rest, k, hcs, -, hk, rfl⟩ := exists_of_patternLiteral h
    cases hcs
    exact Nat.succ_le_succ (patternEnd_le hk)
  nil := rfl

private theorem onOneLine_string : OnOneLine stringLiteral where
  line := by
    intro line rest h
    cases line with
    | nil => rfl
    | cons c line =>
      rw [List.cons_append, stringLiteral, stringLiteral]
      split
      · rename_i hc
        exact stringEnd_line hc (fun hmem => h (List.mem_cons_of_mem c hmem)) rest
      · rfl
  length := by
    intro c cs n h
    rw [stringLiteral] at h
    split at h
    · exact stringEnd_le h
    · cases h
  nil := rfl

/-! ### Passes -/

section

variable {literal : List Char → Option Nat} (hliteral : OnOneLine literal)

include hliteral

/-- **A pass is made line by line.** -/
theorem maskFrom_line {line : List Char} (h : '\n' ∉ line) (index : Nat) (rest : List Char) :
    maskFrom literal index (line ++ '\n' :: rest) =
      ⟨(maskFrom literal index line).text ++ '\n' ::
          (maskFrom literal (index + (maskFrom literal index line).literals.length) rest).text,
        (maskFrom literal index line).literals ++
          (maskFrom literal (index + (maskFrom literal index line).literals.length)
            rest).literals⟩ := by
  fun_induction maskFrom literal index line with
  | case1 index =>
    have hend : literal ('\n' :: rest) = none := by
      have := hliteral.line [] rest List.not_mem_nil
      rwa [hliteral.nil] at this
    rw [List.nil_append, maskFrom_cons hend]
    simp
  | case2 index c line n hfound tail ih =>
    have hlength : n ≤ line.length := hliteral.length c line n hfound
    have hdrop : '\n' ∉ line.drop n :=
      fun hmem => h (List.mem_cons_of_mem c (List.mem_of_mem_drop hmem))
    have hfound' : literal (c :: (line ++ '\n' :: rest)) = some n := by
      rw [← List.cons_append, hliteral.line _ rest h, hfound]
    rw [List.cons_append, maskFrom_literal hfound', List.take_append_of_le_length hlength,
      List.drop_append_of_le_length hlength, ih hdrop]
    simp [tail, Nat.add_assoc, Nat.add_comm 1]
  | case3 index c line hnone tail ih =>
    have hnone' : literal (c :: (line ++ '\n' :: rest)) = none := by
      rw [← List.cons_append, hliteral.line _ rest h, hnone]
    rw [List.cons_append, maskFrom_cons hnone', ih fun hmem => h (List.mem_cons_of_mem c hmem)]
    rfl

end

/-- A text is masked with its first numbers. -/
private theorem mask_eq (cs : List Char) :
    ∃ j, (mask cs).text = masked 0 j cs ∧ MaskedIn (mask cs).literals 0 j cs := by
  refine ⟨(maskFrom patternLiteral 0 cs).literals.length, rfl, ?_, ?_⟩
  · exact List.prefix_append _ _
  · exact ⟨[], by rw [List.append_nil, mask, List.drop_left]⟩

/-- **What is behind a line is masked with later numbers.** -/
theorem mask_line {line : List Char} (h : '\n' ∉ line) (rest : List Char) :
    ∃ i j k, (mask (line ++ '\n' :: rest)).text = masked 0 k line ++ '\n' :: masked i j rest ∧
      MaskedIn (mask (line ++ '\n' :: rest)).literals i j rest := by
  obtain ⟨pattern, hpattern⟩ : ∃ m, m = maskFrom patternLiteral 0 line := ⟨_, rfl⟩
  obtain ⟨patterns, hpatterns⟩ :
      ∃ m, m = maskFrom patternLiteral pattern.literals.length rest := ⟨_, rfl⟩
  obtain ⟨k, hk⟩ : ∃ k, k = (pattern.literals ++ patterns.literals).length := ⟨_, rfl⟩
  obtain ⟨string, hstring⟩ : ∃ m, m = maskFrom stringLiteral k pattern.text := ⟨_, rfl⟩
  obtain ⟨strings, hstrings⟩ :
      ∃ m, m = maskFrom stringLiteral (k + string.literals.length) patterns.text := ⟨_, rfl⟩
  have hfirst : maskFrom patternLiteral 0 (line ++ '\n' :: rest) =
      ⟨pattern.text ++ '\n' :: patterns.text, pattern.literals ++ patterns.literals⟩ := by
    rw [maskFrom_line onOneLine_pattern h, ← hpattern, Nat.zero_add, ← hpatterns]
  have hline : '\n' ∉ pattern.text := hpattern ▸ notMem_maskFrom (by decide) (by decide) h 0
  have hmask : mask (line ++ '\n' :: rest) = ⟨string.text ++ '\n' :: strings.text,
      pattern.literals ++ patterns.literals ++ (string.literals ++ strings.literals)⟩ := by
    rw [mask, hfirst, ← hk]
    dsimp only
    rw [maskFrom_line onOneLine_string hline, ← hstring, ← hstrings]
  rw [hmask]
  refine ⟨pattern.literals.length, k + string.literals.length, k, ?_, ?_, ?_⟩
  · rw [masked, masked, ← hpattern, ← hpatterns, ← hstring, ← hstrings]
  · rw [← hpatterns, List.append_assoc, List.drop_left]
    exact List.prefix_append _ _
  · have hlength : (pattern.literals ++ patterns.literals ++ string.literals).length =
        k + string.literals.length := by
      rw [List.length_append, hk]
    refine ⟨[], ?_⟩
    rw [← hpatterns, ← hstrings, ← List.append_assoc, ← hlength, List.drop_left, List.append_nil]

/-- **A line that the search passes over may be left out**: it passes over the line in its masked
form, whatever stands behind it. -/
theorem extract_line {line rest : String} (hline : '\n' ∉ line.toList)
    (hpass : ∀ k cs, rawComments (masked 0 k line.toList ++ '\n' :: cs) = rawComments cs)
    (hrest : '~' ∉ rest.toList) : extract (line ++ "\n" ++ rest) = extract rest := by
  have hchars : (line ++ "\n" ++ rest).toList = line.toList ++ '\n' :: rest.toList := by simp
  obtain ⟨i, j, k, htext, hin⟩ := mask_line hline rest.toList
  obtain ⟨j', htext', hin'⟩ := mask_eq rest.toList
  rw [extract, extract, hchars, htext, htext', hpass]
  exact (renumbers_mask hrest hin hin').comments_eq

end ApiDocs.Comment
