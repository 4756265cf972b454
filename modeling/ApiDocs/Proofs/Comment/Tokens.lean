import ApiDocs.Comment.Token
import ApiDocs.Proofs.Comment.Masking

/-!
# The tokens of an extracted comment

Cutting a text at its tags may lose a blank before a tag, and with it a line end, so that tokens
put together again need not be cut alike. The text of an extracted comment is safe from this, since
it is **bare**: no line begins with decoration, and so no line but the last is empty.

Dropping the decoration makes a text bare (`bare_undecorate`), whatever the text was. Putting the
literals back keeps it so (`Bare.restore`), whether the placeholders were made by masking or stood
in the source, since everything in the table of literals is a literal (`mask_literals`): it begins
with a delimiter and has no line end. **A bare text is its tokens put together**
(`flatten_tokensFrom`).
-/

namespace ApiDocs.Comment

open Text

/-! ### Bare texts -/

/-- No line begins with decoration; the first one counts if the text begins at the start of a
line. -/
def Bare (lineStart : Bool) : List Char → Prop
  | [] => True
  | c :: rest => (lineStart = true → isDecoration c = false) ∧ Bare (c == '\n') rest

/-- Lines of which none begins with decoration, and none but the last is empty. -/
structure BareLines (lines : List (List Char)) : Prop where
  bare : ∀ line ∈ lines, ∀ c, line.head? = some c → isDecoration c = false
  nonempty : ∀ line ∈ lines.dropLast, line ≠ []

private theorem bare_undecorate (lineStart : Bool) (cs : List Char) :
    Bare lineStart (undecorate lineStart cs) := by
  induction cs generalizing lineStart with
  | nil => exact trivial
  | cons c cs ih =>
    rw [undecorate]
    split
    · rename_i h
      obtain ⟨rfl, -⟩ := Bool.and_eq_true_iff.1 h
      exact ih true
    · rename_i h
      refine ⟨?_, ih _⟩
      rintro rfl
      simpa using h

/-- The rest of a line may be anything. -/
private theorem bare_append {plain : List Char} (h : '\n' ∉ plain) (cs : List Char) :
    Bare false (plain ++ cs) ↔ Bare false cs := by
  induction plain with
  | nil => exact Iff.rfl
  | cons c plain ih =>
    have hc : (c == '\n') = false := by
      rw [beq_eq_false_iff_ne]
      rintro rfl
      exact h List.mem_cons_self
    have hplain : '\n' ∉ plain := fun hmem => h (List.mem_cons_of_mem c hmem)
    rw [List.cons_append, Bare, hc, ih hplain]
    simp

/-- A stretch of one line that begins with no decoration may stand anywhere. -/
private theorem bare_token {c : Char} {cs inner : List Char} (hcs : cs = c :: inner)
    (hc : isDecoration c = false) (hline : '\n' ∉ cs) (lineStart : Bool) (rest : List Char) :
    Bare lineStart (cs ++ rest) ↔ Bare false rest := by
  rw [← bare_append hline]
  subst hcs
  simp [Bare, hc]

theorem BareLines.tail {line : List Char} {lines : List (List Char)}
    (h : BareLines (line :: lines)) : BareLines lines := by
  constructor
  · intro l hl
    exact h.bare l (List.mem_cons_of_mem line hl)
  · intro l hl
    cases lines with
    | nil => exact absurd hl List.not_mem_nil
    | cons next lines => exact h.nonempty l (List.mem_cons_of_mem line hl)

theorem BareLines.cons {c : Char} {line : List Char} {lines : List (List Char)}
    (hc : isDecoration c = false) (h : BareLines lines) : BareLines ((c :: line) :: lines) := by
  constructor
  · intro l hl d hd
    rcases List.mem_cons.1 hl with rfl | hl
    · rw [List.head?_cons, Option.some.injEq] at hd
      exact hd ▸ hc
    · exact h.bare l hl d hd
  · intro l hl
    cases lines with
    | nil => exact absurd hl List.not_mem_nil
    | cons next lines =>
      rcases List.mem_cons.1 hl with rfl | hl
      · exact List.cons_ne_nil c line
      · exact h.nonempty l hl

/-- The lines of a bare text, apart from the one that has begun before it. -/
private theorem Bare.lines {lineStart : Bool} {cs : List Char} (h : Bare lineStart cs) :
    BareLines (if lineStart then cs.splitOn '\n' else (cs.splitOn '\n').tail) := by
  induction cs generalizing lineStart with
  | nil =>
    have hnil : BareLines [[]] := ⟨by simp, by simp⟩
    rw [List.splitOn_nil]
    split
    · exact hnil
    · exact hnil.tail
  | cons c cs ih =>
    obtain ⟨hstart, hrest⟩ := h
    have hlines := ih hrest
    rw [List.splitOn_cons_eq_if_modifyHead]
    by_cases hc : (c == '\n') = true
    · rw [if_pos hc] at hlines ⊢
      split
      · rename_i hline
        -- a line end is a blank, which does not begin a line
        have hplain := hstart hline
        rw [beq_iff_eq.1 hc] at hplain
        exact absurd hplain (by decide)
      · exact hlines
    · rw [if_neg hc] at hlines ⊢
      obtain ⟨line, lines, hsplit⟩ := List.exists_cons_of_ne_nil (List.splitOn_ne_nil '\n' cs)
      rw [hsplit, List.tail_cons] at hlines
      rw [hsplit, List.modifyHead_cons]
      split
      · rename_i hline
        exact hlines.cons (hstart hline)
      · exact hlines

/-! ### Restoring -/

private theorem IsLiteral.bare_append {lit : List Char} (h : IsLiteral lit) (lineStart : Bool)
    (rest : List Char) : Bare lineStart (lit ++ rest) ↔ Bare false rest := by
  obtain ⟨first, inner, last, heq, hfirst, -⟩ := h.delimited
  exact bare_token heq (not_decoration_of_isDelimiter hfirst) h.oneLine lineStart rest

private theorem maskFrom_literals {literal : List Char → Option Nat}
    (hfinds : FindsLiterals literal)
    (index : Nat) (cs : List Char) :
    ∀ lit ∈ (maskFrom literal index cs).literals, IsLiteral lit := by
  induction hn : cs.length using Nat.strong_induction_on generalizing cs index with
  | _ n ih =>
    subst hn
    cases cs with
    | nil => simp [maskFrom]
    | cons c cs =>
      cases hfound : literal (c :: cs) with
      | none =>
        rw [maskFrom_cons hfound]
        exact ih _ (by simp) index cs rfl
      | some k =>
        have hshort : (cs.drop k).length < (c :: cs).length := by
          rw [List.length_drop, List.length_cons]
          omega
        rw [maskFrom_literal hfound, List.forall_mem_cons]
        exact ⟨hfinds c cs k hfound, ih _ hshort _ _ rfl⟩

/-- What masking takes out of a source are literals, whatever the source. -/
theorem mask_literals (source : List Char) : ∀ lit ∈ (mask source).literals, IsLiteral lit := by
  intro lit hmem
  rcases List.mem_append.1 hmem with hmem | hmem
  · exact maskFrom_literals findsLiterals_pattern _ _ lit hmem
  · exact maskFrom_literals findsLiterals_string _ _ lit hmem

/-- What counts as a placeholder holds digits only. -/
private theorem eq_of_placeholderDigits {cs digits : List Char}
    (h : placeholderDigits cs = some digits) :
    (∀ c ∈ digits, isDigit c = true) ∧
      ∃ rest, cs = ['~', '~', '~'] ++ digits ++ ['~', '~', '~'] ++ rest := by
  rw [placeholderDigits.eq_def] at h
  split at h
  · rename_i inner
    dsimp only at h
    split at h
    · cases h
    · split at h
      · rename_i hclose
        cases h
        refine ⟨fun c hc => List.mem_takeWhile_imp hc, ?_⟩
        obtain ⟨rest, hrest⟩ := List.isPrefixOf_iff_prefix.1 hclose
        have hinner : inner.takeWhile isDigit ++ (['~', '~', '~'] ++ rest) = inner := by
          rw [hrest]
          exact List.prefix_iff_eq_append.1 (List.takeWhile_prefix isDigit)
        exact ⟨rest, by simpa using hinner.symm⟩
      · cases h
  · cases h

private theorem mem_of_literalAt {literals : List (List Char)} {digits lit : List Char}
    (h : literalAt literals digits = some lit) : lit ∈ literals := by
  rw [literalAt] at h
  split at h
  · exact List.mem_of_getElem? h
  · cases h

private theorem bare_restoreOnce {literals : List (List Char)}
    (hliterals : ∀ lit ∈ literals, IsLiteral lit) {lineStart : Bool} {cs : List Char}
    (h : Bare lineStart cs) : Bare lineStart (restoreOnce literals cs) := by
  induction hn : cs.length using Nat.strong_induction_on generalizing cs lineStart with
  | _ n ih =>
    subst hn
    cases cs with
    | nil => rwa [restoreOnce]
    | cons c cs =>
      cases hfound : placeholderDigits (c :: cs) with
      | none =>
        rw [restoreOnce, hfound]
        exact ⟨h.1, ih _ (by simp) h.2 rfl⟩
      | some digits =>
        obtain ⟨hdigits, rest, hcs⟩ := eq_of_placeholderDigits hfound
        obtain ⟨whole, hwhole⟩ : ∃ w, w = ['~', '~', '~'] ++ digits ++ ['~', '~', '~'] := ⟨_, rfl⟩
        rw [← hwhole] at hcs
        have hline : '\n' ∉ whole := by
          have hnone : '\n' ∉ digits := fun hmem => absurd (hdigits _ hmem) (by decide +kernel)
          simp [hwhole, hnone]
        have hbare : ∀ b cs, Bare b (whole ++ cs) ↔ Bare false cs :=
          bare_token (c := '~') hwhole (by decide) hline
        have hdrop : cs.drop (digits.length + 5) = rest := by
          have hlength : whole.length = digits.length + 6 := by
            simp [hwhole]
          rw [← List.drop_succ_cons (a := c), hcs, List.drop_left' hlength]
        have hshort : rest.length < (c :: cs).length := by
          rw [hcs, hwhole]
          simp
          omega
        rw [hcs, hbare] at h
        have hrest := ih _ hshort h rfl
        rw [restoreOnce, hfound]
        dsimp only
        rw [← hwhole, hdrop]
        cases hlit : literalAt literals digits with
        | none => exact (hbare _ _).2 hrest
        | some lit => exact ((hliterals lit (mem_of_literalAt hlit)).bare_append _ _).2 hrest

private theorem Bare.restore {m : Masked} (hliterals : ∀ lit ∈ m.literals, IsLiteral lit)
    {lineStart : Bool} {part : List Char} (h : Bare lineStart part) :
    Bare lineStart (m.restore part) :=
  bare_restoreOnce hliterals (bare_restoreOnce hliterals h)

/-- **The text of a comment is bare.** -/
theorem bare_of_mem_extract {source : String} {c : Comment} (h : c ∈ extract source) :
    Bare true c.body.toList := by
  obtain ⟨raw, -, hraw⟩ := List.mem_filterMap.1 h
  rw [ofRaw] at hraw
  dsimp only at hraw
  split at hraw
  · cases hraw
  · cases hraw
    rw [String.toList_ofList]
    exact (bare_undecorate true raw.1).restore (mask_literals source.toList)

/-! ### Tokens -/

private theorem tagWord_eq_some {cs word : List Char} (h : tagWord cs = some word) :
    ∃ rest, cs = '@' :: (word ++ rest) ∧ ∀ c ∈ word, isWord c = true := by
  rw [tagWord.eq_def] at h
  split at h
  · rename_i rest
    split at h
    · cases h
    · cases h
      refine ⟨rest.dropWhile isWord, ?_, fun c hc => List.mem_takeWhile_imp hc⟩
      rw [List.takeWhile_append_dropWhile]
  · cases h

/-- **A bare text is its tokens put together.** At the start of its lines there is no blank that
could be dropped before a tag. -/
theorem flatten_tokensFrom {lineStart : Bool} {cs : List Char} (h : Bare lineStart cs) :
    (tokensFrom lineStart cs).1 ++ (tokensFrom lineStart cs).2.flatten = cs := by
  induction hn : cs.length using Nat.strong_induction_on generalizing cs lineStart with
  | _ n ih =>
    subst hn
    cases cs with
    | nil => simp [tokensFrom]
    | cons c cs =>
      cases hfound : if lineStart then lineTag (c :: cs) else none with
      | none =>
        have hrest := ih _ (by simp) h.2 rfl
        rw [tokensFrom, hfound]
        exact congrArg (c :: ·) hrest
      | some found =>
        obtain ⟨word, length⟩ := found
        obtain ⟨rfl, htag⟩ : lineStart = true ∧ lineTag (c :: cs) = some (word, length) := by
          split at hfound
          · rename_i hline
            exact ⟨hline, hfound⟩
          · cases hfound
        have hblank : isBlank c = false := by
          have hc := h.1 rfl
          simp only [isDecoration, Bool.or_eq_false_iff] at hc
          exact hc.1.1
        rw [lineTag, hblank, if_neg Bool.false_ne_true] at htag
        obtain ⟨w, hword, heq⟩ := Option.map_eq_some_iff.1 htag
        cases heq
        obtain ⟨rest, hcs, hchars⟩ := tagWord_eq_some hword
        obtain ⟨rfl, rfl⟩ := List.cons.inj hcs
        have hline : '\n' ∉ word := fun hmem => absurd (hchars _ hmem) (by decide +kernel)
        have hbare : Bare false rest := (bare_append hline rest).1 h.2
        have hshorter : rest.length < ('@' :: (word ++ rest)).length := by
          rw [List.length_cons, List.length_append]
          omega
        have hrest := ih _ hshorter hbare rfl
        rw [tokensFrom, hfound]
        simp only [Nat.add_sub_cancel, List.drop_left]
        rw [List.nil_append, List.flatten_cons, List.flatten_cons, hrest]
        rfl

private theorem join_tokenize {body : String} (h : Bare true body.toList) :
    String.join (tokenize body) = body := by
  have htokens : (String.join (tokenize body)).toList =
      (tokensFrom true body.toList).1 ++ (tokensFrom true body.toList).2.flatten := by
    simp [String.toList_join, tokenize, List.flatMap_map, List.flatMap_id']
  rw [← String.toList_inj, htokens, flatten_tokensFrom h]

/-- **Tokenizing an extracted comment is lossless and stable.** No line of its text begins with a
blank, a bar or a star, and none but the last is empty; its tokens put together are its text, and so
are cut into the same tokens again. -/
theorem tokenize_extract {source : String} {c : Comment} (h : c ∈ extract source) :
    BareLines (c.body.toList.splitOn '\n') ∧ String.join (tokenize c.body) = c.body ∧
      tokenize (String.join (tokenize c.body)) = tokenize c.body := by
  have hbare := bare_of_mem_extract h
  have hjoin := join_tokenize hbare
  exact ⟨hbare.lines, hjoin, congrArg tokenize hjoin⟩

/-- A comment with unpaired quotes, empty lines before a tag, and placeholders that stood in the
source: one names a pattern literal, one a string literal that holds it, and one nothing. -/
theorem tokenize_extract_forged :
    (⟨"it's \n@a /a b/\n'/a b/' @b\n@c \"\n~~~9~~~ *", some "y"⟩ : Comment) ∈
        extract ("x = '/a b/';\n/** it's \n\n\n |* @a ~~~0~~~\n * ~~~1~~~ @b\n *\n\t* @c \"\n" ++
          " ~~~9~~~ **/\ny") ∧
      BareLines ("it's \n@a /a b/\n'/a b/' @b\n@c \"\n~~~9~~~ *".toList.splitOn '\n') ∧
      String.join (tokenize "it's \n@a /a b/\n'/a b/' @b\n@c \"\n~~~9~~~ *") =
        "it's \n@a /a b/\n'/a b/' @b\n@c \"\n~~~9~~~ *" ∧
      tokenize (String.join (tokenize "it's \n@a /a b/\n'/a b/' @b\n@c \"\n~~~9~~~ *")) =
        tokenize "it's \n@a /a b/\n'/a b/' @b\n@c \"\n~~~9~~~ *" := by
  have hmem : (⟨"it's \n@a /a b/\n'/a b/' @b\n@c \"\n~~~9~~~ *", some "y"⟩ : Comment) ∈
      extract ("x = '/a b/';\n/** it's \n\n\n |* @a ~~~0~~~\n * ~~~1~~~ @b\n *\n\t* @c \"\n" ++
        " ~~~9~~~ **/\ny") := by
    decide +kernel
  exact ⟨hmem, tokenize_extract hmem⟩

end ApiDocs.Comment
