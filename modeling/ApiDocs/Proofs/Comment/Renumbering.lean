import ApiDocs.Proofs.Comment.Layout

/-!
# The numbers of placeholders

The same text is masked with other numbers when something stands before it. Nothing that is found
depends on these numbers: `Renumbers` compares two masked texts that differ in them only, the
search for comments cuts such texts in the same places (`Renumbers.rawComments`), and where the
numbers name literals of the same text in the two tables the comments read are equal
(`Renumbers.comments_eq`).

**A source without tildes is masked to the same text up to numbers, whatever the numbers begin
with** (`renumbers_mask`). Both passes find the same literals: the second one because a quoted text
is closed at the same place, whichever placeholders it holds (`Renumbers.stringEnd`).
-/

namespace ApiDocs.Comment

open Text

/-- **Two masked texts that differ only in the numbers of their placeholders**, and in these as
`same` says. -/
inductive Renumbers (same : Nat → Nat → Prop) : List Char → List Char → Prop
  | nil : Renumbers same [] []
  | char {c : Char} {p q : List Char} (plain : c ≠ '~') (rest : Renumbers same p q) :
      Renumbers same (c :: p) (c :: q)
  | placeholder {i j : Nat} {p q : List Char} (held : same i j) (rest : Renumbers same p q) :
      Renumbers same (placeholder i ++ p) (placeholder j ++ q)

/-- What holds for every character of a placeholder, or fails for the first one. -/
def Uniform (p : Char → Bool) : Prop :=
  p '~' = false ∨ ∀ i, ∀ c ∈ placeholder i, p c = true

private theorem uniform_isBlank : Uniform isBlank := .inl (by decide)

private theorem uniform_code : Uniform fun c => c ≠ '/' ∧ c ≠ '\n' := by
  right
  intro i c hc
  rw [decide_eq_true_eq]
  constructor
  · rintro rfl
    exact notMem_placeholder (by decide) (by decide) i hc
  · rintro rfl
    exact notMem_placeholder (by decide) (by decide) i hc

namespace Renumbers

variable {same same' : Nat → Nat → Prop} {p q : List Char}

/-- A text stands for its renumbering if placeholders are taken for what they hold. -/
private theorem iff_standsFor : Renumbers same p q ↔
    StandsFor (fun i text => ∃ j, same i j ∧ text = Comment.placeholder j) p q := by
  constructor
  · intro h
    induction h with
    | nil => exact .nil
    | char plain _ ih => exact .char plain ih
    | placeholder held _ ih => exact .literal ⟨_, held, rfl⟩ ih
  · intro h
    induction h with
    | nil => exact .nil
    | char plain _ ih => exact .char plain ih
    | literal held _ ih =>
      obtain ⟨j, hij, rfl⟩ := held
      exact .placeholder hij ih

/-- A text without tildes has no placeholder to renumber. -/
theorem of_notMem (h : '~' ∉ p) : Renumbers same p p := iff_standsFor.2 (.of_notMem h)

/-- Without numbers that correspond there is no placeholder. -/
private theorem eq_of_forall_not (h : Renumbers same p q) (hnone : ∀ i j, ¬same i j) :
    p = q ∧ '~' ∉ q :=
  (iff_standsFor.1 h).eq_of_forall_not fun i _ ⟨j, hij, _⟩ => hnone i j hij

theorem append {p' q' : List Char} (h : Renumbers same p q) (h' : Renumbers same p' q') :
    Renumbers same (p ++ p') (q ++ q') :=
  iff_standsFor.2 ((iff_standsFor.1 h).append (iff_standsFor.1 h'))

private theorem of_cons {c : Char} (hc : c ≠ '~') (h : Renumbers same (c :: p) q) :
    ∃ q', q = c :: q' ∧ Renumbers same p q' := by
  obtain ⟨q', hq, hrest⟩ := (iff_standsFor.1 h).of_cons hc
  exact ⟨q', hq, iff_standsFor.2 hrest⟩

/-- A text can be split at any character that no placeholder has. -/
theorem split {before after : List Char} {c : Char} (htilde : c ≠ '~')
    (hdigit : isAsciiDigit c = false) (h : Renumbers same (before ++ c :: after) q) :
    ∃ before' after', q = before' ++ c :: after' ∧ Renumbers same before before' ∧
      Renumbers same after after' := by
  obtain ⟨before', after', hq, hbefore, hafter⟩ := (iff_standsFor.1 h).split htilde hdigit
  exact ⟨before', after', hq, iff_standsFor.2 hbefore, iff_standsFor.2 hafter⟩

/-- One placeholder for another. -/
theorem single {i j : Nat} (held : same i j) :
    Renumbers same (Comment.placeholder i) (Comment.placeholder j) := by
  simpa using Renumbers.placeholder held .nil

theorem symm (h : Renumbers same p q) : Renumbers (fun i j => same j i) q p := by
  induction h with
  | nil => exact .nil
  | char plain _ ih => exact .char plain ih
  | placeholder held _ ih => exact .placeholder held ih

/-- A character that no placeholder has comes up on neither side. -/
private theorem notMem {c : Char} (htilde : c ≠ '~') (hdigit : isAsciiDigit c = false)
    (h : Renumbers same p q) (hc : c ∉ p) : c ∉ q :=
  (iff_standsFor.1 h.symm).notMem_part htilde hdigit hc

/-- The end of a comment comes up on neither side. -/
private theorem commentEnd_notInfix (h : Renumbers same p q) (hp : ¬['*', '/'] <:+: p) :
    ¬['*', '/'] <:+: q := fun hend => hp ((iff_standsFor.1 h.symm).infix_commentEnd hend)

/-- Both texts stand for a third if the literals that correspond do. -/
private theorem exists_standsFor {holds holds' : Nat → List Char → Prop}
    (h : Renumbers (fun i j => ∃ text, holds i text ∧ holds' j text) p q) :
    ∃ text, StandsFor holds p text ∧ StandsFor holds' q text := by
  induction h with
  | nil => exact ⟨[], .nil, .nil⟩
  | @char c part text plain _ ih =>
    obtain ⟨text, hp, hq⟩ := ih
    exact ⟨c :: text, .char plain hp, .char plain hq⟩
  | placeholder held _ ih =>
    obtain ⟨lit, hi, hj⟩ := held
    obtain ⟨text, hp, hq⟩ := ih
    exact ⟨lit ++ text, .literal hi hp, .literal hj hq⟩

/-! ### Searching -/

private theorem span {pred : Char → Bool} (hpred : Uniform pred) (h : Renumbers same p q) :
    Renumbers same (p.takeWhile pred) (q.takeWhile pred) ∧
      Renumbers same (p.dropWhile pred) (q.dropWhile pred) := by
  induction h with
  | nil => exact ⟨.nil, .nil⟩
  | @char c part text plain rest ih =>
    cases hc : pred c with
    | true =>
      rw [List.takeWhile_cons_of_pos hc, List.takeWhile_cons_of_pos hc,
        List.dropWhile_cons_of_pos hc, List.dropWhile_cons_of_pos hc]
      exact ⟨.char plain ih.1, ih.2⟩
    | false =>
      have hneg : ¬pred c = true := by simp [hc]
      rw [List.takeWhile_cons_of_neg hneg, List.takeWhile_cons_of_neg hneg,
        List.dropWhile_cons_of_neg hneg, List.dropWhile_cons_of_neg hneg]
      exact ⟨.nil, .char plain rest⟩
  | @placeholder i j part text held rest ih =>
    rcases hpred with hfirst | hall
    · have hneg : ¬pred '~' = true := by simp [hfirst]
      have hstop : ∀ k cs, (Comment.placeholder k ++ cs).takeWhile pred = [] ∧
          (Comment.placeholder k ++ cs).dropWhile pred = Comment.placeholder k ++ cs :=
        fun _ _ => ⟨List.takeWhile_cons_of_neg hneg, List.dropWhile_cons_of_neg hneg⟩
      rw [(hstop i part).1, (hstop i part).2, (hstop j text).1, (hstop j text).2]
      exact ⟨.nil, .placeholder held rest⟩
    · rw [List.takeWhile_append_of_pos (hall i), List.takeWhile_append_of_pos (hall j),
        List.dropWhile_append_of_pos (hall i), List.dropWhile_append_of_pos (hall j)]
      exact ⟨.placeholder held ih.1, ih.2⟩

/-- The code up to the next slash or line break is renumbered, and so is what follows. -/
private theorem code (h : Renumbers same p q) :
    Renumbers same (codeAfter p) (codeAfter q) ∧
      Renumbers same (behindCode p) (behindCode q) := by
  obtain ⟨hblank, hrest⟩ := h.span uniform_isBlank
  obtain ⟨hcode, hbehind⟩ := hrest.span uniform_code
  have hparts : ∀ cs : List Char, behindCode cs =
      (cs.dropWhile isBlank).dropWhile fun c => c ≠ '/' ∧ c ≠ '\n' := by
    intro cs
    have hcs : cs = codeAfter cs ++
        (cs.dropWhile isBlank).dropWhile fun c => c ≠ '/' ∧ c ≠ '\n' := by
      rw [codeAfter, List.append_assoc, List.takeWhile_append_dropWhile,
        List.takeWhile_append_dropWhile]
    exact behindCode_eq hcs rfl
  rw [hparts, hparts]
  exact ⟨hblank.append hcode, hbehind⟩

/-- A comment that ends in one text ends in the other. -/
private theorem comment (h : Renumbers same p q) {n : Nat} (hn : bodyLength p = some n) :
    ∃ body rest body' rest', p = body ++ '*' :: '/' :: rest ∧ q = body' ++ '*' :: '/' :: rest' ∧
      ¬['*', '/'] <:+: body ∧ ¬['*', '/'] <:+: body' ∧
      Renumbers same body body' ∧ Renumbers same rest rest' := by
  obtain ⟨body, rest, rfl, hbody⟩ := exists_of_bodyLength hn
  obtain ⟨body', after, rfl, hbodies, hafter⟩ := h.split (by decide) (by decide)
  obtain ⟨rest', rfl, hrest⟩ := hafter.of_cons (by decide)
  exact ⟨body, rest, body', rest', rfl, rfl, hbody, hbodies.commentEnd_notInfix hbody, hbodies,
    hrest⟩

/-- Leaving a quote does not look into placeholders. -/
private theorem leaveQuote (h : Renumbers same p q) :
    Renumbers same (Comment.leaveQuote p) (Comment.leaveQuote q) := by
  by_cases hmem : '"' ∈ p
  · obtain ⟨before, after, rfl, hbefore⟩ := List.eq_append_cons_of_mem hmem
    obtain ⟨before', after', rfl, hbefores, hafters⟩ := h.split (by decide) (by decide)
    have hbefore' : '"' ∉ before' := hbefores.notMem (by decide) (by decide) hbefore
    rw [leaveQuote_append hbefore, leaveQuote_append hbefore']
    exact hafters
  · have hmem' : '"' ∉ q := h.notMem (by decide) (by decide) hmem
    rw [leaveQuote_of_notMem hmem, leaveQuote_of_notMem hmem']
    exact h

/-- Two stars are no part of a placeholder. -/
private theorem stars (h : Renumbers same p q) (hp : ['*', '*'] <+: p) :
    ∃ p' q', p = '*' :: '*' :: p' ∧ q = '*' :: '*' :: q' ∧ Renumbers same p' q' := by
  obtain ⟨p', rfl⟩ := hp
  obtain ⟨q₁, rfl, h₁⟩ := h.of_cons (by decide)
  obtain ⟨q', rfl, h₂⟩ := h₁.of_cons (by decide)
  exact ⟨p', q', rfl, rfl, h₂⟩

/-- **The search does not look at the numbers**: it finds as many comments in one text as in the
other, and their parts differ in the numbers only. -/
theorem rawComments (h : Renumbers same p q) :
    List.Forall₂ (fun raw raw' => Renumbers same raw.1 raw'.1 ∧ Renumbers same raw.2 raw'.2)
      (rawComments p) (rawComments q) := by
  induction hn : p.length using Nat.strong_induction_on generalizing p q with
  | _ n ih =>
    subst hn
    cases h with
    | nil => simp [Comment.rawComments]
    | @char c p q plain rest =>
      by_cases hquote : c = '"'
      · subst hquote
        rw [rawComments_quote, rawComments_quote]
        exact ih _ (Nat.lt_succ_of_le (length_leaveQuote_le p)) rest.leaveQuote rfl
      by_cases hslash : c = '/'
      · subst hslash
        by_cases hopen : ['*', '*'] <+: p
        · obtain ⟨p, q, rfl, rfl, hbodies⟩ := rest.stars hopen
          cases hp : bodyLength p with
          | some k =>
            obtain ⟨body, after, body', after', rfl, rfl, hbody, hbody', hbodies, hafters⟩ :=
              hbodies.comment hp
            rw [rawComments_body hbody, rawComments_body hbody']
            refine .cons ⟨hbodies, hafters.code.1⟩ (ih _ ?_ hafters.code.2 rfl)
            have hle : (behindCode after).length ≤ after.length := by simp [behindCode]
            simp only [List.length_cons, List.length_append]
            omega
          | none =>
            have hq : bodyLength q = none := by
              cases hq : bodyLength q with
              | none => rfl
              | some k =>
                obtain ⟨-, -, body, after, -, rfl, -, hbody, -⟩ := hbodies.symm.comment hq
                rw [bodyLength_commentEnd hbody] at hp
                cases hp
            rw [rawComments_unclosed hp, rawComments_unclosed hq]
            exact .nil
        · have hopen' : ¬['*', '*'] <+: q := by
            intro hq
            obtain ⟨-, p', -, rfl, -⟩ := rest.symm.stars hq
            exact hopen ⟨p', rfl⟩
          rw [rawComments_slash hopen, rawComments_slash hopen']
          exact ih _ (by simp) rest rfl
      · rw [rawComments_skip hslash hquote, rawComments_skip hslash hquote]
        exact ih _ (by simp) rest rfl
    | @placeholder i j p q held rest =>
      rw [rawComments_placeholder, rawComments_placeholder]
      refine ih _ ?_ rest rfl
      rw [List.length_append, Comment.placeholder]
      simp

/-- **The comments read are equal** if numbers that correspond name literals of one text. -/
theorem comments_eq {m m' : Masked}
    (h : Renumbers (fun i j => ∃ text, Holds m.literals i text ∧ Holds m'.literals j text) p q) :
    (Comment.rawComments p).filterMap (ofRaw m) =
      (Comment.rawComments q).filterMap (ofRaw m') := by
  have hraws := h.rawComments
  generalize Comment.rawComments p = raws, Comment.rawComments q = raws' at hraws
  induction hraws with
  | nil => rfl
  | @cons raw raw' raws raws' hparts _ ih =>
    obtain ⟨body, hbody, hbody'⟩ := hparts.1.exists_standsFor
    obtain ⟨code, hcode, hcode'⟩ := hparts.2.exists_standsFor
    have hread : ofRaw m raw = ofRaw m' raw' := by
      rw [ofRaw_standsFor hbody hcode, ofRaw_standsFor hbody' hcode']
    rw [List.filterMap_cons, List.filterMap_cons, hread, ih]

end Renumbers

/-! ### Masking -/

/-- What is found at the start of two texts that differ in numbers: nothing in both, or an end
that cuts both in the same place. -/
inductive CutAlike (same : Nat → Nat → Prop) (p q : List Char) : Option Nat → Option Nat → Prop
  | none : CutAlike same p q none none
  | some {n m : Nat} (before : Renumbers same (p.take n) (q.take m))
      (after : Renumbers same (p.drop n) (q.drop m)) : CutAlike same p q (some n) (some m)

/-- A literal that is cut off leaves the same behind, whatever its placeholder. -/
theorem CutAlike.append {same : Nat → Nat → Prop} {p q token token' : List Char}
    {found found' : Option Nat} (h : CutAlike same p q found found')
    (htoken : Renumbers same token token') :
    CutAlike same (token ++ p) (token' ++ q) (found.map (· + token.length))
      (found'.map (· + token'.length)) := by
  cases h with
  | none => exact .none
  | @some n m before after =>
    rw [Option.map_some, Option.map_some, Nat.add_comm n, Nat.add_comm m]
    refine .some ?_ ?_
    · rw [List.take_length_add_append, List.take_length_add_append]
      exact htoken.append before
    · rw [List.drop_length_add_append, List.drop_length_add_append]
      exact after

/-- A string goes on with every character that is neither its quote nor a line break nor a
backslash. -/
theorem stringEnd_cons {quote c : Char} (h : c ≠ '\\') (cs : List Char) :
    stringEnd quote (c :: cs) =
      if c = quote then some 1
      else if c = '\n' then none
      else (stringEnd quote cs).map (· + 1) := by
  rw [stringEnd]
  · simp only [h, false_or]
  · rintro d rest rfl
    exact absurd rfl h

/-- Plain characters belong to the string in which they stand. -/
theorem stringEnd_append {quote : Char} {plain : List Char}
    (h : ∀ c ∈ plain, c ≠ quote ∧ c ≠ '\\' ∧ c ≠ '\n') (cs : List Char) :
    stringEnd quote (plain ++ cs) = (stringEnd quote cs).map (· + plain.length) := by
  induction plain with
  | nil => simp
  | cons c plain ih =>
    obtain ⟨hquote, hslash, hline⟩ := h c List.mem_cons_self
    rw [List.cons_append, stringEnd_cons hslash, if_neg hquote, if_neg hline,
      ih fun d hd => h d (List.mem_cons_of_mem c hd), Option.map_map]
    rfl

section

variable {same : Nat → Nat → Prop} {p q : List Char} {quote : Char}
  (hquote : quote = '\'' ∨ quote = '"')

include hquote

/-- The characters of a placeholder are plain ones. -/
private theorem plain_placeholder (index : Nat) :
    ∀ c ∈ placeholder index, c ≠ quote ∧ c ≠ '\\' ∧ c ≠ '\n' := by
  intro c hc
  refine ⟨?_, ?_, ?_⟩
  · rintro rfl
    rcases hquote with rfl | rfl <;> exact notMem_placeholder (by decide) (by decide) index hc
  · rintro rfl
    exact notMem_placeholder (by decide) (by decide) index hc
  · rintro rfl
    exact notMem_placeholder (by decide) (by decide) index hc

/-- A backslash takes the first tilde of a placeholder, and the rest is plain text. -/
private theorem stringEnd_escaped (index : Nat) (cs : List Char) :
    stringEnd quote ('\\' :: (placeholder index ++ cs)) =
      (stringEnd quote cs).map (· + ('\\' :: placeholder index).length) := by
  obtain ⟨tail, htail⟩ : ∃ tail, placeholder index = '~' :: tail := ⟨_, rfl⟩
  have hplain : ∀ c ∈ tail, c ≠ quote ∧ c ≠ '\\' ∧ c ≠ '\n' := by
    intro c hc
    exact plain_placeholder hquote index c (htail ▸ List.mem_cons_of_mem _ hc)
  rw [htail, List.cons_append, stringEnd, if_neg (by decide), stringEnd_append hplain,
    Option.map_map]
  rfl

/-- **A quoted text is closed at the same place**, whichever placeholders it holds. -/
theorem Renumbers.stringEnd (h : Renumbers same p q) :
    CutAlike same p q (Comment.stringEnd quote p) (Comment.stringEnd quote q) := by
  induction hn : p.length using Nat.strong_induction_on generalizing p q with
  | _ n ih =>
    subst hn
    cases h with
    | nil =>
      rw [Comment.stringEnd]
      exact .none
    | @placeholder i j p q held rest =>
      rw [stringEnd_append (plain_placeholder hquote i),
        stringEnd_append (plain_placeholder hquote j)]
      refine (ih _ ?_ rest rfl).append (.single held)
      rw [List.length_append, Comment.placeholder]
      simp
    | @char c p q plain rest =>
      by_cases hslash : c = '\\'
      · subst hslash
        cases rest with
        | nil =>
          rcases hquote with rfl | rfl <;> exact .none
        | @char d p q plain' rest =>
          by_cases hline : d = '\n'
          · rw [Comment.stringEnd, if_pos hline, Comment.stringEnd, if_pos hline]
            exact .none
          · rw [Comment.stringEnd, if_neg hline, Comment.stringEnd, if_neg hline]
            refine (ih _ ?_ rest rfl).append (.char plain (.char plain' .nil))
            exact Nat.lt_succ_of_lt (Nat.lt_succ_self _)
        | @placeholder i j p q held rest =>
          rw [stringEnd_escaped hquote, stringEnd_escaped hquote]
          refine (ih _ ?_ rest rfl).append (.char plain (.single held))
          rw [List.length_cons, List.length_append]
          omega
      · rw [stringEnd_cons hslash, stringEnd_cons hslash]
        split
        · exact .some (.char plain .nil) rest
        · split
          · exact .none
          · exact (ih _ (by simp) rest rfl).append (.char plain .nil)

end

section

variable {literal : List Char → Option Nat} {same same' : Nat → Nat → Prop}
  {literals literals' : List (List Char)} {p q : List Char}

/-- **A pass over two texts that differ in numbers takes out the same literals**, and leaves texts
that differ in numbers, if the numbers under which the tables hold them are paired. -/
theorem Renumbers.maskFrom (hfinds : FindsLiterals literal)
    (hcut : ∀ {c p q}, c ≠ '~' → Renumbers same p q →
      CutAlike same p q (literal (c :: p)) (literal (c :: q)))
    (hkeep : ∀ i j, same i j → same' i j)
    (hnew : ∀ i j lit lit', literals[i]? = some lit → literals'[j]? = some lit' →
      Renumbers same lit lit' → IsLiteral lit → same' i j)
    (h : Renumbers same p q) {i j : Nat}
    (htable : (maskFrom literal i p).literals <+: literals.drop i)
    (htable' : (maskFrom literal j q).literals <+: literals'.drop j) :
    Renumbers same' (maskFrom literal i p).text (maskFrom literal j q).text := by
  induction hn : p.length using Nat.strong_induction_on generalizing p q i j with
  | _ n ih =>
    subst hn
    cases h with
    | nil =>
      rw [Comment.maskFrom, Comment.maskFrom]
      exact .nil
    | @placeholder k l p q held rest =>
      have hplain : ∀ index, ∀ d ∈ Comment.placeholder index, ∀ ds, literal (d :: ds) = none :=
        fun _ d hd ds => hfinds.eq_none_of_mem_placeholder hd ds
      rw [maskFrom_append (hplain k)] at htable ⊢
      rw [maskFrom_append (hplain l)] at htable' ⊢
      refine .placeholder (hkeep k l held) (ih _ ?_ rest htable htable' rfl)
      rw [List.length_append, Comment.placeholder]
      simp
    | @char c p q plain rest =>
      have hends := hcut plain rest
      cases hp : literal (c :: p) with
      | none =>
        rw [hp] at hends
        generalize hq : literal (c :: q) = found at hends
        cases hends
        rw [maskFrom_cons hp] at htable ⊢
        rw [maskFrom_cons hq] at htable' ⊢
        exact .char plain (ih _ (by simp) rest htable htable' rfl)
      | some n =>
        rw [hp] at hends
        generalize hq : literal (c :: q) = found at hends
        cases hends with
        | @some _ m before after =>
          rw [maskFrom_literal hp] at htable ⊢
          rw [maskFrom_literal hq] at htable' ⊢
          obtain ⟨hfirst, htable⟩ := cons_prefix_drop htable
          obtain ⟨hfirst', htable'⟩ := cons_prefix_drop htable'
          have hpair : same' i j :=
            hnew i j _ _ hfirst hfirst' (.char plain before) (hfinds c p n hp)
          refine .placeholder hpair (ih _ ?_ after htable htable' rfl)
          simp only [List.length_drop, List.length_cons]
          omega

end

/-- Pattern literals are found at the same places, and there is no placeholder in any. -/
private theorem cutAlike_patternLiteral {c : Char} {p q : List Char}
    (h : Renumbers (fun _ _ => False) p q) :
    CutAlike (fun _ _ => False) p q (patternLiteral (c :: p)) (patternLiteral (c :: q)) := by
  obtain ⟨rfl, hplain⟩ := h.eq_of_forall_not fun _ _ => id
  cases patternLiteral (c :: p) with
  | none => exact .none
  | some n =>
    exact .some (.of_notMem fun hmem => hplain (List.mem_of_mem_take hmem))
      (.of_notMem fun hmem => hplain (List.mem_of_mem_drop hmem))

/-- String literals are found at the same places, possibly with other placeholders in them. -/
private theorem cutAlike_stringLiteral {same : Nat → Nat → Prop} {c : Char} {p q : List Char}
    (h : Renumbers same p q) :
    CutAlike same p q (stringLiteral (c :: p)) (stringLiteral (c :: q)) := by
  rw [stringLiteral, stringLiteral]
  split
  · rename_i hquote
    exact h.stringEnd hquote
  · exact .none

/-- A text whose pattern literals are numbered from `i` on, and its string literals from `j` on. -/
def masked (i j : Nat) (cs : List Char) : List Char :=
  (maskFrom stringLiteral j (maskFrom patternLiteral i cs).text).text

/-- A table holds the literals of such a text under their numbers. -/
structure MaskedIn (literals : List (List Char)) (i j : Nat) (cs : List Char) : Prop where
  patterns : (maskFrom patternLiteral i cs).literals <+: literals.drop i
  strings : (maskFrom stringLiteral j (maskFrom patternLiteral i cs).text).literals <+:
    literals.drop j

/-- What the placeholders hold after the first pass: the text of a literal itself. -/
def HoldsText (literals : List (List Char)) (index : Nat) (text : List Char) : Prop :=
  literals[index]? = some text ∧ '~' ∉ text ∧ IsLiteral text

/-- **A source without tildes is masked to the same text up to numbers**, and these name literals
of one text, whatever the numbers begin with. -/
theorem renumbers_mask {cs : List Char} (h : '~' ∉ cs) {literals literals' : List (List Char)}
    {i j i' j' : Nat} (hmask : MaskedIn literals i j cs) (hmask' : MaskedIn literals' i' j' cs) :
    Renumbers (fun k l => ∃ text, Holds literals k text ∧ Holds literals' l text)
      (masked i j cs) (masked i' j' cs) := by
  have hpatterns : Renumbers (fun k l => ∃ text, HoldsText literals k text ∧
      HoldsText literals' l text)
      (maskFrom patternLiteral i cs).text (maskFrom patternLiteral i' cs).text := by
    have hsource : Renumbers (fun _ _ => False) cs cs := .of_notMem h
    refine hsource.maskFrom findsLiterals_pattern (fun _ h => cutAlike_patternLiteral h)
      (fun _ _ => False.elim) (fun k l lit lit' hk hl hlit hisLit => ?_)
      hmask.patterns hmask'.patterns
    obtain ⟨rfl, hplain⟩ := hlit.eq_of_forall_not fun _ _ => id
    exact ⟨lit, ⟨hk, hplain, hisLit⟩, hl, hplain, hisLit⟩
  refine hpatterns.maskFrom findsLiterals_string (fun _ h => cutAlike_stringLiteral h) ?_ ?_
    hmask.strings hmask'.strings
  · rintro k l ⟨text, ⟨hk, hplain, hisLit⟩, hl, -⟩
    exact ⟨text, ⟨⟨text, hk, .of_notMem hplain⟩, hisLit⟩, ⟨text, hl, .of_notMem hplain⟩, hisLit⟩
  · -- the placeholders in a quoted text are completed by one round of restoring
    intro k l lit lit' hk hl hlit hisLit
    obtain ⟨text, htext, htext'⟩ := hlit.exists_standsFor
    have hisText : IsLiteral text := htext.isLiteral (fun _ _ held => held.2.2) hisLit
    exact ⟨text, ⟨⟨lit, hk, htext.restoresTo fun _ _ held => held.1⟩, hisText⟩,
      ⟨lit', hl, htext'.restoresTo fun _ _ held => held.1⟩, hisText⟩

end ApiDocs.Comment
