import Mathlib.Data.List.Infix
import ApiDocs.Proofs.Comment.LineByLine

/-!
# Comment marks in quoted text

A text between double quotes may hold anything, a whole documentation comment included, and **is
passed over together with the line it stands on** (`extract_quotedLine_iff`), on one condition.
Pattern literals are taken out before string literals, and the slash that ends a comment in the
quoted text can begin a pattern literal that runs over the closing quote to a slash behind it, say
the first one of a line comment. The quoted text is not recognized then, and everything up to the
next double quote of the source is lost. `Contained` says that this does not happen: every pattern
literal that begins in the quoted text ends in it, as is always so if no slash stands behind it on
the line (`contained_of_notMem`).

The condition is exact because the first pass is greedy. A pattern literal that begins inside
another one cannot run further (`patternLiteral_reach`), so that the literals taken out cross the
closing quote if any does.
-/

namespace ApiDocs.Comment

open Text

/-- A line of code with a text between double quotes in it. -/
def quotedLine (before inside after : String) : String :=
  before ++ "\"" ++ inside ++ "\"" ++ after

/-- Text of one line without quotes and backslashes. -/
def PlainCode (cs : List Char) : Prop := ∀ c ∈ cs, c ∉ ['\n', '\'', '"', '\\']

instance (cs : List Char) : Decidable (PlainCode cs) :=
  List.decidableBAll (fun c => c ∉ ['\n', '\'', '"', '\\']) cs

/-- Every pattern literal that begins in a quoted text ends before the closing quote. -/
def Contained (inside after : List Char) : Prop :=
  ∀ cs ∈ inside.tails, ∀ n ∈ patternLiteral (cs ++ '"' :: after), n < cs.length

instance (inside after : List Char) : Decidable (Contained inside after) :=
  inferInstanceAs
    (Decidable (∀ cs ∈ inside.tails, ∀ n ∈ patternLiteral (cs ++ '"' :: after), n < cs.length))

namespace PlainCode

variable {cs : List Char} (h : PlainCode cs)

include h

private theorem newline : '\n' ∉ cs := fun hmem => h _ hmem (by decide)

theorem single : '\'' ∉ cs := fun hmem => h _ hmem (by decide)

private theorem double : '"' ∉ cs := fun hmem => h _ hmem (by decide)

private theorem backslash : '\\' ∉ cs := fun hmem => h _ hmem (by decide)

end PlainCode

/-! ### The first pass in a quoted text -/

/-- Without a slash behind it on the line, a quoted text may hold anything. -/
theorem contained_of_notMem (inside : List Char) {after : List Char} (h : '/' ∉ after) :
    Contained inside after := by
  intro cs _ n hn
  obtain ⟨d, rest, k, hcs, -, hk, rfl⟩ := exists_of_patternLiteral hn
  obtain ⟨inner, htake, -⟩ := patternEnd_take hk
  by_contra hcross
  -- the literal ends with a slash, and behind the quoted text
  have hlast : ((cs ++ '"' :: after).take (k + 2)).getLast? = some '/' := by
    rw [hcs, List.take_succ_cons, List.take_succ_cons, htake, ← List.cons_append,
      ← List.cons_append, List.getLast?_concat]
  obtain ⟨m, hm⟩ : ∃ m, k + 2 - cs.length = m + 1 := ⟨k + 1 - cs.length, by omega⟩
  rw [List.take_append, hm, List.take_succ_cons, List.getLast?_append_of_ne_nil _ (by simp)]
    at hlast
  rcases List.mem_cons.1 (List.mem_of_getLast? hlast) with hslash | hslash
  · cases hslash
  · exact h (List.mem_of_mem_take hslash)

/-- A pattern literal goes on to the end of any that begins with one of its slashes. -/
private theorem patternEnd_reach {u b : List Char} {n k : Nat}
    (h : patternEnd (u ++ '/' :: b) = some n)
    (hu : u.length < n) (hk : patternLiteral ('/' :: b) = some k) : u.length + 1 + k ≤ n := by
  induction hlength : u.length using Nat.strong_induction_on generalizing u n with
  | _ m ih =>
    subst hlength
    cases u with
    | nil =>
      obtain ⟨d, rest, l, hcs, hd, hl, rfl⟩ := exists_of_patternLiteral hk
      obtain rfl := (List.cons.inj hcs).2
      have hstar : d ≠ '*' := by
        rintro rfl
        exact hd (by decide)
      have hline : d ≠ '\n' := by
        rintro rfl
        exact hd (by decide)
      have hb : patternEnd (d :: rest) = some (l + 1) := by
        rw [patternEnd_cons hstar, if_neg hline, hl]
      rw [List.nil_append, patternEnd_cons (by decide), if_neg (by decide), hb] at h
      cases h
      simp only [List.length_nil]
      omega
    | cons c u =>
      simp only [List.length_cons] at hu ih ⊢
      by_cases hstar : c = '*'
      · subst hstar
        -- the star goes together with the next character, which is no slash
        cases u with
        | nil => cases h
        | cons d u =>
          rw [List.cons_append, List.cons_append, patternEnd] at h
          split at h
          · cases h
          · obtain ⟨l, hl, rfl⟩ := Option.map_eq_some_iff.1 h
            simp only [List.length_cons] at hu ih ⊢
            have hle := ih u.length (by omega) hl (by omega) rfl
            omega
      · rw [List.cons_append, patternEnd_cons hstar] at h
        split at h
        · cases h
        cases hl : patternEnd (u ++ '/' :: b) with
        | some l =>
          rw [hl] at h
          cases h
          have hle := ih u.length (by omega) hl (by omega) rfl
          omega
        | none =>
          rw [hl] at h
          dsimp only at h
          split at h
          · cases h
            omega
          · cases h

/-- **A pattern literal that begins inside another one ends inside it.** -/
theorem patternLiteral_reach {c : Char} {u v : List Char} {n k : Nat}
    (h : patternLiteral (c :: u ++ v) = some n) (hu : (c :: u).length ≤ n)
    (hk : patternLiteral v = some k) : (c :: u).length + k ≤ n := by
  obtain ⟨d, rest, l, hcs, hd, hl, rfl⟩ := exists_of_patternLiteral h
  obtain ⟨e, b, m, rfl, -⟩ := exists_of_patternLiteral hk
  rw [List.cons_append] at hcs
  cases u with
  | nil =>
    -- the second character is no slash
    obtain rfl := (List.cons.inj (List.cons.inj hcs).2).1
    exact absurd (by decide) hd
  | cons f u =>
    obtain rfl := (List.cons.inj (List.cons.inj hcs).2).2
    simp only [List.length_cons] at hu ⊢
    have hle := patternEnd_reach hl (by omega) hk
    omega

private theorem length_drop_lt_cons (c : Char) (cs : List Char) (n : Nat) :
    (cs.drop n).length < (c :: cs).length := by
  rw [List.length_drop, List.length_cons]
  omega

/-- **The quoted text keeps its closing quote** if its pattern literals end in it. -/
theorem maskFrom_contained {inside after : List Char} (h : Contained inside after) (index : Nat) :
    ∃ text k, (maskFrom patternLiteral index (inside ++ '"' :: after)).text =
        text ++ '"' :: (maskFrom patternLiteral k after).text ∧
      ∀ c, c ≠ '~' → isAsciiDigit c = false → c ∉ inside → c ∉ text := by
  induction hn : inside.length using Nat.strong_induction_on generalizing inside index with
  | _ m ih =>
    subst hn
    cases inside with
    | nil =>
      have hnone : patternLiteral ('"' :: after) = none := patternLiteral_of_ne (by decide) _
      rw [List.nil_append, maskFrom_cons hnone]
      exact ⟨[], index, rfl, fun _ _ _ hc => hc⟩
    | cons c inside =>
      rw [List.cons_append]
      cases hfound : patternLiteral (c :: (inside ++ '"' :: after)) with
      | none =>
        have hrest : Contained inside after :=
          fun cs hcs => h cs (List.mem_cons_of_mem _ hcs)
        obtain ⟨text, k, htext, hplain⟩ := ih inside.length (by simp) hrest index rfl
        rw [maskFrom_cons hfound, htext]
        refine ⟨c :: text, k, rfl, fun d htilde hdigit hd => ?_⟩
        rw [List.mem_cons, not_or] at hd ⊢
        exact ⟨hd.1, hplain d htilde hdigit hd.2⟩
      | some n =>
        have hlength : n < (c :: inside).length := h (c :: inside) List.mem_cons_self n hfound
        have hle : n ≤ inside.length := Nat.le_of_lt_succ hlength
        have hrest : Contained (inside.drop n) after := by
          intro cs hcs
          have hsuffix := ((List.mem_tails _ _).1 hcs).trans (List.drop_suffix n inside)
          exact h cs (List.mem_cons_of_mem _ ((List.mem_tails _ _).2 hsuffix))
        obtain ⟨text, k, htext, hplain⟩ :=
          ih _ (length_drop_lt_cons c inside n) hrest (index + 1) rfl
        rw [maskFrom_literal hfound, List.drop_append_of_le_length hle, htext]
        refine ⟨placeholder index ++ text, k, by simp, fun d htilde hdigit hd => ?_⟩
        have hd' : d ∉ inside.drop n :=
          fun hmem => hd (List.mem_cons_of_mem c (List.mem_of_mem_drop hmem))
        exact List.not_mem_append (notMem_placeholder htilde hdigit index)
          (hplain d htilde hdigit hd')

/-- A literal that crosses the closing quote begins behind every one that does not. -/
private theorem not_contained_drop {c : Char} {inside after cs : List Char} {n k : Nat}
    (hfound : patternLiteral (c :: (inside ++ '"' :: after)) = some n) (hlength : n ≤ inside.length)
    (hcs : cs ∈ (c :: inside).tails) (hk : k ∈ patternLiteral (cs ++ '"' :: after))
    (hcross : cs.length ≤ k) : ¬Contained (inside.drop n) after := by
  intro hrest
  rcases List.mem_cons.1 hcs with rfl | hcs
  · rw [List.cons_append, hfound, Option.mem_some] at hk
    rw [List.length_cons] at hcross
    omega
  · obtain ⟨u, rfl⟩ := (List.mem_tails _ _).1 hcs
    rw [List.append_assoc, ← List.cons_append] at hfound
    rw [List.length_append] at hlength
    by_cases hu : n ≤ u.length
    · rw [List.drop_append_of_le_length hu] at hrest
      have hsuffix := (List.mem_tails _ _).2 (List.suffix_append (u.drop n) cs)
      exact absurd (hrest cs hsuffix k hk) (Nat.not_lt.2 hcross)
    · -- it would begin inside the one found here
      have hle := patternLiteral_reach hfound (Nat.lt_of_not_le hu) hk
      rw [List.length_cons] at hle
      omega

/-- **The closing quote is lost** if one of them does not. -/
theorem maskFrom_crossing {inside after : List Char} (h : ¬Contained inside after)
    (hinside : '"' ∉ inside) (hafter : '"' ∉ after) (index : Nat) :
    '"' ∉ (maskFrom patternLiteral index (inside ++ '"' :: after)).text := by
  induction hn : inside.length using Nat.strong_induction_on generalizing inside index with
  | _ m ih =>
    subst hn
    simp only [Contained, not_forall, Option.mem_def, Nat.not_lt] at h
    obtain ⟨cs, hcs, k, hk, hcross⟩ := h
    cases inside with
    | nil =>
      obtain rfl : cs = [] := by simpa using hcs
      rw [List.nil_append, patternLiteral_of_ne (by decide)] at hk
      cases hk
    | cons c inside =>
      have hquote : '"' ∉ inside := fun hmem => hinside (List.mem_cons_of_mem c hmem)
      rw [List.cons_append]
      cases hfound : patternLiteral (c :: (inside ++ '"' :: after)) with
      | none =>
        rw [maskFrom_cons hfound]
        have hc : '"' ≠ c := fun hc => hinside (hc ▸ List.mem_cons_self)
        -- the literal that crosses begins further on
        have hrest : ¬Contained inside after := by
          intro hrest
          rcases List.mem_cons.1 hcs with rfl | hcs
          · rw [List.cons_append, hfound] at hk
            cases hk
          · exact absurd (hrest cs hcs k hk) (Nat.not_lt.2 hcross)
        exact List.not_mem_cons_of_ne_of_not_mem hc (ih _ (by simp) hrest hquote index rfl)
      | some n =>
        rw [maskFrom_literal hfound]
        refine List.not_mem_append (notMem_placeholder (by decide) (by decide) index) ?_
        by_cases hlength : n ≤ inside.length
        · rw [List.drop_append_of_le_length hlength]
          have hrest := not_contained_drop hfound hlength hcs hk hcross
          have hdrop : '"' ∉ inside.drop n := fun hmem => hquote (List.mem_of_mem_drop hmem)
          exact ih _ (length_drop_lt_cons c inside n) hrest hdrop _ rfl
        · obtain ⟨l, rfl⟩ := Nat.exists_eq_add_of_lt (Nat.lt_of_not_le hlength)
          have hdrop : (inside ++ '"' :: after).drop (inside.length + l + 1) = after.drop l := by
            rw [Nat.add_assoc, List.drop_length_add_append, List.drop_succ_cons]
          rw [hdrop]
          exact notMem_maskFrom (by decide) (by decide)
            (fun hmem => hafter (List.mem_of_mem_drop hmem)) _

/-! ### The line -/

section

variable {before inside after : List Char} (hbefore : PlainCode before) (hslash : '/' ∉ before)
  (hinside : PlainCode inside) (hafter : PlainCode after)

include hbefore hslash

/-- Both passes leave the code before the quoted text alone. -/
private theorem masked_before (k : Nat) (cs : List Char) :
    masked 0 k (before ++ cs) =
      before ++ (maskFrom stringLiteral k (maskFrom patternLiteral 0 cs).text).text := by
  have hpattern : ∀ c ∈ before, ∀ cs, patternLiteral (c :: cs) = none :=
    fun c hc => patternLiteral_of_ne fun h => hslash (h ▸ hc)
  have hstring : ∀ c ∈ before, ∀ cs, stringLiteral (c :: cs) = none :=
    fun c hc => stringLiteral_of_ne (fun h => hbefore.single (h ▸ hc))
      fun h => hbefore.double (h ▸ hc)
  rw [masked, maskFrom_append hpattern, maskFrom_append hstring]

include hinside hafter

/-- The line is masked to code without quotes. -/
private theorem masked_contained (h : Contained inside after) (hmark : ¬['/', '*'] <:+: after)
    (k : Nat) :
    '"' ∉ masked 0 k (before ++ '"' :: (inside ++ '"' :: after)) ∧
      ¬['/', '*'] <:+: masked 0 k (before ++ '"' :: (inside ++ '"' :: after)) := by
  obtain ⟨text, i, htext, hplain⟩ := maskFrom_contained h 0
  obtain ⟨tail, htail⟩ : ∃ t, t = (maskFrom patternLiteral i after).text := ⟨_, rfl⟩
  have hquoted : stringLiteral ('"' :: (text ++ '"' :: tail)) = some (text.length + 1) := by
    have htoken : ∀ c ∈ text, c ≠ '"' ∧ c ≠ '\\' ∧ c ≠ '\n' := by
      intro c hc
      refine ⟨?_, ?_, ?_⟩
      · rintro rfl
        exact hplain _ (by decide) (by decide) hinside.double hc
      · rintro rfl
        exact hplain _ (by decide) (by decide) hinside.backslash hc
      · rintro rfl
        exact hplain _ (by decide) (by decide) hinside.newline hc
    rw [stringLiteral, if_pos (.inr rfl), stringEnd_append htoken, stringEnd_cons (by decide),
      if_pos rfl, Option.map_some, Nat.add_comm]
  have hrest : (text ++ '"' :: tail).drop (text.length + 1) = tail := by
    rw [List.drop_length_add_append]
    rfl
  rw [masked_before hbefore hslash, maskFrom_cons (patternLiteral_of_ne (by decide) _), htext,
    ← htail, maskFrom_literal hquoted, hrest]
  constructor
  · have htail' : '"' ∉ tail := htail ▸ notMem_maskFrom (by decide) (by decide) hafter.double i
    exact List.not_mem_append hbefore.double (List.not_mem_append
      (notMem_placeholder (by decide) (by decide) k)
      (notMem_maskFrom (by decide) (by decide) htail' _))
  · intro hin
    have hin := infix_of_notMem hslash hin
    have hin := infix_of_notMem (notMem_placeholder (by decide) (by decide) k) hin
    have hin := pair_infix_maskFrom (by decide) (by decide) (by decide) _ hin
    rw [htail] at hin
    exact hmark (pair_infix_maskFrom (by decide) (by decide) (by decide) i hin)

/-- The line is masked to code with a single quote. -/
private theorem masked_crossing (h : ¬Contained inside after) (k : Nat) :
    ∃ tail, masked 0 k (before ++ '"' :: (inside ++ '"' :: after)) = before ++ '"' :: tail ∧
      '"' ∉ tail := by
  obtain ⟨text, htext⟩ :
      ∃ t, t = (maskFrom patternLiteral 0 (inside ++ '"' :: after)).text := ⟨_, rfl⟩
  have hquote : '"' ∉ text := htext ▸ maskFrom_crossing h hinside.double hafter.double 0
  have hopen : stringLiteral ('"' :: text) = none := by
    rw [stringLiteral, if_pos (.inr rfl)]
    cases hend : stringEnd '"' text with
    | none => rfl
    | some n =>
      obtain ⟨inner, htake, -⟩ := stringEnd_take hend
      have hmem : '"' ∈ text.take n := htake ▸ List.mem_append_right inner List.mem_cons_self
      exact absurd (List.mem_of_mem_take hmem) hquote
  rw [masked_before hbefore hslash, maskFrom_cons (patternLiteral_of_ne (by decide) _), ← htext,
    maskFrom_cons hopen]
  exact ⟨_, rfl, notMem_maskFrom (by decide) (by decide) hquote k⟩

/-- With a single quote on the line, what follows up to the next quote is lost. -/
private theorem extract_crossing (hcross : ¬Contained inside after) :
    extract (.ofList (before ++ '"' :: (inside ++ '"' :: after)) ++ "\n" ++ "/** a */\n\"") =
      [] := by
  obtain ⟨rest, hrest⟩ : ∃ r, r = "/** a */\n".toList := ⟨_, rfl⟩
  have hchars : (String.ofList (before ++ '"' :: (inside ++ '"' :: after)) ++ "\n" ++
      "/** a */\n\"").toList =
        (before ++ '"' :: (inside ++ '"' :: after)) ++ '\n' :: (rest ++ ['"']) := by
    simp [hrest]
  have hline : '\n' ∉ before ++ '"' :: (inside ++ '"' :: after) := by
    simp [hbefore.newline, hinside.newline, hafter.newline]
  obtain ⟨i, j, k, htext, -⟩ := mask_line hline (rest ++ ['"'])
  obtain ⟨tail, htail, hquote⟩ := masked_crossing hbefore hslash hinside hafter hcross k
  -- no literal begins in what follows
  have hpattern : ∀ cs ∈ (rest ++ ['"']).tails, patternLiteral cs = none := by
    rw [hrest]
    decide +kernel
  have hstring : ∀ cs ∈ (rest ++ ['"']).tails, stringLiteral cs = none := by
    rw [hrest]
    decide +kernel
  have hsame : masked i j (rest ++ ['"']) = rest ++ ['"'] := by
    rw [masked, maskFrom_of_forall_none hpattern, maskFrom_of_forall_none hstring]
  -- and the search leaves the quoted text at the last character
  have hlost : rawComments (before ++ '"' :: tail ++ '\n' :: (rest ++ ['"'])) = [] := by
    have hcount : before.count '"' % 2 = 0 := by
      rw [List.count_eq_zero.2 hbefore.double]
    have hnone : '"' ∉ tail ++ '\n' :: rest := by
      rw [hrest]
      exact List.not_mem_append hquote (by decide)
    have hsplit : before ++ '"' :: tail ++ '\n' :: (rest ++ ['"']) =
        before ++ '"' :: ((tail ++ '\n' :: rest) ++ ['"']) := by simp
    rw [hsplit, (rawComments_append hslash _).1, if_pos hcount, rawComments_quote,
      leaveQuote_append hnone, rawComments]
  rw [extract, hchars, htext, htail, hsame, hlost]
  rfl

end

/-- **A text between double quotes is no source of comments**: the line with the text changes
nothing about what is found in the source behind it if and only if every pattern literal that
begins in the text ends in it. -/
theorem extract_quotedLine_iff (before inside after : String) (hbefore : PlainCode before.toList)
    (hslash : '/' ∉ before.toList) (hinside : PlainCode inside.toList)
    (hafter : PlainCode after.toList) (hmark : ¬['/', '*'] <:+: after.toList) :
    (∀ rest : String, '~' ∉ rest.toList →
        extract (quotedLine before inside after ++ "\n" ++ rest) = extract rest) ↔
      Contained inside.toList after.toList := by
  have hchars : (quotedLine before inside after).toList =
      before.toList ++ '"' :: (inside.toList ++ '"' :: after.toList) := by
    simp [quotedLine]
  have hline : '\n' ∉ (quotedLine before inside after).toList := by
    rw [hchars]
    simp [hbefore.newline, hinside.newline, hafter.newline]
  constructor
  · intro hall
    by_contra hcross
    have hfound : extract "/** a */\n\"" = [⟨"a ", some "\""⟩] := by decide +kernel
    have hlost := extract_crossing hbefore hslash hinside hafter hcross
    rw [← hchars, String.ofList_toList, hall _ (by decide), hfound] at hlost
    cases hlost
  · intro hcontained rest hrest
    refine extract_line hline (fun k cs => ?_) hrest
    rw [hchars]
    obtain ⟨hquote, hopen⟩ :=
      masked_contained hbefore hslash hinside hafter hcontained hmark k
    exact rawComments_plainLine hquote hopen cs

/-- Behind the quoted comment a semicolon, and a line comment as well. -/
theorem extract_quotedLine_fake :
    (∀ rest : String, '~' ∉ rest.toList →
        extract (quotedLine "var s = " "/** @class Fake */" ";" ++ "\n" ++ rest) = extract rest) ∧
      ¬∀ rest : String, '~' ∉ rest.toList →
        extract (quotedLine "var s = " "/** @class Fake */" "; // c" ++ "\n" ++ rest) =
          extract rest := by
  have hplain := extract_quotedLine_iff "var s = " "/** @class Fake */" ";" (by decide)
    (by decide) (by decide) (by decide) (by decide)
  have hcomment := extract_quotedLine_iff "var s = " "/** @class Fake */" "; // c" (by decide)
    (by decide) (by decide) (by decide) (by decide)
  exact ⟨hplain.2 (by decide), mt hcomment.1 (by decide)⟩

end ApiDocs.Comment
