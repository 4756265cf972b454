import ApiDocs.Comment.Token
import ApiDocs.Proofs.Text.Trim

/-!
# Where a text is cut

A tag position of a text is the place of an at sign with a word after it, at the start of a line or
after one blank at the start of a line. The blank may be a line end: then an empty line comes before
the tag, and both the blank and the tag are at the start of a line.

The cutting is followed from place to place. At a place that is neither a tag position nor that of a
blank to be lost, one character goes to the text (`tokensAt_plain`); at such a blank, or at a tag
position without one, the whole tag is cut out (`tokensAt_tag`). Where a tag ends, no line starts
and no blank is lost (`after_tag`), so it goes on there as at the start of the text.

**The tokens of a text are cut out at its tag positions** (`tokenize_positions`): the tags are the
at signs and words there, and the texts are what stands between them but for the blanks that are
lost. With these blanks, the tokens are the text again.
-/

namespace ApiDocs.Comment

open Text

/-! ### Tag positions -/

/-- A place is the start of a line. -/
def startsLine (cs : List Char) : Nat → Bool
  | 0 => true
  | i + 1 => cs[i]? == some '\n'

/-- The blank right before a place, if the blank stands at the start of a line. -/
def blankBefore (cs : List Char) : Nat → Option Char
  | 0 => none
  | i + 1 => if startsLine cs i then cs[i]?.filter isBlank else none

/-- An at sign stands at a place, and a character of a word after it. -/
def beginsTag (cs : List Char) (p : Nat) : Bool := cs[p]? == some '@' && cs[p + 1]?.any isWord

/-- **A tag position**: a tag begins there, at the start of a line or one blank after it. -/
def isTagPosition (cs : List Char) (p : Nat) : Bool :=
  beginsTag cs p && (startsLine cs p || (blankBefore cs p).isSome)

/-- **The tag positions of a text**, in order. -/
def tagPositions (cs : List Char) : List Nat := (List.range cs.length).filter (isTagPosition cs)

/-- The tag positions from a place on. -/
def positionsFrom (cs : List Char) (i : Nat) : List Nat :=
  (List.range' i (cs.length - i)).filter (isTagPosition cs)

/-- The at sign at a place and the longest word after it. -/
def tagText (cs : List Char) (p : Nat) : List Char := '@' :: (cs.drop (p + 1)).takeWhile isWord

/-- Where the text before a tag ends: at the tag, or at the blank that is lost before it. -/
def textEnd (cs : List Char) (p : Nat) : Nat := p - (blankBefore cs p).toList.length

/-- Where a tag ends. -/
def tagEnd (cs : List Char) (p : Nat) : Nat := p + (tagText cs p).length

/-- The text from a place on, cut at given places of tags. -/
def cutsFrom (cs : List Char) (i : Nat) : List Nat → List (List Char)
  | [] => [cs.extract i cs.length]
  | p :: ps => cs.extract i (textEnd cs p) :: tagText cs p :: cutsFrom cs (tagEnd cs p) ps

/-- Tokens put together, each tag with the blank that was lost before it. -/
def joinTokens (cs : List Char) : List Nat → List (List Char) → List Char
  | p :: ps, text :: tag :: tokens =>
    text ++ (blankBefore cs p).toList ++ tag ++ joinTokens cs ps tokens
  | _, tokens => tokens.flatten

/-! ### The tags of a text -/

section Cut

variable {cs : List Char} {i j p : Nat}

/-- The text from a place on begins with the character there. -/
private theorem drop_eq_cons {c : Char} (hc : cs[i]? = some c) :
    cs.drop i = c :: cs.drop (i + 1) := by
  obtain ⟨hi, rfl⟩ := List.getElem?_eq_some_iff.1 hc
  exact List.drop_eq_getElem_cons hi

/-- A piece of the text begins with its first character. -/
private theorem extract_eq_cons {e : Nat} {c : Char} (hc : cs[i]? = some c) (h : i < e) :
    cs.extract i e = c :: cs.extract (i + 1) e := by
  obtain ⟨n, rfl⟩ := Nat.exists_eq_add_of_lt h
  rw [List.extract_eq_take_drop, List.extract_eq_take_drop, drop_eq_cons hc]
  have hlong : i + n + 1 - i = n + 1 := by omega
  have hshort : i + n + 1 - (i + 1) = n := by omega
  rw [hlong, hshort, List.take_succ_cons]

private theorem beginsTag_of_isTagPosition (h : isTagPosition cs p = true) :
    beginsTag cs p = true :=
  (Bool.and_eq_true_iff.1 h).1

/-- Tags begin with an at sign. -/
private theorem isTagPosition_eq_false {c : Char} (hc : cs[i]? = some c) (h : c ≠ '@') :
    isTagPosition cs i = false := by
  have hat : (some c == some '@') = false :=
    beq_eq_false_iff_ne.2 fun heq => h (Option.some.inj heq)
  rw [isTagPosition, beginsTag, hc, hat, Bool.false_and, Bool.false_and]

/-- The tag positions of a text are those of its parts. -/
private theorem positionsFrom_append (h : i ≤ j) (hj : j ≤ cs.length) :
    positionsFrom cs i =
      (List.range' i (j - i)).filter (isTagPosition cs) ++ positionsFrom cs j := by
  have hrange : List.range' i (cs.length - i) =
      List.range' i (j - i) ++ List.range' j (cs.length - j) := by
    have hsplit := @List.range'_append_1 i (j - i) (cs.length - j)
    have hlength : j - i + (cs.length - j) = cs.length - i := by omega
    rw [Nat.add_sub_cancel' h, hlength] at hsplit
    exact hsplit.symm
  rw [positionsFrom, hrange, List.filter_append, positionsFrom]

/-- A part without tags has no positions. -/
private theorem positionsFrom_skip (h : i ≤ j) (hj : j ≤ cs.length)
    (hnone : ∀ p, i ≤ p → p < j → isTagPosition cs p = false) :
    positionsFrom cs i = positionsFrom cs j := by
  rw [positionsFrom_append h hj, List.filter_eq_nil_iff.2, List.nil_append]
  intro p hp
  rw [List.mem_range'_1] at hp
  rw [hnone p hp.1 (by omega)]
  exact Bool.false_ne_true

/-- A tag position is the first one from there on. -/
private theorem positionsFrom_eq_cons (h : isTagPosition cs p = true) (hp : p < cs.length) :
    positionsFrom cs p = p :: positionsFrom cs (p + 1) := by
  rw [positionsFrom_append (Nat.le_succ p) hp]
  simp [h]

/-- The word of a tag is the longest one behind the at sign. -/
private theorem tagWord_drop (cs : List Char) (p : Nat) : tagWord (cs.drop p) =
    if beginsTag cs p then some ((cs.drop (p + 1)).takeWhile isWord) else none := by
  rw [beginsTag]
  cases hc : cs[p]? with
  | none =>
    rw [List.drop_eq_nil_of_le (List.getElem?_eq_none_iff.1 hc)]
    rfl
  | some c =>
    rw [drop_eq_cons hc]
    by_cases hat : c = '@'
    · have hhead : cs[p + 1]? = (cs.drop (p + 1)).head? := by rw [List.head?_drop]
      rw [hat, hhead, tagWord]
      cases hrest : cs.drop (p + 1) with
      | nil => rfl
      | cons d rest => cases hd : isWord d <;> simp [hd]
    · have hnone : (some c == some '@') = false := by simpa using hat
      rw [hnone, Bool.false_and, if_neg Bool.false_ne_true, tagWord.eq_def]
      split
      · rename_i rest hcons
        exact absurd (List.cons.inj hcons).1 hat
      · rfl

private theorem lt_tagEnd (cs : List Char) (p : Nat) : p < tagEnd cs p := by
  rw [tagEnd, tagText, List.length_cons]
  omega

private theorem isWord_of_lt_tagEnd {q : Nat} (hpq : p < q) (hq : q < tagEnd cs p) :
    ∃ c, cs[q]? = some c ∧ isWord c = true := by
  obtain ⟨k, rfl⟩ := Nat.exists_eq_add_of_lt hpq
  rw [tagEnd, tagText, List.length_cons] at hq
  have hk : k < ((cs.drop (p + 1)).takeWhile isWord).length := by omega
  refine ⟨((cs.drop (p + 1)).takeWhile isWord)[k], ?_, List.mem_takeWhile_imp (List.getElem_mem hk)⟩
  have hprefix : (cs.drop (p + 1)).takeWhile isWord <+: cs.drop (p + 1) :=
    List.takeWhile_prefix isWord
  have hdrop := List.prefix_iff_getElem?.1 hprefix k hk
  rw [List.getElem?_drop, Nat.add_right_comm] at hdrop
  exact hdrop

/-- The word ends where the tag does. -/
private theorem drop_tagEnd (cs : List Char) (p : Nat) :
    (cs.drop (p + 1)).drop ((cs.drop (p + 1)).takeWhile isWord).length =
      cs.drop (tagEnd cs p) := by
  rw [List.drop_drop, Nat.add_assoc, Nat.add_comm 1]
  rfl

/-- A tag is its text, and the rest of the line is behind it. -/
private theorem drop_tag (h : beginsTag cs p = true) :
    cs.drop p = tagText cs p ++ cs.drop (tagEnd cs p) := by
  have hat : cs[p]? = some '@' := beq_iff_eq.1 (Bool.and_eq_true_iff.1 h).1
  have hword := List.prefix_iff_eq_append.1 (List.takeWhile_prefix isWord (l := cs.drop (p + 1)))
  rw [drop_tagEnd] at hword
  rw [drop_eq_cons hat, tagText, List.cons_append, hword]

/-- A tag ends with a character of a word. -/
private theorem exists_tagEnd_eq (h : beginsTag cs p = true) :
    ∃ q c, tagEnd cs p = q + 1 ∧ p < q ∧ cs[q]? = some c ∧ isWord c = true := by
  have hword : 0 < ((cs.drop (p + 1)).takeWhile isWord).length := by
    have hnext : cs[p + 1]?.any isWord = true := (Bool.and_eq_true_iff.1 h).2
    rw [← List.head?_drop] at hnext
    cases hrest : cs.drop (p + 1) with
    | nil =>
      rw [hrest] at hnext
      cases hnext
    | cons c rest =>
      rw [hrest] at hnext
      have hc : isWord c = true := hnext
      rw [List.takeWhile_cons_of_pos hc]
      exact Nat.succ_pos _
  have hend : p + 1 < tagEnd cs p := by
    rw [tagEnd, tagText, List.length_cons]
    omega
  obtain ⟨q, hq⟩ : ∃ q, tagEnd cs p = q + 1 := ⟨tagEnd cs p - 1, by omega⟩
  have hpq : p < q := by omega
  obtain ⟨c, hc, hcword⟩ := isWord_of_lt_tagEnd hpq (by rw [hq]; exact Nat.lt_succ_self q)
  exact ⟨q, c, hq, hpq, hc, hcword⟩

private theorem tagEnd_le (h : beginsTag cs p = true) : tagEnd cs p ≤ cs.length := by
  obtain ⟨q, c, hq, -, hc, -⟩ := exists_tagEnd_eq h
  rw [hq]
  exact (List.getElem?_eq_some_iff.1 hc).1

/-- **Where a tag ends**, no line starts and no blank is lost: a character of a word is neither a
line end nor a blank. -/
theorem after_tag (h : beginsTag cs p = true) :
    startsLine cs (tagEnd cs p) = false ∧ blankBefore cs (tagEnd cs p) = none := by
  obtain ⟨q, c, hq, -, hc, hword⟩ := exists_tagEnd_eq h
  have hline : (c == '\n') = false := by
    rw [beq_eq_false_iff_ne]
    rintro rfl
    exact absurd hword (by decide +kernel)
  rw [hq, startsLine, blankBefore, hc]
  refine ⟨hline, ?_⟩
  split
  · rw [Option.filter_some, isBlank_of_isWord hword, if_neg Bool.false_ne_true]
  · rfl

/-- No tag begins within another one. -/
private theorem positionsFrom_tagPosition (h : isTagPosition cs p = true) :
    positionsFrom cs p = p :: positionsFrom cs (tagEnd cs p) := by
  have hbegins := beginsTag_of_isTagPosition h
  have hend := tagEnd_le hbegins
  rw [positionsFrom_eq_cons h (Nat.lt_of_lt_of_le (lt_tagEnd cs p) hend),
    positionsFrom_skip (lt_tagEnd cs p) hend]
  intro q hpq hq
  obtain ⟨c, hc, hword⟩ := isWord_of_lt_tagEnd hpq hq
  exact isTagPosition_eq_false hc fun hat => absurd (hat ▸ hword) (by decide +kernel)

/-- Where the text before a tag ends: at the blank that is lost, or at the tag itself. -/
private theorem textEnd_cases (h : isTagPosition cs p = true) :
    (blankBefore cs p = none ∧ textEnd cs p = p ∧ startsLine cs p = true) ∨
      ∃ q b, p = q + 1 ∧ blankBefore cs p = some b ∧ textEnd cs p = q ∧ startsLine cs q = true ∧
        cs[q]? = some b ∧ isBlank b = true := by
  cases hblank : blankBefore cs p with
  | none =>
    have hstart : (startsLine cs p || (blankBefore cs p).isSome) = true :=
      (Bool.and_eq_true_iff.1 h).2
    rw [hblank, Option.isSome_none, Bool.or_false] at hstart
    exact .inl ⟨rfl, by rw [textEnd, hblank]; rfl, hstart⟩
  | some b =>
    cases p with
    | zero => cases hblank
    | succ q =>
      have hend : textEnd cs (q + 1) = q := by
        rw [textEnd, hblank]
        rfl
      rw [blankBefore] at hblank
      split at hblank
      · rename_i hstart
        obtain ⟨hb, hbblank⟩ := Option.filter_eq_some_iff.1 hblank
        exact .inr ⟨q, b, rfl, rfl, hend, hstart, hb, hbblank⟩
      · cases hblank

/-- Anything but a tag position can be passed over. -/
private theorem positionsFrom_succ (hi : i < cs.length) (h : isTagPosition cs i = false) :
    positionsFrom cs i = positionsFrom cs (i + 1) := by
  refine positionsFrom_skip (Nat.le_succ i) hi fun p hip hp => ?_
  rwa [Nat.le_antisymm (Nat.lt_succ_iff.1 hp) hip]

/-- The blank before a tag is dropped, and the tag comes next. -/
private theorem positionsFrom_textEnd (h : isTagPosition cs p = true) :
    positionsFrom cs (textEnd cs p) = p :: positionsFrom cs (tagEnd cs p) := by
  rw [← positionsFrom_tagPosition h]
  obtain ⟨-, hend, -⟩ | ⟨q, b, rfl, -, hend, -, hb, hblank⟩ := textEnd_cases h
  · rw [hend]
  · rw [hend, positionsFrom_succ (List.getElem?_eq_some_iff.1 hb).1
      (isTagPosition_eq_false hb fun hat => absurd (hat ▸ hblank) (by decide))]

/-! ### From place to place -/

/-- The tokens of a text from a place on. -/
def tokensAt (cs : List Char) (i : Nat) : List Char × List (List Char) :=
  tokensFrom (startsLine cs i) (cs.drop i)

private theorem tokensAt_length (cs : List Char) : tokensAt cs cs.length = ([], []) := by
  rw [tokensAt, List.drop_length, tokensFrom]

/-- A character stays in the text if no tag position is there, and none after it to lose it. -/
private theorem tokensAt_plain {c : Char} (hc : cs[i]? = some c)
    (hhere : isTagPosition cs i = false)
    (hnext : isTagPosition cs (i + 1) = true → blankBefore cs (i + 1) = none) :
    tokensAt cs i = (c :: (tokensAt cs (i + 1)).1, (tokensAt cs (i + 1)).2) := by
  have hnone : (if startsLine cs i then lineTag (c :: cs.drop (i + 1)) else none) = none := by
    split
    · rename_i hstart
      rw [lineTag, ← drop_eq_cons hc, tagWord_drop, tagWord_drop]
      split
      · rename_i hblank
        have hlost : blankBefore cs (i + 1) = some c := by
          rw [blankBefore, if_pos hstart, hc, Option.filter_some, if_pos hblank]
        have hbegins : beginsTag cs (i + 1) = false := by
          by_contra h
          rw [Bool.not_eq_false] at h
          rw [hnext (by rw [isTagPosition, h, hlost]; simp)] at hlost
          cases hlost
        rw [if_neg (by rw [hbegins]; exact Bool.false_ne_true)]
        rfl
      · rw [isTagPosition, hstart, Bool.true_or, Bool.and_true] at hhere
        rw [if_neg (by rw [hhere]; exact Bool.false_ne_true)]
        rfl
    · rfl
  have hline : startsLine cs (i + 1) = (c == '\n') := by
    rw [startsLine, hc]
    rfl
  rw [tokensAt, drop_eq_cons hc, tokensFrom, hnone, tokensAt, hline]

/-- The whole tag is cut out, with the blank before it. -/
private theorem tokensAt_tag (h : isTagPosition cs p = true) :
    tokensAt cs (textEnd cs p) =
      ([], tagText cs p :: (tokensAt cs (tagEnd cs p)).1 :: (tokensAt cs (tagEnd cs p)).2) := by
  have hbegins := beginsTag_of_isTagPosition h
  have hat : cs[p]? = some '@' := beq_iff_eq.1 (Bool.and_eq_true_iff.1 hbegins).1
  have hword := tagWord_drop cs p
  rw [if_pos hbegins] at hword
  obtain ⟨-, hend, hstart⟩ | ⟨q, b, rfl, -, hend, hstart, hb, hblank⟩ := textEnd_cases h
  · have hfound : (if startsLine cs p then lineTag ('@' :: cs.drop (p + 1)) else none) =
        some ((cs.drop (p + 1)).takeWhile isWord,
          ((cs.drop (p + 1)).takeWhile isWord).length + 1) := by
      rw [if_pos hstart, lineTag, ← drop_eq_cons hat, hword]
      rfl
    rw [hend, tokensAt, drop_eq_cons hat, tokensFrom, hfound, tokensAt, (after_tag hbegins).1]
    simp only [Nat.add_sub_cancel, drop_tagEnd]
    rfl
  · have hfound : (if startsLine cs q then lineTag (b :: cs.drop (q + 1)) else none) =
        some ((cs.drop (q + 2)).takeWhile isWord,
          ((cs.drop (q + 2)).takeWhile isWord).length + 2) := by
      rw [if_pos hstart, lineTag, hword, if_pos hblank]
      rfl
    have hrest : (cs.drop (q + 1)).drop (((cs.drop (q + 2)).takeWhile isWord).length + 2 - 1) =
        cs.drop (tagEnd cs (q + 1)) := by
      rw [List.drop_drop]
      rfl
    rw [hend, tokensAt, drop_eq_cons hb, tokensFrom, hfound, tokensAt, (after_tag hbegins).1]
    simp only [hrest]
    rfl

/-- A text from a place on is cut at its tag positions, and can be put together again. -/
structure IsCut (cs : List Char) (i : Nat) (parts : List Char × List (List Char)) : Prop where
  cuts : parts.1 :: parts.2 = cutsFrom cs i (positionsFrom cs i)
  joined : joinTokens cs (positionsFrom cs i) (parts.1 :: parts.2) = cs.drop i

/-- The text before a tag ends no sooner than the tag or the blank before it begins. -/
private theorem lt_textEnd (h : isTagPosition cs p = true) (hip : i < p)
    (hnext : isTagPosition cs (i + 1) = true → blankBefore cs (i + 1) = none) :
    i < textEnd cs p := by
  obtain ⟨-, hend, -⟩ | ⟨q, b, rfl, hblank, hend, -⟩ := textEnd_cases h
  · rwa [hend]
  · rw [hend]
    refine Nat.lt_of_le_of_ne (Nat.lt_succ_iff.1 hip) ?_
    rintro rfl
    rw [hnext h] at hblank
    cases hblank

/-- A character before the next tag belongs to the first text. -/
private theorem cutsFrom_cons {c : Char} {text : List Char} {tokens : List (List Char)}
    {ps : List Nat}
    (hc : cs[i]? = some c) (hps : ∀ p ∈ ps, i < textEnd cs p)
    (h : text :: tokens = cutsFrom cs (i + 1) ps) :
    (c :: text) :: tokens = cutsFrom cs i ps := by
  cases ps with
  | nil =>
    obtain ⟨rfl, rfl⟩ := List.cons.inj h
    rw [cutsFrom, extract_eq_cons hc (List.getElem?_eq_some_iff.1 hc).1]
  | cons p ps =>
    obtain ⟨rfl, rfl⟩ := List.cons.inj h
    rw [cutsFrom, extract_eq_cons hc (hps p List.mem_cons_self)]

private theorem joinTokens_cons (c : Char) (text : List Char) (tokens : List (List Char))
    (ps : List Nat) :
    joinTokens cs ps ((c :: text) :: tokens) = c :: joinTokens cs ps (text :: tokens) := by
  cases ps with
  | nil => rfl
  | cons p ps => cases tokens <;> rfl

/-- A character that is no tag and is not dropped goes to the text before. -/
private theorem IsCut.plain {c : Char} {parts : List Char × List (List Char)} (hc : cs[i]? = some c)
    (hhere : isTagPosition cs i = false)
    (hnext : isTagPosition cs (i + 1) = true → blankBefore cs (i + 1) = none)
    (h : IsCut cs (i + 1) parts) : IsCut cs i (c :: parts.1, parts.2) := by
  have hpositions := positionsFrom_succ (List.getElem?_eq_some_iff.1 hc).1 hhere
  constructor
  · rw [hpositions]
    refine cutsFrom_cons hc (fun p hp => ?_) h.cuts
    obtain ⟨hrange, htag⟩ := List.mem_filter.1 hp
    exact lt_textEnd htag (List.mem_range'_1.1 hrange).1 hnext
  · rw [hpositions, joinTokens_cons, h.joined, drop_eq_cons hc]

/-- A tag ends the text before it and begins a new one. -/
private theorem IsCut.tag {parts : List Char × List (List Char)} (hp : isTagPosition cs p = true)
    (h : IsCut cs (tagEnd cs p) parts) :
    IsCut cs (textEnd cs p) ([], tagText cs p :: parts.1 :: parts.2) := by
  have hpositions := positionsFrom_textEnd hp
  constructor
  · have hempty : cs.extract (textEnd cs p) (textEnd cs p) = [] := by simp
    rw [hpositions, cutsFrom, hempty, ← h.cuts]
  · have htag := drop_tag (beginsTag_of_isTagPosition hp)
    rw [hpositions, joinTokens, h.joined, List.nil_append, List.append_assoc,
      ← htag]
    obtain ⟨hblank, hend, -⟩ | ⟨q, b, rfl, hblank, hend, -, hb, -⟩ := textEnd_cases hp
    · rw [hblank, hend]
      rfl
    · rw [hblank, hend, drop_eq_cons hb]
      rfl

/-- **A text is cut at its tag positions** from any place on that does not come right after a blank
to be lost. -/
theorem isCut_tokensAt (hi : i ≤ cs.length)
    (hrest : isTagPosition cs i = true → blankBefore cs i = none) :
    IsCut cs i (tokensAt cs i) := by
  induction hn : cs.length - i using Nat.strong_induction_on generalizing i with
  | _ n ih =>
    subst hn
    -- a tag is cut out from where the text before it ends, and the rest from where the tag ends
    have htag {p : Nat} (hp : isTagPosition cs p = true) (hip : i ≤ p) (hend : textEnd cs p = i) :
        IsCut cs i (tokensAt cs i) := by
      have hbegins := beginsTag_of_isTagPosition hp
      have hlt := lt_tagEnd cs p
      have hle := tagEnd_le hbegins
      have hafter := ih _ (by omega) hle (fun _ => (after_tag hbegins).2) rfl
      rw [← hend, tokensAt_tag hp]
      exact hafter.tag hp
    rcases Nat.lt_or_eq_of_le hi with hi | rfl
    · obtain ⟨c, hc⟩ : ∃ c, cs[i]? = some c := ⟨_, List.getElem?_eq_getElem hi⟩
      by_cases hhere : isTagPosition cs i = true
      · refine htag hhere (Nat.le_refl i) ?_
        rw [textEnd, hrest hhere]
        rfl
      · by_cases hnext : isTagPosition cs (i + 1) = true → blankBefore cs (i + 1) = none
        · rw [Bool.not_eq_true] at hhere
          rw [tokensAt_plain hc hhere hnext]
          exact IsCut.plain hc hhere hnext (ih _ (by omega) hi hnext rfl)
        · -- the character is the blank that the tag after it loses
          obtain ⟨hp, hblank⟩ := Classical.not_imp.1 hnext
          obtain ⟨b, hb⟩ := Option.ne_none_iff_exists'.1 hblank
          refine htag hp (Nat.le_succ i) ?_
          rw [textEnd, hb]
          rfl
    · have hnone : positionsFrom cs cs.length = [] := by simp [positionsFrom]
      rw [tokensAt_length]
      constructor
      · rw [hnone, cutsFrom]
        simp
      · rw [hnone, List.drop_length]
        rfl

end Cut

/-! ### The tokens by their places -/

/-- Where a text between tags begins: at a given place, or behind the tag before it. -/
def textStart (cs : List Char) (i : Nat) (ps : List Nat) : Nat → Nat
  | 0 => i
  | k + 1 => ps[k]?.elim cs.length (tagEnd cs)

/-- Texts and tags alternate, with a text at either end. -/
private theorem length_cutsFrom (cs : List Char) (i : Nat) (ps : List Nat) :
    (cutsFrom cs i ps).length = 2 * ps.length + 1 := by
  induction ps generalizing i with
  | nil => rfl
  | cons p ps ih =>
    rw [cutsFrom, List.length_cons, List.length_cons, ih, List.length_cons]
    omega

/-- At odd places there are the tags. -/
private theorem cutsFrom_odd (cs : List Char) (i : Nat) (ps : List Nat) (k : Nat) :
    (cutsFrom cs i ps)[2 * k + 1]? = ps[k]?.map (tagText cs) := by
  induction ps generalizing i k with
  | nil => simp [cutsFrom]
  | cons p ps ih =>
    cases k with
    | zero => rfl
    | succ k => exact ih (tagEnd cs p) k

/-- At even places there are the texts between them. -/
private theorem cutsFrom_even (cs : List Char) (i : Nat) {ps : List Nat} {k : Nat}
    (hk : k ≤ ps.length) :
    (cutsFrom cs i ps)[2 * k]? =
      some (cs.extract (textStart cs i ps k) (ps[k]?.elim cs.length (textEnd cs))) := by
  induction ps generalizing i k with
  | nil =>
    obtain rfl := Nat.le_zero.1 hk
    rfl
  | cons p ps ih =>
    cases k with
    | zero => rfl
    | succ k =>
      have htext := ih (tagEnd cs p) (Nat.le_of_succ_le_succ hk)
      cases k with
      | zero => exact htext
      | succ k => exact htext

/-- **The tokens are cut out at the tag positions.** Their number is odd; the second one, the fourth
one and so on are the tags at the tag positions, in order; the others are the texts from behind one
tag to the next one, without the blank, if any, that stands before a tag at the start of a line. The
tokens and these blanks together are the text. -/
theorem tokenize_positions (body : String) :
    let cs := body.toList
    let ps := tagPositions cs
    let tokens := (tokenize body).map String.toList
    tokens.length = 2 * ps.length + 1 ∧
      (∀ k, tokens[2 * k + 1]? = ps[k]?.map (tagText cs)) ∧
      (∀ k ≤ ps.length, tokens[2 * k]? =
        some (cs.extract (textStart cs 0 ps k) (ps[k]?.elim cs.length (textEnd cs)))) ∧
      joinTokens cs ps tokens = cs := by
  have hcut : IsCut body.toList 0 (tokensAt body.toList 0) :=
    isCut_tokensAt (Nat.zero_le _) fun _ => rfl
  have htokens : (tokenize body).map String.toList =
      (tokensAt body.toList 0).1 :: (tokensAt body.toList 0).2 := by
    simp [tokenize, tokensAt, startsLine]
  have hpositions : tagPositions body.toList = positionsFrom body.toList 0 := by
    rw [tagPositions, List.range_eq_range', positionsFrom, Nat.sub_zero]
  simp only [htokens, hpositions, hcut.cuts]
  refine ⟨length_cutsFrom _ _ _, cutsFrom_odd _ _ _, fun k hk => cutsFrom_even _ _ hk, ?_⟩
  rw [← hcut.cuts, hcut.joined, List.drop_zero]

/-- The blank before a tag may be a line end, and another line end may end the tag before it. -/
example : tagPositions "@a\n\n@b @c\n\n\t@d\n  @e".toList = [0, 4, 12] ∧
    tokenize "@a\n\n@b @c\n\n\t@d\n  @e" =
      ["", "@a", "\n", "@b", " @c\n\n", "@d", "\n  @e"] := by
  decide +kernel

end ApiDocs.Comment
