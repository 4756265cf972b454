import ApiDocs.Proofs.Comment.Scan
import ApiDocs.Session.Script

/-!
# When a file keeps its comments behind the mark of its start

The comment that marks the start of a file ends right before the first character of the file: its
closing slash and the first line of the file are one line to the search for literals, and the code
on that line counts as the code after the mark. Two things follow. **A slash on the first line** may
close a pattern literal that the closing slash opens; then the mark does not end where it should.
**An unpaired double quote in the first code** opens a quoted text in the file itself, but none when
the code is passed over as part of the mark.

`SafeStart` says of a text that neither happens, or that the quote makes no difference, and
`Source.isolated_iff_safeStart` proves that it is exactly the condition for the mark to come first,
alone, and before the same comments that the file has without it.
-/

namespace ApiDocs

open Comment Text

/-- The comments in a part of a masked text. -/
def Comment.Masked.comments (m : Masked) (part : List Char) : List Comment :=
  (rawComments part).filterMap (ofRaw m)

/-- The beginning of a text that lets a mark stand right before it: the slash before the text
opens no pattern literal, and the double quotes in its first code are paired, or the comments
behind that code are the same inside and outside of a quoted text. -/
structure SafeStart (text : String) : Prop where
  pattern : patternLiteral ('/' :: text.toList) = none
  quotes : (codeAfter (mask text.toList).text).count '"' % 2 = 0 ∨
    (mask text.toList).comments (leaveQuote (behindCode (mask text.toList).text)) =
      (mask text.toList).comments (behindCode (mask text.toList).text)

instance (text : String) : Decidable (SafeStart text) :=
  decidable_of_iff (_ ∧ _) ⟨fun h => ⟨h.1, h.2⟩, fun h => ⟨h.pattern, h.quotes⟩⟩

namespace Source

/-- The mark is the first comment of the marked file, and the comments of the file follow it as
they are. -/
def Isolated (f : Source) : Prop :=
  ∃ following, extract f.marked =
    ⟨"@filemarker " ++ f.name ++ " \n", following⟩ :: extract f.text

/-- The text of the mark, from the name of its tag on. -/
def markText (f : Source) : List Char := "@filemarker ".toList ++ f.name.toList ++ [' ', '\n']

/-- The mark up to the slash that closes it. -/
def markOpening (f : Source) : List Char :=
  '\n' :: '/' :: '*' :: '*' :: ' ' :: f.markText ++ ['*']

private theorem toList_marked (f : Source) :
    f.marked.toList = f.markOpening ++ '/' :: f.text.toList := by
  unfold marked markOpening markText
  rw [String.toList_append, String.toList_append, String.toList_append]
  simp

private theorem ofList_markText (f : Source) :
    String.ofList f.markText = "@filemarker " ++ f.name ++ " \n" := by
  unfold markText
  rw [String.ofList_append, String.ofList_append, String.ofList_toList, String.ofList_toList]

/-! ### The mark is plain text -/

section Plain

variable {f : Source} (hname : ∀ c ∈ f.name.toList, c ∉ ['\n', '/', '"', '\'', '~'])

include hname

/-- The mark holds none of the characters that the passes over the text look for, but for the
line end that closes it. -/
private theorem notMem_markText {c : Char} (hc : c ∈ ['/', '"', '\'', '~']) : c ∉ f.markText := by
  unfold markText
  rw [List.mem_append, List.mem_append, not_or, not_or]
  refine ⟨⟨?_, fun hmem => hname c hmem (List.mem_cons_of_mem '\n' hc)⟩, ?_⟩
  all_goals
    simp only [List.mem_cons, List.not_mem_nil, or_false] at hc
    rcases hc with rfl | rfl | rfl | rfl <;> decide

private theorem undecorate_mark (cs : List Char) :
    undecorate true (' ' :: f.markText ++ cs) = f.markText ++ undecorate true cs := by
  have hline : '\n' ∉ "filemarker ".toList ++ f.name.toList ++ [' '] := by
    rw [List.mem_append, List.mem_append, not_or, not_or]
    exact ⟨⟨by decide, fun hmem => hname '\n' hmem List.mem_cons_self⟩, by decide⟩
  have hmark : f.markText = '@' :: ("filemarker ".toList ++ f.name.toList ++ [' '] ++ ['\n']) := by
    unfold markText
    simp
  rw [hmark, List.cons_append, List.cons_append, undecorate, if_pos (by decide), undecorate,
    if_neg (by decide), List.append_assoc _ ['\n'] cs]
  show '@' :: undecorate false _ = _
  rw [undecorate_append hline, List.singleton_append, undecorate_newline]
  simp

private theorem restore_mark (literals : List (List Char)) (cs : List Char) :
    restoreOnce literals (f.markText ++ cs) = f.markText ++ restoreOnce literals cs :=
  restoreOnce_append (notMem_markText hname (by decide)) literals cs

private theorem notMem_starred {c : Char} (hc : c ∈ ['/', '"', '\'', '~']) :
    c ∉ '*' :: '*' :: ' ' :: f.markText ++ ['*'] := by
  have hmark := notMem_markText hname hc
  have hstar : c ≠ '*' := by
    rintro rfl
    exact absurd hc (by decide)
  have hspace : c ≠ ' ' := by
    rintro rfl
    exact absurd hc (by decide)
  simp [hmark, hstar, hspace]

/-- Masking a text with the mark before it masks the text. -/
private theorem mask_markOpening (cs : List Char) :
    mask (f.markOpening ++ cs) = ⟨f.markOpening ++ (mask cs).text, (mask cs).literals⟩ := by
  have hsplit : ∀ cs, f.markOpening ++ cs =
      '\n' :: '/' :: (('*' :: '*' :: ' ' :: f.markText ++ ['*']) ++ cs) := fun _ => rfl
  have hslash : ∀ c ∈ '*' :: '*' :: ' ' :: f.markText ++ ['*'], ∀ cs,
      patternLiteral (c :: cs) = none := fun c hc cs =>
    patternLiteral_of_ne (fun h => notMem_starred hname (by decide) (h ▸ hc)) cs
  have hquote : ∀ c ∈ '*' :: '*' :: ' ' :: f.markText ++ ['*'], ∀ cs,
      stringLiteral (c :: cs) = none := fun c hc cs =>
    stringLiteral_of_ne (fun h => notMem_starred hname (by decide) (h ▸ hc))
      (fun h => notMem_starred hname (by decide) (h ▸ hc)) cs
  -- the slash that opens the mark is followed by a star
  have hpatterns : maskFrom patternLiteral 0 (f.markOpening ++ cs) =
      ⟨f.markOpening ++ (maskFrom patternLiteral 0 cs).text,
        (maskFrom patternLiteral 0 cs).literals⟩ := by
    rw [hsplit, hsplit, maskFrom_cons (patternLiteral_of_ne (by decide) _), maskFrom_cons rfl,
      maskFrom_append hslash]
  have hstrings : ∀ index cs, maskFrom stringLiteral index (f.markOpening ++ cs) =
      ⟨f.markOpening ++ (maskFrom stringLiteral index cs).text,
        (maskFrom stringLiteral index cs).literals⟩ := by
    intro index cs
    rw [hsplit, hsplit, maskFrom_cons (stringLiteral_of_ne (by decide) (by decide) _),
      maskFrom_cons (stringLiteral_of_ne (by decide) (by decide) _), maskFrom_append hquote]
  simp only [mask, hpatterns, hstrings]

/-- The mark ends at its slash if there is one in the masked text. -/
private theorem rawComments_marked (cs : List Char) :
    rawComments (f.markOpening ++ '/' :: cs) =
      (' ' :: f.markText, codeAfter cs) :: rawComments (behindCode cs) := by
  have hslash : '/' ∉ ' ' :: f.markText := by
    simpa using notMem_markText hname (c := '/') (by decide)
  have hsplit : f.markOpening ++ '/' :: cs =
      '\n' :: '/' :: '*' :: '*' :: (' ' :: f.markText ++ '*' :: '/' :: cs) := by
    simp [markOpening]
  have hlength : bodyLength (' ' :: f.markText ++ '*' :: '/' :: cs) =
      some (' ' :: f.markText).length := by
    rw [bodyLength_append hslash fun _ => by simp]
    simp [bodyLength]
  have hafter : (' ' :: f.markText ++ '*' :: '/' :: cs).drop ((' ' :: f.markText).length + 2) =
      cs := by
    rw [List.drop_length_add_append]
    rfl
  rw [hsplit, rawComments_skip (by decide) (by decide), rawComments_comment hlength, hafter,
    List.take_left]

/-- A comment that begins with the mark is read with the mark before the rest of its text. -/
private theorem ofRaw_mark (m : Masked) (cs code : List Char) :
    ∃ following, ofRaw m (' ' :: f.markText ++ cs, code) =
      some ⟨.ofList (f.markText ++ m.restore (undecorate true cs)), following⟩ := by
  have hbody : m.restore (undecorate true (' ' :: f.markText ++ cs)) =
      f.markText ++ m.restore (undecorate true cs) := by
    rw [undecorate_mark hname, Masked.restore, restore_mark hname, restore_mark hname]
    rfl
  have hsome : (strip (f.markText ++ m.restore (undecorate true cs))).isEmpty = false := by
    rw [List.isEmpty_eq_false_iff]
    unfold markText
    exact strip_cons_ne_nil (by decide) _
  simp only [ofRaw, hbody, hsome, Bool.false_eq_true, if_false]
  exact ⟨_, rfl⟩

/-- A pattern literal that begins with the closing slash becomes a part of the mark. -/
private theorem body_of_patternLiteral {n : Nat}
    (hpattern : patternLiteral ('/' :: f.text.toList) = some n) {c : Comment}
    {rest : List Comment} (h : extract f.marked = c :: rest) :
    ∃ cs, c.body = .ofList (f.markText ++ '/' :: cs) := by
  obtain ⟨text, literals, hmask⟩ := mask_of_patternLiteral hpattern
  obtain ⟨m, hm⟩ : ∃ m, m = mask f.marked.toList := ⟨_, rfl⟩
  have hmarked : m = ⟨f.markOpening ++ (placeholder 0 ++ text),
      ('/' :: f.text.toList.take n) :: literals⟩ := by
    rw [hm, toList_marked, mask_markOpening hname, hmask]
  -- the placeholder stands where the mark should end
  have htext : m.text = '\n' :: '/' :: '*' :: '*' ::
      (' ' :: f.markText ++ '*' :: placeholder 0 ++ text) := by
    simp [hmarked, markOpening]
  have hslash : '/' ∉ ' ' :: f.markText ++ '*' :: placeholder 0 := by
    have hmark := notMem_markText hname (c := '/') (by decide)
    have hholder := notMem_placeholder (c := '/') (by decide) (by decide) 0
    simp [hmark, hholder]
  -- and its last tilde keeps the star before it from meeting a slash
  have hlast : (' ' :: f.markText ++ '*' :: placeholder 0).getLast? ≠ some '*' := by
    have hconcat : ' ' :: f.markText ++ '*' :: placeholder 0 =
        (' ' :: f.markText ++ '*' :: (['~', '~', '~'] ++ decimal 0 ++ ['~', '~'])) ++ ['~'] := by
      simp [placeholder]
    rw [hconcat, List.getLast?_concat]
    decide
  have hextract : (rawComments m.text).filterMap (ofRaw m) = c :: rest := by
    rw [hm]
    exact h
  rw [htext, rawComments_skip (by decide) (by decide)] at hextract
  rcases rawComments_begin hslash hlast text with hraw | ⟨body, code, raws, hraw⟩
  · rw [hraw] at hextract
    cases hextract
  · obtain ⟨following, hread⟩ := ofRaw_mark hname m ('*' :: placeholder 0 ++ body) code
    rw [hraw, List.append_assoc, List.filterMap_cons_some hread] at hextract
    cases hextract
    have hrestore : m.restore (undecorate true ('*' :: placeholder 0 ++ body)) =
        '/' :: restoreOnce m.literals (f.text.toList.take n ++
          restoreOnce m.literals (undecorate false body)) := by
      have hfirst : m.literals[0]?.getD (placeholder 0) = ['/'] ++ f.text.toList.take n := by
        rw [hmarked]
        rfl
      rw [List.cons_append, undecorate, if_pos (by decide), undecorate_placeholder, Masked.restore,
        restoreOnce_placeholder, hfirst, List.append_assoc, restoreOnce_append (by decide)]
      rfl
    rw [hrestore]
    exact ⟨_, rfl⟩

/-- Where the closing slash stays, the mark takes the first code of the file, and the search goes
on behind it. -/
private theorem extract_marked_of_none (hpattern : patternLiteral ('/' :: f.text.toList) = none) :
    ∃ following, extract f.marked =
      ⟨"@filemarker " ++ f.name ++ " \n", following⟩ ::
        (mask f.text.toList).comments (behindCode (mask f.text.toList).text) := by
  have hmask : mask f.marked.toList =
      ⟨f.markOpening ++ '/' :: (mask f.text.toList).text, (mask f.text.toList).literals⟩ := by
    rw [toList_marked, mask_markOpening hname, mask_cons hpattern (by decide) (by decide)]
  obtain ⟨following, hread⟩ := ofRaw_mark hname (mask f.marked.toList) []
    (codeAfter (mask f.text.toList).text)
  have hbody : f.markText ++ (mask f.marked.toList).restore (undecorate true []) = f.markText := by
    simp [undecorate, Masked.restore, restoreOnce]
  rw [List.append_nil, hbody, ofList_markText, hmask] at hread
  refine ⟨following, ?_⟩
  -- the literals are those of the file, so its comments are restored as without the mark
  rw [extract, hmask]
  dsimp only
  rw [rawComments_marked hname, List.filterMap_cons_some hread]
  rfl

end Plain

/-- The comments of a file, seen from behind its first code. -/
private theorem extract_eq_comments (text : String) :
    extract text = (mask text.toList).comments
      (if (codeAfter (mask text.toList).text).count '"' % 2 = 0 then
        behindCode (mask text.toList).text
      else leaveQuote (behindCode (mask text.toList).text)) := by
  rw [Masked.comments, ← (rawComments_append (slash_notMem_codeAfter _) _).1,
    codeAfter_append_behindCode]
  rfl

/-- **A mark stands apart from its file exactly if the file has a safe start.** Then it is the
first comment, and the comments of the file follow as they are; otherwise a comment of the file is
lost or changed, or the mark itself is. -/
theorem isolated_iff_safeStart (f : Source)
    (hname : ∀ c ∈ f.name.toList, c ∉ ['\n', '/', '"', '\'', '~']) :
    f.Isolated ↔ SafeStart f.text := by
  cases hpattern : patternLiteral ('/' :: f.text.toList) with
  | some n =>
    refine iff_of_false ?_ ?_
    · rintro ⟨following, h⟩
      obtain ⟨cs, hbody⟩ := body_of_patternLiteral hname hpattern h
      have hlong : f.markText = f.markText ++ '/' :: cs := by
        rw [← ofList_markText, String.ofList_inj] at hbody
        exact hbody
      simp at hlong
    · intro h
      rw [h.pattern] at hpattern
      cases hpattern
  | none =>
    obtain ⟨following, hmarked⟩ := extract_marked_of_none hname hpattern
    have hisolated : f.Isolated ↔
        (mask f.text.toList).comments (behindCode (mask f.text.toList).text) =
          extract f.text := by
      rw [Isolated, hmarked]
      constructor
      · rintro ⟨_, h⟩
        exact (List.cons.inj h).2
      · intro h
        exact ⟨following, by rw [h]⟩
    rw [hisolated, extract_eq_comments]
    split
    · rename_i heven
      exact iff_of_true rfl ⟨hpattern, .inl heven⟩
    · rename_i hodd
      constructor
      · intro h
        exact ⟨hpattern, .inr h.symm⟩
      · intro h
        exact (h.quotes.resolve_left hodd).symm

/-- A blank first line is safe. A division on the first line is not, and neither is a quote that
the line leaves open. -/
theorem isolated_blank_not_division_not_quote :
    (Source.mk "a.js" "a.js" "\n/** @class A */\n").Isolated ∧
      ¬(Source.mk "a.js" "a.js" "x = 1/2;\n/** @class A */\n").Isolated ∧
      ¬(Source.mk "a.js" "a.js" "\"\n/** @class A */\n\"").Isolated :=
  ⟨(isolated_iff_safeStart _ (by simp)).2 (by decide +kernel),
    fun h => absurd ((isolated_iff_safeStart _ (by simp)).1 h) (by decide +kernel),
    fun h => absurd ((isolated_iff_safeStart _ (by simp)).1 h) (by decide +kernel)⟩

end Source

end ApiDocs
