import ApiDocs.Proofs.Comment.Scan

/-!
# Comments that are no documentation

A block comment with a single star is none of the search's business: **whatever stands in it, and
whatever source follows, the comments found are those of the source behind it**
(`extract_ordinary_iff`). Masking leaves such a comment alone, since its text holds no delimiter
and no literal begins with a slash and a star, and the search passes over it character by
character.

The one exception is the empty comment. Its two stars and its second slash open a documentation
comment that is not closed yet, so that everything up to the next comment end is taken for its text
(`extract_empty`): the comment that follows is swallowed with its opening mark.
-/

namespace ApiDocs.Comment

open Text

/-- An ordinary comment, with its line end. -/
def ordinary (text : String) : String := "/*" ++ text ++ "*/\n"

/-- An ordinary comment is not masked. -/
private theorem mask_ordinary {text : List Char} (hplain : ∀ c ∈ text, c ∉ ['/', '\'', '"'])
    (cs : List Char) :
    mask ('/' :: '*' :: (text ++ '*' :: '/' :: '\n' :: cs)) =
      ⟨'/' :: '*' :: (text ++ '*' :: '/' :: '\n' :: (mask cs).text), (mask cs).literals⟩ := by
  have hopening : patternLiteral ('/' :: '*' :: (text ++ '*' :: '/' :: '\n' :: cs)) = none := by
    simp [patternLiteral]
  have hclosing : patternLiteral ('/' :: '\n' :: cs) = none := by
    have hblank : isBlank '\n' = true := by decide
    simp [patternLiteral, hblank]
  rw [mask_cons hopening (by decide) (by decide),
    mask_cons (patternLiteral_of_ne (by decide) _) (by decide) (by decide),
    mask_append hplain,
    mask_cons (patternLiteral_of_ne (by decide) _) (by decide) (by decide),
    mask_cons hclosing (by decide) (by decide),
    mask_cons (patternLiteral_of_ne (by decide) _) (by decide) (by decide)]

/-- The search passes over an ordinary comment that is not empty. -/
private theorem rawComments_ordinary {text : List Char} (hplain : ∀ c ∈ text, c ∉ ['/', '\'', '"'])
    (hstar : text.head? ≠ some '*') (hne : text ≠ []) (cs : List Char) :
    rawComments ('/' :: '*' :: (text ++ '*' :: '/' :: '\n' :: cs)) = rawComments cs := by
  obtain ⟨c, text, rfl⟩ := List.exists_cons_of_ne_nil hne
  have hopening : ¬['*', '*'] <+: '*' :: (c :: text ++ '*' :: '/' :: '\n' :: cs) := by
    intro hprefix
    have hc := (List.cons_prefix_cons.1 (List.cons_prefix_cons.1 hprefix).2).1
    exact hstar (by rw [hc]; rfl)
  have hclosing : ¬['*', '*'] <+: '\n' :: cs := by simp
  -- the marks and the text are one stretch without slashes and quotes, up to the last slash
  have hslash : '/' ∉ '*' :: (c :: text) ++ ['*'] := by
    have htext : '/' ∉ c :: text := fun hmem => hplain _ hmem (by simp)
    simpa using htext
  have hcount : ('*' :: (c :: text) ++ ['*']).count '"' = 0 := by
    have htext : '"' ∉ c :: text := fun hmem => hplain _ hmem (by simp)
    rw [List.count_eq_zero]
    simpa using htext
  have hstretch : '*' :: (c :: text ++ '*' :: '/' :: '\n' :: cs) =
      ('*' :: (c :: text) ++ ['*']) ++ '/' :: '\n' :: cs := by simp
  rw [rawComments_slash hopening, hstretch, (rawComments_append hslash _).1, hcount,
    if_pos rfl, rawComments_slash hclosing, rawComments_skip (by decide) (by decide)]

/-- A comment whose text begins with a slash and a line end is read with both. -/
private theorem ofRaw_slash (m : Masked) (body code : List Char) : ∃ read following,
    ofRaw m ('/' :: '\n' :: body, code) = some ⟨.ofList ('/' :: '\n' :: read), following⟩ := by
  have hplain : '~' ∉ ['/', '\n'] := by decide
  have hbody : undecorate true ('/' :: '\n' :: body) = ['/', '\n'] ++ undecorate true body := by
    rw [undecorate_true (by decide)]
    rfl
  have hread : m.restore (undecorate true ('/' :: '\n' :: body)) =
      '/' :: '\n' :: m.restore (undecorate true body) := by
    rw [hbody, Masked.restore, restoreOnce_append hplain, restoreOnce_append hplain]
    rfl
  have hne : (strip ('/' :: '\n' :: m.restore (undecorate true body))).isEmpty = false := by
    rw [List.isEmpty_eq_false_iff]
    exact strip_cons_ne_nil (by decide) _
  rw [ofRaw, hread, hne]
  exact ⟨_, _, rfl⟩

/-- **The empty comment opens a documentation comment.** Either nothing at all is found, or the
first comment found begins with the slash and the line end of the empty one. -/
theorem extract_empty (rest : String) : extract (ordinary "" ++ rest) = [] ∨
    ∃ body following comments,
      extract (ordinary "" ++ rest) = ⟨.ofList ('/' :: '\n' :: body), following⟩ :: comments := by
  obtain ⟨m, hm⟩ : ∃ m, m = mask rest.toList := ⟨_, rfl⟩
  have hchars : (ordinary "" ++ rest).toList =
      '/' :: '*' :: ([] ++ '*' :: '/' :: '\n' :: rest.toList) := by
    simp [ordinary]
  have hmask : mask ('/' :: '*' :: ([] ++ '*' :: '/' :: '\n' :: rest.toList)) =
      ⟨'/' :: '*' :: ([] ++ '*' :: '/' :: '\n' :: (mask rest.toList).text),
        (mask rest.toList).literals⟩ :=
    mask_ordinary (fun _ h => absurd h List.not_mem_nil) rest.toList
  rw [extract, hchars, hmask, ← hm, List.nil_append]
  -- no comment ends at the slash or at the line end
  have hlength : bodyLength ('/' :: '\n' :: m.text) = (bodyLength m.text).map (· + 2) := by
    have hslash : ¬('/' = '*' ∧ ('\n' :: m.text).head? = some '/') := by simp
    have hnewline : ¬('\n' = '*' ∧ m.text.head? = some '/') := by simp
    rw [bodyLength, if_neg hslash, bodyLength, if_neg hnewline, Option.map_map]
    rfl
  cases hend : bodyLength m.text with
  | none =>
    rw [hend, Option.map_none] at hlength
    left
    rw [rawComments_unclosed hlength]
    rfl
  | some n =>
    rw [hend, Option.map_some] at hlength
    obtain ⟨read, following, hfirst⟩ :=
      ofRaw_slash ⟨'/' :: '*' :: '*' :: '/' :: '\n' :: m.text, m.literals⟩ (m.text.take n)
        (codeAfter (('/' :: '\n' :: m.text).drop (n + 2 + 2)))
    right
    rw [rawComments_comment hlength]
    exact ⟨read, following, _, List.filterMap_cons_some hfirst⟩

/-- **Ordinary comments are ignored**: an ordinary comment changes nothing about what is found in
the source behind it if and only if it is not the empty comment. -/
theorem extract_ordinary_iff (text : String)
    (hplain : ∀ c ∈ text.toList, c ∉ ['/', '\'', '"']) (hstar : text.toList.head? ≠ some '*') :
    (∀ rest, extract (ordinary text ++ rest) = extract rest) ↔ text ≠ "" := by
  constructor
  · rintro hall rfl
    have hrest : extract "/** a */" = [⟨"a ", none⟩] := by decide +kernel
    rcases extract_empty "/** a */" with hnone | ⟨body, following, comments, hfirst⟩
    · rw [hall, hrest] at hnone
      cases hnone
    · rw [hall, hrest] at hfirst
      have hbody : "a " = .ofList ('/' :: '\n' :: body) :=
        congrArg Comment.body (List.cons.inj hfirst).1
      have hchars := congrArg String.toList hbody
      simp at hchars
  · intro hne rest
    have htext : text.toList ≠ [] := fun h => hne (String.toList_inj.1 (by rw [h]; rfl))
    have hchars : (ordinary text ++ rest).toList =
        '/' :: '*' :: (text.toList ++ '*' :: '/' :: '\n' :: rest.toList) := by
      simp [ordinary]
    rw [extract, extract, hchars, mask_ordinary hplain, rawComments_ordinary hplain hstar htext]
    rfl

/-- A comment with text in it, and the empty one. -/
theorem extract_ordinary_notDocs :
    (∀ rest, extract (ordinary " not docs " ++ rest) = extract rest) ∧
      ¬∀ rest, extract (ordinary "" ++ rest) = extract rest := by
  have hplain : ∀ c ∈ " not docs ".toList, c ∉ ['/', '\'', '"'] := by simp
  have htext := extract_ordinary_iff " not docs " hplain (by decide)
  have hempty := extract_ordinary_iff "" (fun _ h => absurd h List.not_mem_nil) (by decide)
  exact ⟨htext.2 (by decide), fun hall => hempty.1 hall rfl⟩

end ApiDocs.Comment
