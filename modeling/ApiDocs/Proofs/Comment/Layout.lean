import ApiDocs.Proofs.Comment.Masking
import ApiDocs.Proofs.Text.Trim

/-!
# Comments in the usual layout

Most comments are written over several lines: the opening mark, the lines of the text, each with
some decoration at its start, and the closing mark stand on lines of their own, and the code
follows on the next line. `Written` is such a comment, and **extracting the comments of a text that
is made of them gives them back** (`extract_layout`): the lines of the text without their
decoration, but otherwise unchanged, and the code without blanks around it. The text of a comment
may hold quotes, slashes, patterns and opening marks in any mixture.
-/

namespace ApiDocs.Comment

open Text

/-- A comment in the usual layout, together with the line of code after it. -/
structure Written where
  /-- The lines between the marks. -/
  lines : List String
  code : String
  deriving DecidableEq, Repr

namespace Written

/-- The lines of a comment are lines, none closes the comment, and none holds what could be taken
for a placeholder; the code is a line in which no further comment or division begins. -/
structure Plain (w : Written) : Prop where
  lines : ∀ line ∈ w.lines, '\n' ∉ line.toList ∧ '~' ∉ line.toList ∧
    ¬['*', '/'] <:+: line.toList
  code : '\n' ∉ w.code.toList ∧ '~' ∉ w.code.toList ∧ '/' ∉ w.code.toList

/-- The comment as it stands in a source. -/
def layout (w : Written) : String :=
  "/**\n" ++ String.join (w.lines.map (· ++ "\n")) ++ " */\n" ++ w.code ++ "\n"

/-- A line without the decoration at its start; nothing is left of a line of decoration only, not
even its end. -/
def bareLine (line : List Char) : List Char :=
  let bare := line.dropWhile isDecoration
  if bare.isEmpty then [] else bare ++ ['\n']

/-- The text of the comment, without decoration. -/
def body (w : Written) : String := .ofList (w.lines.flatMap fun line => bareLine line.toList)

/-- What is to be read from the comment, if there is anything. -/
def comment (w : Written) : Option Comment :=
  if (trim w.body).isEmpty then none
  else some ⟨w.body, if (trim w.code).isEmpty then none else some (trim w.code)⟩

end Written

/-! ### Lines -/

/-- Lines as a text. -/
def unlines (lines : List (List Char)) : List Char := lines.flatMap (· ++ ['\n'])

private theorem unlines_cons (line : List Char) (lines : List (List Char)) :
    unlines (line :: lines) = line ++ '\n' :: unlines lines := by
  simp [unlines]

/-- No comment end arises where two lines meet. -/
private theorem infix_line {line rest : List Char} (h : ['*', '/'] <:+: line ++ '\n' :: rest) :
    ['*', '/'] <:+: line ∨ ['*', '/'] <:+: rest := by
  induction line with
  | nil =>
    rcases List.infix_cons_iff.1 h with h | h
    · simp at h
    · exact .inr h
  | cons c line ih =>
    rcases List.infix_cons_iff.1 h with h | h
    · obtain ⟨rfl, hnext⟩ := List.cons_prefix_cons.1 h
      cases line with
      | nil => simp at hnext
      | cons d line =>
        obtain ⟨rfl, -⟩ := List.cons_prefix_cons.1 hnext
        exact .inl ⟨[], line, rfl⟩
    · exact (ih h).imp_left fun h => h.trans (List.suffix_cons c line).isInfix

/-- Lines without the end of a comment have none together. -/
private theorem commentEnd_notInfix_unlines {lines : List (List Char)}
    (h : ∀ line ∈ lines, ¬['*', '/'] <:+: line) : ¬['*', '/'] <:+: unlines lines ++ [' '] := by
  induction lines with
  | nil => decide
  | cons line lines ih =>
    rw [unlines_cons, List.append_assoc, List.cons_append]
    intro hin
    rcases infix_line hin with hin | hin
    · exact h line List.mem_cons_self hin
    · exact ih (fun l hl => h l (List.mem_cons_of_mem line hl)) hin

/-- The decoration of a line is dropped, and the line end with it if nothing else is left. -/
private theorem undecorate_line {line : List Char} (h : '\n' ∉ line) (rest : List Char) :
    undecorate true (line ++ '\n' :: rest) = Written.bareLine line ++ undecorate true rest := by
  rw [Written.bareLine]
  induction line with
  | nil => simp [undecorate, isDecoration, isBlank, blankRanges, inRanges]
  | cons c line ih =>
    have hline : '\n' ∉ line := fun hmem => h (List.mem_cons_of_mem c hmem)
    cases hc : isDecoration c with
    | true =>
      rw [List.cons_append, undecorate, hc, List.dropWhile_cons_of_pos hc]
      exact ih hline
    | false =>
      rw [undecorate_token rfl hc h, undecorate_newline, List.dropWhile_cons_of_neg (by simp [hc])]
      simp

/-- Undecorating goes line by line. -/
private theorem undecorate_unlines {lines : List (List Char)} (h : ∀ line ∈ lines, '\n' ∉ line)
    (rest : List Char) :
    undecorate true (unlines lines ++ rest) =
      lines.flatMap Written.bareLine ++ undecorate true rest := by
  induction lines with
  | nil => rfl
  | cons line lines ih =>
    rw [unlines_cons, List.append_assoc, List.cons_append,
      undecorate_line (h line List.mem_cons_self),
      ih fun l hl => h l (List.mem_cons_of_mem line hl), List.flatMap_cons, List.append_assoc]

/-- What stands between the marks of a comment, without decoration. -/
private theorem undecorate_body {lines : List (List Char)} (h : ∀ line ∈ lines, '\n' ∉ line) :
    undecorate true ('\n' :: (unlines lines ++ [' '])) = lines.flatMap Written.bareLine := by
  have hend : undecorate true [' '] = [] := by decide
  have hunlines := undecorate_unlines h [' ']
  rw [hend, List.append_nil] at hunlines
  exact (undecorate_line List.not_mem_nil _).trans hunlines

/-- Lines of the source are lines of the masked text. -/
private theorem StandsFor.split_unlines {holds : Nat → List Char → Prop}
    (hholds : ∀ index literal, holds index literal → IsLiteral literal)
    {lines : List (List Char)} {part rest : List Char}
    (h : StandsFor holds part (unlines lines ++ rest)) :
    ∃ part₁ part₂, part = part₁ ++ part₂ ∧ StandsFor holds part₁ (unlines lines) ∧
      StandsFor holds part₂ rest := by
  induction lines generalizing part with
  | nil => exact ⟨[], part, rfl, .nil, h⟩
  | cons line lines ih =>
    rw [unlines_cons, List.append_assoc, List.cons_append] at h
    obtain ⟨first, after, rfl, hfirst, hafter⟩ := h.split_line hholds
    obtain ⟨part₁, part₂, rfl, hlines, hrest⟩ := ih hafter
    refine ⟨first ++ '\n' :: part₁, part₂, by simp, ?_, hrest⟩
    rw [unlines_cons]
    exact hfirst.append (.char (by decide) hlines)

/-! ### The parts of a comment -/

/-- A comment ends at its first comment end. -/
theorem bodyLength_commentEnd {cs : List Char} (h : ¬['*', '/'] <:+: cs) (rest : List Char) :
    bodyLength (cs ++ '*' :: '/' :: rest) = some cs.length := by
  induction cs with
  | nil => simp [bodyLength]
  | cons c cs ih =>
    have hgo : ¬(c = '*' ∧ (cs ++ '*' :: '/' :: rest).head? = some '/') := by
      rintro ⟨rfl, hnext⟩
      cases cs with
      | nil => simp at hnext
      | cons d cs =>
        rw [List.cons_append, List.head?_cons, Option.some.injEq] at hnext
        exact h ⟨[], cs, by rw [hnext]; rfl⟩
    rw [List.cons_append, bodyLength, if_neg hgo,
      ih fun hin => h (hin.trans (List.suffix_cons c cs).isInfix)]
    rfl

/-- The body of a comment reaches to the first end of a comment. -/
theorem exists_of_bodyLength {cs : List Char} {n : Nat} (h : bodyLength cs = some n) :
    ∃ body rest, cs = body ++ '*' :: '/' :: rest ∧ ¬['*', '/'] <:+: body := by
  induction cs generalizing n with
  | nil => cases h
  | cons c cs ih =>
    rw [bodyLength] at h
    split at h
    · rename_i hend
      obtain ⟨rfl, hnext⟩ := hend
      obtain ⟨rest, rfl⟩ := List.head?_eq_some_iff.1 hnext
      exact ⟨[], rest, rfl, by decide⟩
    · rename_i hgo
      obtain ⟨k, hk, rfl⟩ := Option.map_eq_some_iff.1 h
      obtain ⟨body, rest, rfl, hbody⟩ := ih hk
      refine ⟨c :: body, rest, rfl, fun hin => ?_⟩
      rcases List.infix_cons_iff.1 hin with hpre | hin
      · obtain ⟨rfl, d, rfl⟩ := List.cons_prefix_cons.1 hpre
        exact hgo ⟨rfl, rfl⟩
      · exact hbody hin

/-- A comment is followed by its code, and then by the rest. -/
theorem rawComments_body {body : List Char} (h : ¬['*', '/'] <:+: body) (rest : List Char) :
    rawComments ('/' :: '*' :: '*' :: (body ++ '*' :: '/' :: rest)) =
      (body, codeAfter rest) :: rawComments (behindCode rest) := by
  have hdrop : (body ++ '*' :: '/' :: rest).drop (body.length + 2) = rest := by
    rw [List.drop_length_add_append]
    rfl
  rw [rawComments_comment (bodyLength_commentEnd h rest), List.take_left, hdrop]

/-- The code behind a comment is cut off. -/
theorem behindCode_eq {cs code rest : List Char} (hcs : cs = code ++ rest)
    (hcode : codeAfter cs = code) : behindCode cs = rest := by
  rw [behindCode, hcode, hcs, List.drop_left]

/-- The code after a comment is taken together with its line end if it is blank. It ends at the
next comment then. -/
private theorem codeAfter_blank {code rest : List Char} (hblank : ∀ c ∈ code, isBlank c = true)
    (hrest : ∀ c, rest.head? = some c → c = '/') :
    codeAfter ('\n' :: code ++ '\n' :: rest) = '\n' :: code ++ ['\n'] := by
  have hblank' : ∀ c ∈ '\n' :: code ++ ['\n'], isBlank c = true := by
    intro c hc
    rcases List.mem_append.1 hc with hc | hc
    · rcases List.mem_cons.1 hc with rfl | hc
      · decide
      · exact hblank c hc
    · rw [List.mem_singleton.1 hc]
      decide
  have hnone : rest.takeWhile isBlank = [] ∧ rest.dropWhile isBlank = rest ∧
      rest.takeWhile (fun c => c ≠ '/' ∧ c ≠ '\n') = [] := by
    cases rest with
    | nil => simp
    | cons c rest =>
      obtain rfl := hrest c rfl
      exact ⟨rfl, rfl, rfl⟩
  have hcs : '\n' :: code ++ '\n' :: rest = ('\n' :: code ++ ['\n']) ++ rest := by simp
  rw [hcs, codeAfter, List.takeWhile_append_of_pos hblank',
    List.dropWhile_append_of_pos hblank', hnone.1, hnone.2.1, hnone.2.2]
  simp

/-- Any other code after a comment ends with its line. -/
private theorem codeAfter_code {code tail : List Char} {d : Char} (hline : '\n' ∉ code)
    (hslash : '/' ∉ code) (hcode : code.dropWhile isBlank = d :: tail) (rest : List Char) :
    codeAfter ('\n' :: code ++ '\n' :: rest) = '\n' :: code := by
  obtain ⟨blanks, hblanks⟩ : ∃ b, b = code.takeWhile isBlank := ⟨_, rfl⟩
  have hsplit : code = blanks ++ (d :: tail) := by
    rw [hblanks, ← hcode, List.takeWhile_append_dropWhile]
  have hblank : ∀ c ∈ '\n' :: blanks, isBlank c = true := by
    intro c hc
    rcases List.mem_cons.1 hc with rfl | hc
    · decide
    · exact List.mem_takeWhile_imp (hblanks ▸ hc)
  have hd : ¬isBlank d = true := by
    have hhead := List.head?_dropWhile_not isBlank code
    simpa [hcode] using hhead
  have hplain : ∀ c ∈ d :: tail, decide (c ≠ '/' ∧ c ≠ '\n') = true := by
    intro c hc
    have hmem : c ∈ code := by
      rw [hsplit]
      exact List.mem_append_right blanks hc
    rw [decide_eq_true_eq]
    exact ⟨fun h => hslash (h ▸ hmem), fun h => hline (h ▸ hmem)⟩
  have hcs : '\n' :: code ++ '\n' :: rest = ('\n' :: blanks) ++ ((d :: tail) ++ '\n' :: rest) := by
    rw [hsplit]
    simp
  have hout : (d :: tail ++ '\n' :: rest).takeWhile isBlank = [] :=
    List.takeWhile_cons_of_neg hd
  have hin : (d :: tail ++ '\n' :: rest).dropWhile isBlank = d :: tail ++ '\n' :: rest :=
    List.dropWhile_cons_of_neg hd
  rw [hcs, codeAfter, List.takeWhile_append_of_pos hblank, List.dropWhile_append_of_pos hblank,
    hout, hin, List.takeWhile_append_of_pos hplain, List.takeWhile_cons_of_neg (by decide), hsplit]
  simp

/-- The line of code behind a comment reaches to the next slash. -/
private theorem codeAfter_line {code rest : List Char} (hline : '\n' ∉ code) (hslash : '/' ∉ code)
    (hrest : ∀ c, rest.head? = some c → c = '/') :
    ∃ code' rest', codeAfter ('\n' :: code ++ '\n' :: rest) = code' ∧
      behindCode ('\n' :: code ++ '\n' :: rest) = rest' ∧
      (code' = '\n' :: code ∧ rest' = '\n' :: rest ∨
        code' = '\n' :: code ++ ['\n'] ∧ rest' = rest) := by
  cases hcode : code.dropWhile isBlank with
  | nil =>
    have hcs : '\n' :: code ++ '\n' :: rest = ('\n' :: code ++ ['\n']) ++ rest := by simp
    have htake := codeAfter_blank (List.dropWhile_eq_nil_iff.1 hcode) hrest
    exact ⟨_, _, htake, behindCode_eq hcs htake, .inr ⟨rfl, rfl⟩⟩
  | cons d tail =>
    have hcs : '\n' :: code ++ '\n' :: rest = ('\n' :: code) ++ ('\n' :: rest) := rfl
    have htake := codeAfter_code hline hslash hcode rest
    exact ⟨_, _, htake, behindCode_eq hcs htake, .inl ⟨rfl, rfl⟩⟩

/-- A comment and the line of code after it are read, and the search goes on after that line. -/
private theorem rawComments_line {body code rest : List Char} (hbody : ¬['*', '/'] <:+: body)
    (hline : '\n' ∉ code) (hslash : '/' ∉ code) (hrest : ∀ c, rest.head? = some c → c = '/') :
    ∃ code', rawComments ('/' :: '*' :: '*' ::
        (body ++ '*' :: '/' :: ('\n' :: code ++ '\n' :: rest))) =
      (body, code') :: rawComments rest ∧
        (code' = '\n' :: code ∨ code' = '\n' :: code ++ ['\n']) := by
  obtain ⟨code', rest', hcode', hrest', hcases⟩ := codeAfter_line hline hslash hrest
  rw [rawComments_body hbody, hcode', hrest']
  rcases hcases with ⟨rfl, rfl⟩ | ⟨rfl, rfl⟩
  · exact ⟨_, by rw [rawComments_skip (by decide) (by decide)], .inl rfl⟩
  · exact ⟨_, rfl, .inr rfl⟩

private theorem isBlank_newline : isBlank '\n' = true := by decide

private theorem strip_newline (code : List Char) : strip ('\n' :: code) = strip code :=
  strip_append_left (List.forall_mem_singleton.2 isBlank_newline) code

private theorem strip_append_newline (code : List Char) : strip (code ++ ['\n']) = strip code :=
  strip_append_right (List.forall_mem_singleton.2 isBlank_newline) code

/-! ### Whole texts -/

/-- The lines of a comment, as characters. -/
def Written.chars (w : Written) : List (List Char) := w.lines.map String.toList

/-- A written comment is its opener, its lines, its end and the line of code. -/
private theorem layout_append (w : Written) (rest : List Char) :
    w.layout.toList ++ rest = ['/', '*', '*'] ++ '\n' :: (unlines w.chars ++
      ([' ', '*', '/'] ++ '\n' :: (w.code.toList ++ '\n' :: rest))) := by
  simp [Written.layout, Written.chars, unlines, String.toList_join, List.flatMap_map]

/-- Plain comments have no tildes. -/
private theorem tilde_notMem_layout {w : Written} (hw : w.Plain) : '~' ∉ w.layout.toList := by
  have hlines : '~' ∉ unlines w.chars := by
    simp only [unlines, Written.chars, List.mem_flatMap, List.mem_map, List.mem_append,
      List.mem_singleton]
    rintro ⟨_, ⟨line, hline, rfl⟩, htilde | htilde⟩
    · exact (hw.lines line hline).2.1 htilde
    · cases htilde
  rw [← List.append_nil w.layout.toList, layout_append]
  simp [hlines, hw.code.2.1]

/-- A written comment is read as its bare lines, with the line of code unless that is blank. -/
private theorem comment_eq (w : Written) :
    w.comment = if (strip (w.chars.flatMap Written.bareLine)).isEmpty then none
      else some ⟨.ofList (w.chars.flatMap Written.bareLine),
        if (strip w.code.toList).isEmpty then none else some (.ofList (strip w.code.toList))⟩ := by
  simp [Written.comment, Written.body, Written.chars, trim, List.flatMap_map]

section

variable {m : Masked}

/-- The parts of a comment in a masked text are read as those they stand for. -/
theorem ofRaw_standsFor {raw : List Char × List Char} {body code : List Char}
    (hbody : StandsFor (Holds m.literals) raw.1 body)
    (hcode : StandsFor (Holds m.literals) raw.2 code) :
    ofRaw m raw = if (strip (undecorate true body)).isEmpty then none
      else some ⟨.ofList (undecorate true body),
        if (strip code).isEmpty then none else some (.ofList (strip code))⟩ := by
  have hholds : ∀ index lit, Holds m.literals index lit → IsLiteral lit := fun _ _ held => held.2
  rw [ofRaw, (hbody.undecorate hholds true).restore, (hcode.strip hholds).restore]

/-- The first comment of a masked text that stands for one in the usual layout, and what the
search goes on with. -/
private theorem rawComments_layout {w : Written} (hw : w.Plain) {part rest : List Char}
    (h : StandsFor (Holds m.literals) part (w.layout.toList ++ rest))
    (hrest : ∀ part', StandsFor (Holds m.literals) part' rest →
      ∀ c, part'.head? = some c → c = '/') :
    (∀ c, part.head? = some c → c = '/') ∧ ∃ raw part',
      rawComments part = raw :: rawComments part' ∧ ofRaw m raw = w.comment ∧
      StandsFor (Holds m.literals) part' rest := by
  have hholds : ∀ index lit, Holds m.literals index lit → IsLiteral lit := fun _ _ held => held.2
  have hlines : ∀ line ∈ w.chars, '\n' ∉ line ∧ ¬['*', '/'] <:+: line := by
    intro line hmem
    obtain ⟨l, hl, rfl⟩ := List.mem_map.1 hmem
    exact ⟨(hw.lines l hl).1, (hw.lines l hl).2.2⟩
  obtain ⟨hline, -, hslash⟩ := hw.code
  -- cut the masked text where the comment is cut
  rw [layout_append] at h
  obtain ⟨opening, inner, rfl, hopening, hinner⟩ := h.split_line hholds
  obtain rfl := hopening.eq_of_countP_le_one hholds (by decide)
  obtain ⟨body, after, rfl, hbody, hafter⟩ := hinner.split_unlines hholds
  obtain ⟨closing, outer, rfl, hclosing, houter⟩ := hafter.split_line hholds
  obtain rfl := hclosing.eq_of_countP_le_one hholds (by decide)
  obtain ⟨code, others, rfl, hcode, hothers⟩ := houter.split_line hholds
  refine ⟨by simp, ?_⟩
  -- the body ends with the closing mark
  have hraw : StandsFor (Holds m.literals) ('\n' :: body ++ [' '])
      ('\n' :: (unlines w.chars ++ [' '])) :=
    .char (by decide) (hbody.append (.of_notMem (by decide)))
  have hopen : ¬['*', '/'] <:+: '\n' :: body ++ [' '] := by
    intro hin
    rcases List.infix_cons_iff.1 (hraw.infix_commentEnd hin) with hin | hin
    · simp at hin
    · exact commentEnd_notInfix_unlines (fun line hmem => (hlines line hmem).2) hin
  obtain ⟨code', hfirst, hcode'⟩ := rawComments_line hopen
    (hcode.notMem_part (by decide) (by decide) hline)
    (hcode.notMem_part (by decide) (by decide) hslash) (hrest others hothers)
  refine ⟨('\n' :: body ++ [' '], code'), others, by simpa using hfirst, ?_, hothers⟩
  rw [comment_eq, ← undecorate_body fun line hmem => (hlines line hmem).1]
  rcases hcode' with rfl | rfl
  · have hafter : StandsFor (Holds m.literals) ('\n' :: code) ('\n' :: w.code.toList) :=
      .char (by decide) hcode
    rw [ofRaw_standsFor hraw hafter, strip_newline]
  · have hafter : StandsFor (Holds m.literals) ('\n' :: code ++ ['\n'])
        ('\n' :: w.code.toList ++ ['\n']) :=
      StandsFor.append (.char (by decide) hcode) (.of_notMem (by decide))
    rw [ofRaw_standsFor hraw hafter, strip_append_newline, strip_newline]

/-- The comments of a masked text that stands for a whole text in the usual layout. -/
private theorem rawComments_layouts {ws : List Written} (hws : ∀ w ∈ ws, w.Plain) {part : List Char}
    (h : StandsFor (Holds m.literals) part (ws.flatMap (·.layout.toList))) :
    (∀ c, part.head? = some c → c = '/') ∧
      (rawComments part).filterMap (ofRaw m) = ws.filterMap Written.comment := by
  induction ws generalizing part with
  | nil =>
    obtain rfl := h.eq_of_countP_le_one (fun _ _ held => held.2) (Nat.zero_le 1)
    exact ⟨fun c hc => by simp at hc, by simp [rawComments]⟩
  | cons w ws ih =>
    have hrest := fun w' hw' => hws w' (List.mem_cons_of_mem w hw')
    obtain ⟨hhead, raw, part', hraw, hfirst, hpart'⟩ :=
      rawComments_layout (hws w List.mem_cons_self) h fun _ h' => (ih hrest h').1
    refine ⟨hhead, ?_⟩
    rw [hraw, List.filterMap_cons, List.filterMap_cons, hfirst, (ih hrest hpart').2]

end

/-- **Extracting undoes the usual layout.** A text made of comments in the usual layout, each with
its line of code, gives these comments, in order and without the blank ones. -/
theorem extract_layout (ws : List Written) (hws : ∀ w ∈ ws, w.Plain) :
    extract (String.join (ws.map Written.layout)) = ws.filterMap Written.comment := by
  have hchars : (String.join (ws.map Written.layout)).toList = ws.flatMap (·.layout.toList) := by
    rw [String.toList_join, List.flatMap_map]
  have htilde : '~' ∉ ws.flatMap (·.layout.toList) := by
    rw [List.mem_flatMap]
    rintro ⟨w, hw, hmem⟩
    exact tilde_notMem_layout (hws w hw) hmem
  rw [extract, hchars]
  exact (rawComments_layouts hws (standsFor_mask htilde)).2

/-- Three comments of which the second is blank. Quotes, patterns and an opening mark in the text
stay as they are. -/
theorem extract_layout_literals :
    extract ("/**\n * It's /a\"b/ in '/**' \n |* \n \" // \n */\nf('x\") \n" ++
        "/**\n * |\n */\n  \n/**\n@class \"A\n */\n\n") =
      [⟨"It's /a\"b/ in '/**' \n\" // \n", some "f('x\")"⟩, ⟨"@class \"A\n", none⟩] := by
  have h := extract_layout [⟨[" * It's /a\"b/ in '/**' ", " |* ", " \" // "], "f('x\") "⟩,
    ⟨[" * |"], "  "⟩, ⟨["@class \"A"], ""⟩] (by
      simp only [List.mem_cons, List.not_mem_nil, or_false]
      rintro w (rfl | rfl | rfl) <;> exact ⟨by decide +kernel, by decide +kernel⟩)
  have hcomments : List.filterMap Written.comment
      [⟨[" * It's /a\"b/ in '/**' ", " |* ", " \" // "], "f('x\") "⟩,
        ⟨[" * |"], "  "⟩, ⟨["@class \"A"], ""⟩] =
      [⟨"It's /a\"b/ in '/**' \n\" // \n", some "f('x\")"⟩, ⟨"@class \"A\n", none⟩] := by
    decide +kernel
  rw [← hcomments, ← h]
  congr 1

end ApiDocs.Comment
