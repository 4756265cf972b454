import ApiDocs.Proofs.Comment.Assignment
import ApiDocs.Proofs.Text.Pattern

/-!
# The declaration that a line looks like

`guess` reads a name off a line of code, and what the name is declared as. The name is the assigned
one, and it is declared as a method if the word `function` stands anywhere after it (`Declares`).

There is a pattern for this, too: perhaps a word for a declaration, a name, a sign between blanks,
and perhaps the word `function` (`declarationPattern`). **A line is searched for it with the same
result**, and the word for a declaration plays no part (`map_search`). For where the pattern fits
with such a word, no sign follows that word, so `assignedName` passes it over
(`assignedName_keyword`); without it the pattern fits a few characters later and finds the same
name. Where the pattern fits nowhere right at the start of a text, neither does an assigned name
begin there, and the search goes on as `assignedName` does (`findsAssigned_first?`).
-/

namespace ApiDocs.Comment

open Text

/-- A part occurs in a text that contains it. -/
private theorem occurs_iff {part cs : List Char} : occurs part cs = true ↔ part <:+: cs := by
  induction cs with
  | nil => simp [occurs, List.infix_nil]
  | cons c cs ih => simp [occurs, ih, List.infix_cons_iff]

/-! ### The pattern of a declaration -/

/-- The word that starts a function. -/
def functionWord : List Char := "function".toList

/-- The words for a declaration. -/
def keywords : List (List Char) := ["var".toList, functionWord]

/-- Keywords are words. -/
private theorem isWord_of_mem_keyword {word : List Char} (h : word ∈ keywords) :
    ∀ c ∈ word, isWord c = true := by
  have hall : keywords.all (·.all isWord) = true := by decide +kernel
  exact List.all_eq_true.1 (List.all_eq_true.1 hall word h)

/-- A word for a declaration, and blanks. -/
def keywordPattern : Pattern :=
  .seq (.group 1 (.alt (.literal "var".toList) (.literal functionWord))) (.word isBlank)

/-- A sign between blanks, and perhaps the word that starts a function. -/
def signPattern : Pattern :=
  .seq (.run true isBlank) (.seq (.char fun c => c = '=' ∨ c = ':')
    (.seq (.run true isBlank) (.optional (.group 3 (.literal functionWord)))))

/-- A name, and what belongs to its sign. -/
def assignmentPattern : Pattern := .seq (.group 2 (.word isWord)) (.group 4 signPattern)

/-- **The pattern of a declaration.** With `keyword`, a word for a declaration may come first where
no word goes on. -/
def declarationPattern (keyword afterWord : Bool) : Pattern :=
  .seq (if keyword && !afterWord then .optional keywordPattern else .nothing) assignmentPattern

/-- The declaration of a name with what follows it. -/
def declaration (name after : List Char) : Declaration :=
  if occurs functionWord after then .method (.ofList name) else .property (.ofList name)

/-- What is declared in a way that fits the pattern: the word `function` stands right after the
sign, or somewhere in what follows the name. -/
def declaredBy (w : Way) : Declaration :=
  if (w.groups.lookup 3).isSome || occurs functionWord (w.group 4 ++ w.rest) then
    .method (.ofList (w.group 2))
  else .property (.ofList (w.group 2))

/-! ### Where a name is assigned -/

/-- A text starts with a name and a sign after it. -/
structure StartsAssignment (cs name after : List Char) : Prop where
  split : cs = name ++ after
  nonempty : name ≠ []
  word : ∀ c ∈ name, isWord c = true
  sign : SignFollows after

section Starts

variable {cs name after blanks : List Char}

/-- An assignment at the front is the one that is found. -/
private theorem StartsAssignment.assignedName_eq (h : StartsAssignment cs name after) :
    assignedName cs = some (name, after) := by
  rw [h.split]
  exact assignedName_word_sign h.word h.sign.not_isWord h.nonempty h.sign

/-- Without an assignment at the front the search goes on behind the first character. -/
private theorem assignedName_cons_of_not {c : Char} {rest : List Char}
    (h : ∀ name after, ¬StartsAssignment (c :: rest) name after) :
    assignedName (c :: rest) = assignedName rest := by
  cases hc : isWord c with
  | false => exact assignedName_other hc rest
  | true =>
    have hsplit : rest.takeWhile isWord ++ rest.dropWhile isWord = rest :=
      List.takeWhile_append_dropWhile
    have hword : ∀ d ∈ rest.takeWhile isWord, isWord d = true := fun d => List.mem_takeWhile_imp
    have hend : ∀ d, (rest.dropWhile isWord).head? = some d → isWord d = false :=
      fun d => not_of_head?_dropWhile
    have hwords : ∀ d ∈ c :: rest.takeWhile isWord, isWord d = true :=
      List.forall_mem_cons.2 ⟨hc, hword⟩
    have hsign : ¬SignFollows (rest.dropWhile isWord) := fun hsign =>
      h _ _ ⟨congrArg (c :: ·) hsplit.symm, List.cons_ne_nil c _, hwords, hsign⟩
    have hlong := assignedName_skip hwords hend hsign
    have hshort := assignedName_skip hword hend hsign
    rw [List.cons_append, hsplit] at hlong
    rw [hsplit] at hshort
    rw [hlong, hshort]

/-- Blanks are passed over. -/
private theorem assignedName_blanks {blanks : List Char} (h : ∀ b ∈ blanks, isBlank b = true)
    (cs : List Char) : assignedName (blanks ++ cs) = assignedName cs := by
  induction blanks with
  | nil => rfl
  | cons b blanks ih =>
    rw [List.forall_mem_cons] at h
    rw [List.cons_append, assignedName_other (isWord_of_isBlank h.1), ih h.2]

/-- A name stands before a sign, so no sign is there at once. -/
private theorem StartsAssignment.not_signFollows (h : StartsAssignment cs name after) :
    ¬SignFollows cs := by
  intro hsign
  obtain ⟨c, more, hmore⟩ := List.exists_cons_of_ne_nil h.nonempty
  have hword : isWord c = true := h.word c (by rw [hmore]; exact List.mem_cons_self)
  rw [hsign.not_isWord c (by rw [h.split, hmore]; rfl)] at hword
  cases hword

/-- **A word with blanks after it is passed over** where no sign follows it. -/
theorem assignedName_keyword {word : List Char} (hword : ∀ c ∈ word, isWord c = true)
    (hne : blanks ≠ []) (hblanks : ∀ b ∈ blanks, isBlank b = true) (hsign : ¬SignFollows cs) :
    assignedName (word ++ (blanks ++ cs)) = assignedName cs := by
  have hend : ∀ c, (blanks ++ cs).head? = some c → isWord c = false := by
    obtain ⟨b, more, rfl⟩ := List.exists_cons_of_ne_nil hne
    intro c hc
    cases hc
    exact isWord_of_isBlank (hblanks _ List.mem_cons_self)
  have hskip : ¬SignFollows (blanks ++ cs) := by
    rwa [signFollows_iff, dropBlanks_append hblanks, ← signFollows_iff]
  rw [assignedName_skip hword hend hskip, assignedName_blanks hblanks]

end Starts

/-! ### What the pattern finds -/

/-- A way has found a name and what follows the name, and claims no `function` that is not there. -/
structure Finds (w : Way) (name after : List Char) : Prop where
  named : w.group 2 = name
  remains : w.group 4 ++ w.rest = after
  function : (w.groups.lookup 3).isSome = true → functionWord <:+: after

section Pattern

open Pattern

variable {β : Type} {cs name after : List Char}

/-- What was found is read as the declaration that it is. -/
private theorem declaredBy_of_finds {w : Way} (h : Finds w name after) :
    declaredBy w = declaration name after := by
  rw [declaredBy, declaration, h.named, h.remains]
  cases hfunction : (w.groups.lookup 3).isSome with
  | false => rw [Bool.false_or]
  | true => rw [Bool.true_or, occurs_iff.2 (h.function hfunction)]

/-- A part that was taken before may have given the keyword, and no other group. -/
theorem Finds.append {v w : Way} (h : Finds w name after)
    (hv : v.groups = [] ∨ ∃ text, v.groups = [(1, text)]) : Finds (v.append w) name after := by
  have hlookup (n : Nat) (hn : 1 < n) : (v.append w).groups.lookup n = w.groups.lookup n := by
    rcases hv with hv | ⟨text, hv⟩
    · simp [Way.append, hv]
    · have hne : (n == 1) = false := by simp; omega
      simp [Way.append, hv, List.lookup_cons, hne]
  constructor
  · rw [Way.group, hlookup 2 (by decide)]
    exact h.named
  · rw [Way.group, hlookup 4 (by decide)]
    exact h.remains
  · rw [hlookup 3 (by decide)]
    exact h.function

/-- The search goes on behind the blanks after a sign. -/
private theorem firstWith_sign {k : Way → Option β} {out : β} {blanks blanks' rest : List Char}
    {sign : Char} (hblanks : ∀ b ∈ blanks, isBlank b = true) (hsign : sign = '=' ∨ sign = ':')
    (hblanks' : ∀ b ∈ blanks', isBlank b = true)
    (hrest : ∀ c, rest.head? = some c → isBlank c = false)
    (hk : ((optional (.group 3 (.literal functionWord))).firstWith rest fun w =>
      k (Way.append ⟨blanks ++ sign :: blanks', rest, []⟩ w)) = some out) :
    signPattern.firstWith (blanks ++ sign :: (blanks' ++ rest)) k = some out := by
  have hhead : ∀ c, (sign :: (blanks' ++ rest)).head? = some c → isBlank c = false := by
    rintro c ⟨⟩
    exact not_isBlank_sign hsign
  rw [signPattern, firstWith_seq]
  refine firstWith_all hblanks hhead ?_
  rw [firstWith_seq, firstWith_char_cons, if_pos (decide_eq_true hsign), firstWith_seq]
  refine firstWith_all hblanks' hrest ?_
  simpa [Way.append] using hk

/-- A sign is found with the blanks before it, and with the keyword for a function if one occurs
behind it. -/
private theorem exists_firstWith_sign (h : SignFollows cs) : ∃ w : Way, w.taken ++ w.rest = cs ∧
    (w.groups = [] ∨ w.groups = [(3, functionWord)] ∧ functionWord <:+: cs) ∧
      ∀ {β : Type} (k : Way → Option β) (out : β), k w = some out →
        signPattern.firstWith cs k = some out := by
  obtain ⟨blanks, sign, tail, rfl, hblanks, hsign⟩ := h
  obtain ⟨blanks', hsplit, hblanks', hrest⟩ := exists_eq_dropBlanks tail
  generalize dropBlanks tail = rest at hsplit hrest
  subst hsplit
  -- the word is preferred to nothing, so it is taken if it stands there
  by_cases hfunction : functionWord <+: rest
  · obtain ⟨rest, rfl⟩ := hfunction
    refine ⟨⟨blanks ++ sign :: (blanks' ++ functionWord), rest, [(3, functionWord)]⟩, by simp,
      .inr ⟨rfl, blanks ++ sign :: blanks', rest, by simp⟩, fun k out hk => ?_⟩
    refine firstWith_sign hblanks hsign hblanks' hrest ?_
    rw [firstWith_optional, firstWith_group, firstWith_literal]
    simpa [Way.append] using Or.inl hk
  · refine ⟨⟨blanks ++ sign :: blanks', rest, []⟩, by simp, .inl rfl, fun k out hk => ?_⟩
    refine firstWith_sign hblanks hsign hblanks' hrest ?_
    rw [firstWith_optional, firstWith_group, firstWith_literal_eq_none hfunction, Option.none_or]
    simpa [Way.append] using hk

/-- The pattern fails where no blanks and sign follow. -/
private theorem firstWith_sign_eq_none (h : ¬SignFollows cs) (k : Way → Option β) :
    signPattern.firstWith cs k = none := by
  rw [signPattern, firstWith_seq]
  refine firstWith_run_eq_none true fun blanks rest hcs hblanks => ?_
  rw [firstWith_seq]
  cases rest with
  | nil => exact firstWith_char_nil _ _
  | cons sign rest =>
    rw [firstWith_char_cons]
    split
    · rename_i hsign
      exact absurd ⟨blanks, sign, rest, hcs, hblanks, of_decide_eq_true hsign⟩ h
    · rfl

/-- Without an assignment at the front the pattern for one fails. -/
private theorem firstWith_assignment_eq_none (h : ∀ name after, ¬StartsAssignment cs name after)
    (k : Way → Option β) : assignmentPattern.firstWith cs k = none := by
  rw [assignmentPattern, firstWith_seq, firstWith_group]
  refine firstWith_word_eq_none_of fun name after hcs hne hname => ?_
  rw [firstWith_group]
  exact firstWith_sign_eq_none (fun hsign => h name after ⟨hcs, hne, hname, hsign⟩) _

/-- An assignment at the front is found by the pattern for one, whatever it is used for. -/
private theorem exists_firstWith_assignment (h : StartsAssignment cs name after) :
    ∃ w, Finds w name after ∧ ∀ {β : Type} (f : Way → β),
      assignmentPattern.firstWith cs (fun w => some (f w)) = some (f w) := by
  obtain ⟨w, hsplit, hgroups, hfirst⟩ := exists_firstWith_sign h.sign
  obtain ⟨c, name, rfl⟩ := List.exists_cons_of_ne_nil h.nonempty
  obtain rfl := h.split
  refine ⟨⟨c :: name ++ w.taken, w.rest, (2, c :: name) :: (4, w.taken) :: w.groups⟩,
    ⟨rfl, hsplit, fun hthree => ?_⟩, fun f => ?_⟩
  · rcases hgroups with hgroups | ⟨-, hfunction⟩
    · simp [hgroups, List.lookup_cons] at hthree
    · exact hfunction
  · rw [assignmentPattern, firstWith_seq, firstWith_group]
    refine firstWith_word h.word h.sign.not_isWord ?_
    rw [firstWith_group]
    exact hfirst _ _ rfl

/-- A keyword is taken with the blanks behind it. -/
private theorem of_mem_ways_keyword {v : Way} (h : v ∈ keywordPattern.ways cs) :
    ∃ word blanks, cs = word ++ (blanks ++ v.rest) ∧ (∀ c ∈ word, isWord c = true) ∧
      blanks ≠ [] ∧ (∀ b ∈ blanks, isBlank b = true) ∧ v.groups = [(1, word)] := by
  obtain ⟨u, hu, u', hu', rfl⟩ := of_mem_ways_seq h
  obtain ⟨hblanks, hne, hall, hgroups⟩ := of_mem_ways_word hu'
  rw [ways] at hu
  obtain ⟨t, ht, rfl⟩ := List.mem_map.1 hu
  obtain ⟨text, htext, hword⟩ : ∃ text, t ∈ (literal text).ways cs ∧
      ∀ c ∈ text, isWord c = true := by
    rw [ways, List.mem_append] at ht
    rcases ht with ht | ht
    · exact ⟨_, ht, isWord_of_mem_keyword List.mem_cons_self⟩
    · exact ⟨_, ht, isWord_of_mem_keyword (List.mem_cons_of_mem _ List.mem_cons_self)⟩
  obtain ⟨hcs, htaken, hnone⟩ := of_mem_ways_literal htext
  refine ⟨text, u'.taken, ?_, hword, hne, hall, ?_⟩
  · rw [hcs, hblanks]
    rfl
  · rw [Way.append, hgroups, hnone, htaken]
    rfl

/-- What is found behind a keyword is found without it. -/
private theorem finds_of_keyword {out : Way}
    (h : (keywordPattern.firstWith cs fun v =>
      assignmentPattern.firstWith v.rest fun w => some (v.append w)) = some out) :
    ∃ name after, assignedName cs = some (name, after) ∧ Finds out name after := by
  obtain ⟨v, hv, hout⟩ := List.exists_of_findSome?_eq_some h
  obtain ⟨word, blanks, hcs, hword, hne, hblanks, hgroups⟩ := of_mem_ways_keyword hv
  by_cases hstarts : ∃ name after, StartsAssignment v.rest name after
  · obtain ⟨name, after, hstarts⟩ := hstarts
    obtain ⟨w, hfinds, hfirst⟩ := exists_firstWith_assignment hstarts
    rw [hfirst v.append, Option.some.injEq] at hout
    refine ⟨name, after, ?_, hout ▸ hfinds.append (.inr ⟨word, hgroups⟩)⟩
    rw [hcs, assignedName_keyword hword hne hblanks hstarts.not_signFollows,
      hstarts.assignedName_eq]
  · rw [firstWith_assignment_eq_none fun name after hs => hstarts ⟨name, after, hs⟩] at hout
    cases hout

/-- Right at the start of a text, the pattern finds nothing only if no name is assigned there, and
otherwise it finds the assigned name of the text. -/
def FindsAssigned (cs : List Char) : Option Way → Prop
  | none => ∀ name after, ¬StartsAssignment cs name after
  | some w => ∃ name after, assignedName cs = some (name, after) ∧ Finds w name after

/-- The pattern finds the assignment that the search by hand finds. -/
private theorem findsAssigned_assignment (cs : List Char) :
    FindsAssigned cs
      (assignmentPattern.firstWith cs fun w => some (Way.append ⟨[], cs, []⟩ w)) := by
  by_cases hstarts : ∃ name after, StartsAssignment cs name after
  · obtain ⟨name, after, hstarts⟩ := hstarts
    obtain ⟨w, hfinds, hfirst⟩ := exists_firstWith_assignment hstarts
    rw [hfirst]
    exact ⟨name, after, hstarts.assignedName_eq, hfinds.append (.inl rfl)⟩
  · have hnone : ∀ name after, ¬StartsAssignment cs name after :=
      fun name after h => hstarts ⟨name, after, h⟩
    rw [firstWith_assignment_eq_none hnone]
    exact hnone

/-- So does the pattern with a keyword, or with the character before. -/
private theorem findsAssigned_first? (keyword afterWord : Bool) (cs : List Char) :
    FindsAssigned cs ((declarationPattern keyword afterWord).first? cs) := by
  rw [first?_eq_firstWith, declarationPattern, firstWith_seq]
  by_cases hkeyword : (keyword && !afterWord) = true
  · rw [if_pos hkeyword, firstWith_optional]
    cases hfound : keywordPattern.firstWith cs fun v =>
      assignmentPattern.firstWith v.rest fun w => some (v.append w) with
    | none =>
      rw [Option.none_or]
      exact findsAssigned_assignment cs
    | some out => exact finds_of_keyword hfound
  · rw [if_neg hkeyword, firstWith_nothing]
    exact findsAssigned_assignment cs

/-- **A search for the pattern finds the assigned name**, be there words for a declaration in the
pattern or not. -/
theorem map_search (keyword afterWord : Bool) (cs : List Char) :
    (Pattern.search (declarationPattern keyword) afterWord cs).map declaredBy =
      (assignedName cs).map fun found => declaration found.1 found.2 := by
  have hfound {cs : List Char} {w : Way} (h : FindsAssigned cs (some w)) :
      some (declaredBy w) = (assignedName cs).map fun found => declaration found.1 found.2 := by
    obtain ⟨name, after, hname, hfinds⟩ := h
    rw [hname, Option.map_some, declaredBy_of_finds hfinds]
  induction cs generalizing afterWord with
  | nil =>
    have hfirst := findsAssigned_first? keyword afterWord []
    rw [Pattern.search]
    cases hw : (declarationPattern keyword afterWord).first? [] with
    | none => rw [assignedName_nil, Option.map_none, Option.map_none]
    | some w => exact hfound (hw ▸ hfirst)
  | cons c rest ih =>
    have hfirst := findsAssigned_first? keyword afterWord (c :: rest)
    rw [Pattern.search]
    cases hw : (declarationPattern keyword afterWord).first? (c :: rest) with
    | none =>
      rw [hw] at hfirst
      rw [Option.none_or, ih, assignedName_cons_of_not hfirst]
    | some w => exact hfound (hw ▸ hfirst)

end Pattern

/-! ### Guesses -/

/-- **What a line declares**: its assigned name, as a method if the word `function` stands anywhere
after the name, and as a property otherwise. -/
inductive Declares (line : List Char) : Declaration → Prop
  | method {name after : List Char} : Assigns line name after → functionWord <:+: after →
    Declares line (.method (.ofList name))
  | property {name after : List Char} : Assigns line name after → ¬functionWord <:+: after →
    Declares line (.property (.ofList name))

/-- A declaration is read off the first assignment. -/
private theorem guess_eq (line : String) :
    guess line = (assignedName line.toList).map fun found => declaration found.1 found.2 := rfl

/-- Nothing is declared on lines without an operator that has a name. -/
private theorem guess_eq_none_iff {line : String} : guess line = none ↔ NoOperator line.toList := by
  rw [guess_eq, Option.map_eq_none_iff, assignedName_eq_none_iff]

/-- What a line declares is what its first operator assigns to. -/
private theorem guess_eq_some_iff {line : String} {d : Declaration} :
    guess line = some d ↔ Declares line.toList d := by
  rw [guess_eq, Option.map_eq_some_iff]
  constructor
  · rintro ⟨⟨name, after⟩, hname, rfl⟩
    have hassigns := assignedName_eq_some_iff.1 hname
    rw [declaration]
    split
    · rename_i hfunction
      exact .method hassigns (occurs_iff.1 hfunction)
    · rename_i hfunction
      exact .property hassigns fun h => hfunction (occurs_iff.2 h)
  · rintro (@⟨name, after, hassigns, hfunction⟩ | @⟨name, after, hassigns, hfunction⟩)
    · refine ⟨(name, after), assignedName_eq_some_iff.2 hassigns, ?_⟩
      rw [declaration, if_pos (occurs_iff.2 hfunction)]
    · refine ⟨(name, after), assignedName_eq_some_iff.2 hassigns, ?_⟩
      rw [declaration, if_neg fun h => hfunction (occurs_iff.1 h)]

/-- **A guess is exact.** There is none if and only if the line has no operator, and otherwise it is
the only declaration that the line makes. A search for the pattern gives the same, with words for a
declaration and without them; and such a word in front of a line does not change what is guessed,
unless a sign follows and the word itself is the name. -/
theorem guess_reads (line : String) :
    (guess line = none ↔ NoOperator line.toList) ∧
      (∀ d, guess line = some d ↔ Declares line.toList d) ∧
      (∀ keyword, guess line =
        (Pattern.search (declarationPattern keyword) false line.toList).map declaredBy) ∧
      ∀ word ∈ keywords, ∀ blanks ≠ [], (∀ b ∈ blanks, isBlank b = true) →
        ¬SignFollows line.toList →
          guess (.ofList (word ++ (blanks ++ line.toList))) = guess line := by
  refine ⟨guess_eq_none_iff, fun d => guess_eq_some_iff, fun keyword => ?_, ?_⟩
  · rw [map_search, guess_eq]
  · intro word hmem blanks hne hblanks hsign
    rw [guess_eq, String.toList_ofList,
      assignedName_keyword (isWord_of_mem_keyword hmem) hne hblanks hsign, guess_eq]

/-- A word for a declaration before a name that is such a word itself. -/
theorem guess_reads_keyword : [' '] ≠ [] ∧ (∀ b ∈ [' '], isBlank b = true) ∧
    ¬SignFollows "function = f: function () \x7b\x7d".toList ∧
      guess "var function = f: function () \x7b\x7d" = some (.method "function") := by
  have hblank : ∀ b ∈ [' '], isBlank b = true := List.forall_mem_singleton.2 (by decide)
  have hsign : ¬SignFollows "function = f: function () \x7b\x7d".toList :=
    fun h => absurd (h.not_isWord 'f' rfl) (by decide +kernel)
  have hguess : guess "function = f: function () \x7b\x7d" = some (.method "function") := by
    decide +kernel
  refine ⟨List.cons_ne_nil _ _, hblank, hsign, ?_⟩
  have hkeyword := (guess_reads "function = f: function () \x7b\x7d").2.2.2 "var".toList
    List.mem_cons_self [' '] (List.cons_ne_nil _ _) hblank hsign
  exact hkeyword.trans hguess

end ApiDocs.Comment
