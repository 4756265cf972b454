import ApiDocs.Proofs.Text.Pattern
import ApiDocs.Proofs.Text.Trim
import ApiDocs.Tag.Signature

/-!
# The bodies of parameters and return values

A body is described by a pattern with two alternatives (`bodyPattern`): a type in braces with a text
around it, or a word and what follows. Of the braces the first one that opens and the last one that
closes count, since the text before the type is taken as short and the type as long as possible. So
**a body can be divided exactly if a brace is opened and later closed in it, or it begins with a
word** (`splitBody_eq_some_iff`), and what lists of bodies give follows from that
(`params_ok_iff`, `params_error_iff`).

That the last closing brace counts lets a type have braces inside, but a description with a closing
brace then ends up in the type: **a parameter reads back from its two written forms exactly if there
is none in its description** (`params_written_iff`).
-/

namespace ApiDocs.Signature

open Text

/-! ### Braces -/

/-- A brace opens, and after it one closes. -/
def Braced (cs : List Char) : Prop := ∃ x y z, cs = x ++ '\x7b' :: (y ++ '\x7d' :: z)

/-- The first word character comes after blanks only. -/
def BeginsWithWord (cs : List Char) : Prop :=
  ∃ blanks c rest, cs = blanks ++ c :: rest ∧ (∀ b ∈ blanks, isBlank b = true) ∧ isWord c = true

section Braces

variable {cs before inside after : List Char}

/-- A text up to a character, the character, and the rest. -/
private theorem eq_of_dropWhile_ne {a c : Char} {rest : List Char}
    (h : cs.dropWhile (· ≠ a) = c :: rest) : cs = cs.takeWhile (· ≠ a) ++ a :: rest := by
  obtain rfl : c = a := by
    have hhead : (cs.dropWhile (· ≠ a)).head? = some c := by rw [h]; rfl
    simpa using not_of_head?_dropWhile hhead
  rw [← h, List.takeWhile_append_dropWhile]

/-- The braces are where the text was split. -/
private theorem eq_of_splitBraces (h : splitBraces cs = some (before, inside, after)) :
    cs = before ++ '{' :: (inside ++ '}' :: after) := by
  rw [splitBraces] at h
  split at h
  · cases h
  · rename_i tail hopen
    split at h
    · cases h
    · rename_i inside' hclose
      obtain ⟨rfl, heq⟩ := Prod.mk.inj (Option.some.inj h)
      obtain ⟨rfl, rfl⟩ := Prod.mk.inj heq
      have htail := congrArg List.reverse (eq_of_dropWhile_ne hclose)
      rw [List.reverse_reverse, List.reverse_append, List.reverse_cons, List.append_assoc,
        List.singleton_append] at htail
      rw [← htail]
      exact eq_of_dropWhile_ne hopen

/-- Up to the first occurrence of a character. -/
private theorem takeWhile_ne_append {a : Char} (h : a ∉ cs) (rest : List Char) :
    (cs ++ a :: rest).takeWhile (· ≠ a) = cs ∧ (cs ++ a :: rest).dropWhile (· ≠ a) = a :: rest := by
  have hne : ∀ c ∈ cs, decide (c ≠ a) = true := by
    intro c hc
    simpa using ne_of_mem_of_not_mem hc h
  rw [List.takeWhile_append_of_pos hne, List.dropWhile_append_of_pos hne]
  simp

/-- A text is split at its first opening and its last closing brace. -/
private theorem splitBraces_eq (hbefore : '\x7b' ∉ before) (hafter : '\x7d' ∉ after) :
    splitBraces (before ++ '\x7b' :: (inside ++ '\x7d' :: after)) =
      some (before, inside, after) := by
  obtain ⟨htake, hdrop⟩ := takeWhile_ne_append hbefore (inside ++ '\x7d' :: after)
  obtain ⟨htake', hdrop'⟩ :=
    takeWhile_ne_append (mt List.mem_reverse.1 hafter) inside.reverse
  have hreverse : (inside ++ '\x7d' :: after).reverse =
      after.reverse ++ '\x7d' :: inside.reverse := by
    simp
  rw [splitBraces, hdrop, htake]
  dsimp only
  rw [hreverse, hdrop', htake']
  dsimp only
  rw [List.reverse_reverse, List.reverse_reverse]

/-- **The braces that count** are the first one that opens and the last one that closes. -/
theorem Braced.exists_split (h : Braced cs) : ∃ before inside after,
    cs = before ++ '{' :: (inside ++ '}' :: after) ∧ '{' ∉ before ∧ '}' ∉ after := by
  obtain ⟨before, y, z, rfl, hbefore⟩ : ∃ before y z,
      cs = before ++ '{' :: (y ++ '}' :: z) ∧ '{' ∉ before := by
    obtain ⟨x, y, z, rfl⟩ := h
    by_cases hx : '{' ∈ x
    · obtain ⟨before, x', rfl, hbefore⟩ := List.eq_append_cons_of_mem hx
      exact ⟨before, x' ++ '{' :: y, z, by simp, hbefore⟩
    · exact ⟨x, y, z, rfl, hx⟩
  by_cases hz : '}' ∈ z
  · obtain ⟨after, z', heq, hafter⟩ := List.eq_append_cons_of_mem (List.mem_reverse.2 hz)
    obtain rfl : z = z'.reverse ++ '}' :: after.reverse := by
      rw [← List.reverse_reverse z, heq]
      simp
    exact ⟨before, y ++ '}' :: z'.reverse, after.reverse, by simp, hbefore, by simpa using hafter⟩
  · exact ⟨before, y, z, rfl, hbefore, hz⟩

/-- Without braces in the right order nothing is split. -/
private theorem splitBraces_eq_none (h : ¬Braced cs) : splitBraces cs = none := by
  cases hsplit : splitBraces cs with
  | none => rfl
  | some parts => exact absurd ⟨_, _, _, eq_of_splitBraces hsplit⟩ h

end Braces

/-! ### The pattern of a body -/

/-- Any character. -/
def anyChar : Char → Bool := fun _ => true

/-- A closing brace and a text. -/
def closingPattern : Pattern := .seq (.char (· = '\x7d')) (.group 3 (.run true anyChar))

/-- A type in braces and a text. -/
def bracesPattern : Pattern :=
  .seq (.char (· = '\x7b')) (.seq (.group 2 (.run true anyChar)) closingPattern)

/-- A text, a type in braces, and a text. -/
def typedPattern : Pattern :=
  .seq (.run false isBlank) (.seq (.group 1 (.run false anyChar)) bracesPattern)

/-- A word and a text. -/
def untypedPattern : Pattern :=
  .seq (.run false isBlank)
    (.seq (.group 4 (.word isWord)) (.group 5 (.run true anyChar)))

/-- **The pattern of a body.** -/
def bodyPattern : Pattern := .alt typedPattern untypedPattern

/-- The type and the text that a body gives in a way that fits the pattern. -/
def dividedBy (w : Way) : String × String :=
  match w.groups.lookup 4 with
  | some word => ("", .ofList (word ++ w.group 5))
  | none => (.ofList (strip (w.group 2)), .ofList (strip (w.group 1 ++ w.group 3)))

section Patterns

open Pattern

variable {β : Type} {k : Way → Option β} {out : β} {cs before inside after : List Char}

/-- The rest of a text is taken as a group. -/
private theorem firstWith_rest (n : Nat)
    (hk : k { taken := cs, rest := [], groups := [(n, cs)] } = some out) :
    (group n (run true anyChar)).firstWith cs k = some out := by
  have hlongest := firstWith_longest (p := anyChar) (x := cs) (y := [])
    (k := fun w => k { w with groups := (n, w.taken) :: w.groups })
    (fun _ _ => rfl) (fun c u v h => by simp at h) hk
  rw [List.append_nil] at hlongest
  rw [firstWith_group, hlongest]

/-- What follows a closing brace is taken as the rest. -/
private theorem firstWith_closing
    (hk : k { taken := '\x7d' :: after, rest := [], groups := [(3, after)] } = some out) :
    closingPattern.firstWith ('\x7d' :: after) k = some out := by
  rw [closingPattern, firstWith_seq, firstWith_char_cons, if_pos (decide_eq_true rfl)]
  exact firstWith_rest 3 hk

/-- Without a closing brace nothing is closed. -/
private theorem firstWith_closing_eq_none (h : '\x7d' ∉ cs) :
    closingPattern.firstWith cs k = none := by
  rw [closingPattern, firstWith_seq]
  cases cs with
  | nil => exact firstWith_char_nil _ _
  | cons c cs =>
    have hc : decide (c = '\x7d') = false := by
      simpa using (List.ne_of_not_mem_cons h).symm
    rw [firstWith_char_cons, hc, if_neg Bool.false_ne_true]

/-- The brace that closes is the last one, since the type is as long as possible. -/
private theorem firstWith_braces (hafter : '\x7d' ∉ after)
    (hk : k { taken := '\x7b' :: (inside ++ '\x7d' :: after), rest := []
              groups := [(2, inside), (3, after)] } = some out) :
    bracesPattern.firstWith ('\x7b' :: (inside ++ '\x7d' :: after)) k = some out := by
  rw [bracesPattern, firstWith_seq, firstWith_char_cons, if_pos (decide_eq_true rfl),
    firstWith_seq, firstWith_group]
  refine firstWith_longest (fun _ _ => rfl) (fun c u v h _ => ?_) (firstWith_closing hk)
  refine firstWith_closing_eq_none fun hmem => hafter ?_
  rw [(List.cons.inj h).2]
  exact List.mem_append_right u hmem

/-- Without a text in braces the pattern for one fails. -/
private theorem firstWith_braces_eq_none (h : ∀ x y, cs ≠ '\x7b' :: (x ++ '\x7d' :: y)) :
    bracesPattern.firstWith cs k = none := by
  rw [bracesPattern, firstWith_seq]
  cases cs with
  | nil => exact firstWith_char_nil _ _
  | cons c cs =>
    rw [firstWith_char_cons]
    split
    · rename_i hc
      obtain rfl : c = '\x7b' := by simpa using hc
      rw [firstWith_seq, firstWith_group]
      refine firstWith_run_eq_none true fun x y hsplit _ => firstWith_closing_eq_none fun hmem => ?_
      obtain ⟨u, v, heq⟩ := List.append_of_mem hmem
      subst hsplit
      refine h (x ++ u) v ?_
      dsimp only at heq
      rw [heq, List.append_assoc]
    · rfl

/-- **The brace that opens is the first one**, since the text before it is as short as possible. -/
theorem firstWith_typed (hbefore : '\x7b' ∉ before) (hafter : '\x7d' ∉ after)
    (hk : k { taken := before ++ '\x7b' :: (inside ++ '\x7d' :: after), rest := []
              groups := [(1, before), (2, inside), (3, after)] } = some out) :
    typedPattern.firstWith (before ++ '\x7b' :: (inside ++ '\x7d' :: after)) k = some out := by
  rw [typedPattern, firstWith_seq]
  -- no blanks are passed over, since the text before the type may begin with them
  refine firstWith_shortest (x := []) (by simp) (fun u c v h => by simp at h) ?_
  rw [firstWith_seq, firstWith_group]
  refine firstWith_shortest (fun _ _ => rfl) (fun u c v h => ?_) (firstWith_braces hafter hk)
  refine firstWith_braces_eq_none fun x y heq => hbefore ?_
  rw [h, ← (List.cons.inj heq).1]
  simp

/-- Without braces the pattern for a typed body fails. -/
private theorem firstWith_typed_eq_none (h : ¬Braced cs) : typedPattern.firstWith cs k = none := by
  rw [typedPattern, firstWith_seq]
  refine firstWith_run_eq_none false fun x y hcs _ => ?_
  rw [firstWith_seq, firstWith_group]
  refine firstWith_run_eq_none false fun x' y' hy _ => firstWith_braces_eq_none fun u v heq => h ?_
  dsimp only at hy heq
  exact ⟨x ++ x', u, v, by rw [hcs, hy, heq, List.append_assoc]⟩

/-- A body without a type begins with a word, maybe behind blanks. -/
private theorem firstWith_untyped {blanks word rest : List Char} {c : Char}
    (hblanks : ∀ b ∈ blanks, isBlank b = true) (hword : ∀ d ∈ c :: word, isWord d = true)
    (hrest : ∀ d, rest.head? = some d → isWord d = false)
    (hk : k { taken := blanks ++ c :: (word ++ rest), rest := []
              groups := [(4, c :: word), (5, rest)] } = some out) :
    untypedPattern.firstWith (blanks ++ c :: (word ++ rest)) k = some out := by
  rw [untypedPattern, firstWith_seq]
  refine firstWith_shortest hblanks (fun u b v h => ?_) ?_
  · -- a word does not begin with a blank
    have hb : isWord b = false := isWord_of_isBlank (hblanks b (by rw [h]; simp))
    rw [firstWith_seq, firstWith_group]
    exact firstWith_word_eq_none fun d hd => by cases hd; exact hb
  · rw [firstWith_seq, firstWith_group]
    exact firstWith_word hword hrest (firstWith_rest 5 hk)

/-- Without a word at its front a body has no name. -/
private theorem firstWith_untyped_eq_none (h : ¬BeginsWithWord cs) :
    untypedPattern.firstWith cs k = none := by
  rw [untypedPattern, firstWith_seq]
  refine firstWith_run_eq_none false fun x y hcs hblanks => ?_
  rw [firstWith_seq, firstWith_group]
  refine firstWith_word_eq_none fun c hc => ?_
  obtain ⟨y', rfl⟩ := List.head?_eq_some_iff.1 hc
  rw [Bool.eq_false_iff]
  exact fun hword => h ⟨x, c, y', hcs, hblanks, hword⟩

end Patterns

/-! ### How a body is divided -/

/-- A body can be divided into a type and a text. -/
def Accepted (body : String) : Prop := Braced body.toList ∨ BeginsWithWord body.toList

/-- **How a body is divided** into a type and a text. Braces give a type; without them the body
begins with a word, and there is none. -/
inductive Divides (body : String) : String → String → Prop
  | typed {before inside after : List Char}
      (split : body.toList = before ++ '\x7b' :: (inside ++ '\x7d' :: after))
      (first : '\x7b' ∉ before) (last : '\x7d' ∉ after) :
      Divides body (.ofList (strip inside)) (.ofList (strip (before ++ after)))
  | untyped {blanks rest : List Char} {c : Char} (noType : ¬Braced body.toList)
      (split : body.toList = blanks ++ c :: rest) (blank : ∀ b ∈ blanks, isBlank b = true)
      (word : isWord c = true) :
      Divides body "" (.ofList (c :: rest))

section Divides

variable {body typeName text : String}

/-- A body that is accepted can be divided. -/
private theorem Accepted.exists_divides (h : Accepted body) :
    ∃ typeName text, Divides body typeName text := by
  by_cases hbraced : Braced body.toList
  · obtain ⟨before, inside, after, hsplit, hbefore, hafter⟩ := hbraced.exists_split
    exact ⟨_, _, .typed hsplit hbefore hafter⟩
  · obtain ⟨blanks, c, rest, hsplit, hblanks, hc⟩ := h.resolve_left hbraced
    exact ⟨_, _, .untyped hbraced hsplit hblanks hc⟩

/-- A body is split as it is divided. -/
private theorem splitBody_of_divides (h : Divides body typeName text) :
    splitBody body = some (typeName, text) := by
  cases h with
  | typed split first last => rw [splitBody, split, splitBraces_eq first last]
  | untyped noType split blank word =>
    rename_i blanks rest c
    have hdrop : dropBlanks (blanks ++ c :: rest) = c :: rest := by
      rw [dropBlanks_append blank]
      refine dropBlanks_eq_self fun d hd => ?_
      cases hd
      rw [Bool.eq_false_iff]
      intro hblank
      rw [isWord_of_isBlank hblank] at word
      cases word
    rw [splitBody, splitBraces_eq_none noType]
    dsimp only
    rw [split, hdrop]
    dsimp only
    rw [if_pos word]

/-- A body that is not accepted is not split. -/
private theorem splitBody_of_not_accepted (h : ¬Accepted body) : splitBody body = none := by
  obtain ⟨blanks, hsplit, hblanks, -⟩ := exists_eq_dropBlanks body.toList
  rw [splitBody, splitBraces_eq_none fun hbraced => h (.inl hbraced)]
  dsimp only
  cases hkept : dropBlanks body.toList with
  | nil => rfl
  | cons c rest =>
    rw [hkept] at hsplit
    exact if_neg fun hc => h (.inr ⟨blanks, c, rest, hsplit, hblanks, hc⟩)

/-- A body is divided in one way. -/
private theorem splitBody_eq_some_iff :
    splitBody body = some (typeName, text) ↔ Divides body typeName text := by
  refine ⟨fun h => ?_, splitBody_of_divides⟩
  have haccepted : Accepted body := by
    by_contra hno
    rw [splitBody_of_not_accepted hno] at h
    cases h
  obtain ⟨typeName', text', hdivides⟩ := haccepted.exists_divides
  rw [splitBody_of_divides hdivides] at h
  obtain ⟨rfl, rfl⟩ := Prod.mk.inj (Option.some.inj h)
  exact hdivides

/-- The split fails exactly on bodies that are not accepted. -/
private theorem splitBody_eq_none_iff : splitBody body = none ↔ ¬Accepted body := by
  refine ⟨fun h haccepted => ?_, splitBody_of_not_accepted⟩
  obtain ⟨typeName, text, hdivides⟩ := haccepted.exists_divides
  rw [splitBody_of_divides hdivides] at h
  cases h

/-- **A body is divided as the pattern has it**: the way that counts gives the type and the text. -/
theorem splitBody_eq_first? (body : String) :
    splitBody body = (bodyPattern.first? body.toList).map dividedBy := by
  rw [Pattern.first?_eq_firstWith, bodyPattern, Pattern.firstWith_alt]
  cases hsplit : splitBody body with
  | none =>
    have hno := splitBody_eq_none_iff.1 hsplit
    rw [firstWith_typed_eq_none fun h => hno (.inl h),
      firstWith_untyped_eq_none fun h => hno (.inr h)]
    rfl
  | some parts =>
    obtain ⟨typeName, text⟩ := parts
    cases splitBody_eq_some_iff.1 hsplit with
    | typed split first last =>
      rw [split, firstWith_typed first last rfl]
      rfl
    | untyped noType split blank word =>
      rename_i blanks rest c
      obtain ⟨more, tail, rfl, hmore, htail⟩ : ∃ more tail, rest = more ++ tail ∧
          (∀ d ∈ more, isWord d = true) ∧ ∀ d, tail.head? = some d → isWord d = false :=
        ⟨rest.takeWhile isWord, rest.dropWhile isWord, List.takeWhile_append_dropWhile.symm,
          fun _ hd => List.mem_takeWhile_imp hd, fun _ => not_of_head?_dropWhile⟩
      rw [firstWith_typed_eq_none noType, Option.none_or, split,
        firstWith_untyped blank (List.forall_mem_cons.2 ⟨word, hmore⟩) htail rfl]
      rfl

end Divides

/-! ### The name of a parameter -/

/-- The pattern of a text that starts with a name. -/
def namePattern : Pattern :=
  .seq (.run true isBlank) (.seq (.group 1 (.word (!isBlank ·))) (.group 2 (.run true anyChar)))

/-- The name and the description that a text gives in a way that fits the pattern. -/
def namedBy (w : Way) : List Char × List Char := (w.group 1, strip (w.group 2))

/-- All blanks are passed over, since a longer run would have to take some of the word. -/
private theorem firstWith_name {β : Type} {k : Way → Option β} {out : β} {cs word rest : List Char}
    (h : StartsWith cs word rest)
    (hk : k { taken := cs, rest := [], groups := [(1, word), (2, rest)] } = some out) :
    namePattern.firstWith cs k = some out := by
  obtain ⟨blanks, rfl, hblanks⟩ := h.split
  have hword : ∀ d ∈ word, (!isBlank d) = true := fun d hd => by rw [h.word d hd]; rfl
  have hrest : ∀ d, rest.head? = some d → (!isBlank d) = false := fun d hd => by
    rw [h.ended d hd]; rfl
  have hnonempty := h.nonempty
  clear h
  obtain ⟨c, word, rfl⟩ := List.exists_cons_of_ne_nil hnonempty
  rw [List.append_assoc] at hk ⊢
  rw [namePattern, Pattern.firstWith_seq]
  refine Pattern.firstWith_longest hblanks (fun b u v heq hb => ?_) ?_
  · obtain ⟨rfl, -⟩ := List.cons.inj heq
    have hc := hword c List.mem_cons_self
    rw [hb] at hc
    cases hc
  · rw [Pattern.firstWith_seq, Pattern.firstWith_group]
    exact Pattern.firstWith_word hword hrest (firstWith_rest 2 hk)

/-- Blanks give no name. -/
private theorem firstWith_name_eq_none {β : Type} {k : Way → Option β} {cs : List Char}
    (h : ∀ c ∈ cs, isBlank c = true) : namePattern.firstWith cs k = none := by
  rw [namePattern, Pattern.firstWith_seq]
  refine Pattern.firstWith_run_eq_none true fun x y hcs _ => ?_
  rw [Pattern.firstWith_seq, Pattern.firstWith_group]
  refine Pattern.firstWith_word_eq_none fun d hd => ?_
  rw [h d (hcs ▸ List.mem_append_right x (List.mem_of_mem_head? hd))]
  rfl

/-- **The first word of a text is as the pattern has it.** -/
theorem firstWord_eq_first? (cs : List Char) :
    firstWord cs = (namePattern.first? cs).map namedBy := by
  rw [Pattern.first?_eq_firstWith]
  by_cases hblank : ∀ c ∈ cs, isBlank c = true
  · rw [firstWord_eq_none_iff.2 hblank, firstWith_name_eq_none hblank]
    rfl
  · obtain ⟨word, rest, hstarts⟩ := exists_startsWith hblank
    rw [firstWord_of_startsWith hstarts, firstWith_name hstarts rfl]
    rfl

/-! ### Lists of bodies -/

/-- The first body of a list that cannot be divided. -/
def FirstRejected (bodies : List String) (body : String) : Prop :=
  ∃ earlier later, bodies = earlier ++ body :: later ∧ (∀ b ∈ earlier, Accepted b) ∧ ¬Accepted body

/-- **The parameters of a list of bodies**, in order: one for every body that has more than a type,
whose text starts with the name. -/
inductive Reads : List String → List Param → Prop
  | nil : Reads [] []
  | nameless {body typeName text : String} {rest : List String} {ps : List Param}
      (divides : Divides body typeName text) (blank : ∀ c ∈ text.toList, isBlank c = true)
      (more : Reads rest ps) : Reads (body :: rest) ps
  | named {body typeName text : String} {name description : List Char} {rest : List String}
      {ps : List Param} (divides : Divides body typeName text)
      (starts : StartsWith text.toList name description) (more : Reads rest ps) :
      Reads (body :: rest)
        ({ name := .ofList name, typeName, description := .ofList (strip description) } :: ps)

section Lists

variable {body typeName text : String} {rest bodies : List String} {ps : List Param}

/-- A blank text gives no parameter. -/
private theorem param?_of_blank (h : ∀ c ∈ text.toList, isBlank c = true) :
    param? typeName text = none := by
  rw [param?, firstWord_eq_none_iff.2 h]
  rfl

/-- A text gives the parameter that its first word names. -/
private theorem param?_of_startsWith {name description : List Char}
    (h : StartsWith text.toList name description) :
    param? typeName text =
      some { name := .ofList name, typeName, description := .ofList (strip description) } := by
  rw [param?, firstWord_of_startsWith h]
  rfl

/-- The first body that is not accepted is the error. -/
private theorem params_cons_of_not_accepted (h : ¬Accepted body) :
    params (body :: rest) = .error body := by
  rw [params, splitBody_of_not_accepted h]

/-- A body that is divided gives a parameter or none, and the others follow. -/
private theorem params_cons_of_divides (h : Divides body typeName text) :
    params (body :: rest) = (params rest).map ((param? typeName text).toList ++ ·) := by
  rw [params, splitBody_of_divides h]
  dsimp only
  congr 1
  funext ps
  cases param? typeName text <;> rfl

/-- **The parameters of bodies**, if all of them can be divided. -/
theorem params_ok_iff : params bodies = .ok ps ↔ Reads bodies ps := by
  constructor
  · intro h
    induction bodies generalizing ps with
    | nil =>
      cases h
      exact .nil
    | cons body rest ih =>
      by_cases haccepted : Accepted body
      · obtain ⟨typeName, text, hdivides⟩ := haccepted.exists_divides
        rw [params_cons_of_divides hdivides] at h
        cases hrest : params rest with
        | error e =>
          rw [hrest] at h
          cases h
        | ok qs =>
          rw [hrest] at h
          cases h
          by_cases hblank : ∀ c ∈ text.toList, isBlank c = true
          · rw [param?_of_blank hblank]
            exact .nameless hdivides hblank (ih hrest)
          · obtain ⟨name, description, hstarts⟩ := exists_startsWith hblank
            rw [param?_of_startsWith hstarts]
            exact .named hdivides hstarts (ih hrest)
      · rw [params_cons_of_not_accepted haccepted] at h
        cases h
  · intro h
    induction h with
    | nil => rfl
    | nameless divides blank more ih =>
      rw [params_cons_of_divides divides, ih, param?_of_blank blank]
      rfl
    | named divides starts more ih =>
      rw [params_cons_of_divides divides, ih, param?_of_startsWith starts]
      rfl

/-- **The first body that cannot be divided** is the error. -/
theorem params_error_iff : params bodies = .error body ↔ FirstRejected bodies body := by
  induction bodies with
  | nil =>
    constructor
    · intro h
      cases h
    · rintro ⟨earlier, later, h, -⟩
      simp at h
  | cons first rest ih =>
    by_cases haccepted : Accepted first
    · obtain ⟨typeName, text, hdivides⟩ := haccepted.exists_divides
      have hmap : params (first :: rest) = .error body ↔ params rest = .error body := by
        rw [params_cons_of_divides hdivides]
        cases params rest <;> simp [Except.map]
      rw [hmap, ih]
      constructor
      · rintro ⟨earlier, later, rfl, hearlier, hrejected⟩
        exact ⟨first :: earlier, later, rfl, List.forall_mem_cons.2 ⟨haccepted, hearlier⟩,
          hrejected⟩
      · rintro ⟨earlier, later, heq, hearlier, hrejected⟩
        cases earlier with
        | nil =>
          obtain ⟨rfl, -⟩ := List.cons.inj heq
          exact absurd haccepted hrejected
        | cons b earlier =>
          obtain ⟨rfl, rfl⟩ := List.cons.inj heq
          exact ⟨earlier, later, rfl, (List.forall_mem_cons.1 hearlier).2, hrejected⟩
    · rw [params_cons_of_not_accepted haccepted, Except.error.injEq]
      constructor
      · rintro rfl
        exact ⟨[], rest, rfl, by simp, haccepted⟩
      · rintro ⟨earlier, later, heq, hearlier, -⟩
        cases earlier with
        | nil => exact (List.cons.inj heq).1
        | cons b earlier =>
          obtain ⟨rfl, -⟩ := List.cons.inj heq
          exact absurd (hearlier first List.mem_cons_self) haccepted

/-- A return value is read off a body that can be divided. -/
private theorem returns_ok_iff {r : Return} : returns body = .ok r ↔
    ∃ text, Divides body r.typeName text ∧ r.description = trim text := by
  constructor
  · intro h
    rw [returns] at h
    split at h
    · rename_i typeName text hsplit
      cases h
      exact ⟨text, splitBody_eq_some_iff.1 hsplit, rfl⟩
    · cases h
  · rintro ⟨text, hdivides, hdescription⟩
    rw [returns, splitBody_of_divides hdivides]
    dsimp only
    rw [← hdescription]

/-- A return value is refused if its body is not accepted. -/
private theorem returns_error_iff {e : String} :
    returns body = .error e ↔ e = body ∧ ¬Accepted body := by
  rw [← splitBody_eq_none_iff, returns]
  split
  · rename_i hsplit
    simp [hsplit]
  · rename_i hsplit
    simp [hsplit, eq_comm]

end Lists

/-- **The meaning of bodies.** A body is divided, and a parameter named, as the patterns have it.
That is to say: a body can be divided exactly if a brace is opened and later closed in it, or it
begins with a word; its type is then what stands between the first brace that opens and the last
one that closes, and its text is the rest. A list of bodies gives the parameters that they name, or
else its first body that cannot be divided, and a return value has the whole text. -/
theorem bodies_iff :
    (∀ body, splitBody body = (bodyPattern.first? body.toList).map dividedBy) ∧
      (∀ text, firstWord text = (namePattern.first? text).map namedBy) ∧
      (∀ body, (∃ parts, splitBody body = some parts) ↔ Accepted body) ∧
      (∀ body typeName text,
        splitBody body = some (typeName, text) ↔ Divides body typeName text) ∧
      (∀ bodies body, params bodies = .error body ↔ FirstRejected bodies body) ∧
      (∀ bodies ps, params bodies = .ok ps ↔ Reads bodies ps) ∧
      (∀ body e, returns body = .error e ↔ e = body ∧ ¬Accepted body) ∧
      ∀ body r, returns body = .ok r ↔
        ∃ text, Divides body r.typeName text ∧ r.description = trim text := by
  refine ⟨splitBody_eq_first?, firstWord_eq_first?, fun body => ?_,
    fun _ _ _ => splitBody_eq_some_iff, fun _ _ => params_error_iff, fun _ _ => params_ok_iff,
    fun _ _ => returns_error_iff, fun _ _ => returns_ok_iff⟩
  rw [← Option.ne_none_iff_exists', Ne, splitBody_eq_none_iff, not_not]

/-! ### Parameters as they are written -/

/-- The body that gives a parameter's type first. -/
def typeFirst (p : Param) : String :=
  "\x7b" ++ p.typeName ++ "\x7d " ++ p.name ++ " " ++ p.description

/-- The body that gives a parameter's name first. -/
def nameFirst (p : Param) : String :=
  p.name ++ " \x7b" ++ p.typeName ++ "\x7d " ++ p.description

/-- **A parameter can be written**: its name is one word without braces, and no blanks stand around
its type and its description. -/
structure Writable (p : Param) : Prop where
  typeName : trim p.typeName = p.typeName
  nonempty : p.name ≠ ""
  name : ∀ c ∈ p.name.toList, isBlank c = false ∧ c ≠ '\x7b' ∧ c ≠ '\x7d'
  description : trim p.description = p.description

section Written

variable {body : String} {before inside after : List Char} {p : Param}

/-- What stands before the first brace that opens is determined. -/
private theorem append_cons_inj {a : Char} {x y x' y' : List Char} (hx : a ∉ x) (hx' : a ∉ x')
    (h : x ++ a :: y = x' ++ a :: y') : x = x' ∧ y = y' := by
  have htake := (takeWhile_ne_append hx y).1
  rw [h, (takeWhile_ne_append hx' y').1] at htake
  subst htake
  exact ⟨rfl, (List.cons.inj (List.append_cancel_left h)).2⟩

/-- **The type ends too late** if a brace closes after it. -/
theorem Divides.notMem_of_split {typeName text : String} (h : Divides body typeName text)
    (hsplit : body.toList = before ++ '\x7b' :: (inside ++ '\x7d' :: after))
    (hbefore : '\x7b' ∉ before) (htype : typeName.toList.count '\x7d' = inside.count '\x7d') :
    '\x7d' ∉ after := by
  cases h with
  | untyped noType split blank word => exact absurd ⟨_, _, _, hsplit⟩ noType
  | typed split first last =>
    obtain ⟨-, hinside⟩ := append_cons_inj first hbefore (split.symm.trans hsplit)
    have hcount := congrArg (List.count '\x7d') hinside
    rw [String.toList_ofList, count_strip (by decide)] at htype
    rw [List.count_append, List.count_append, List.count_cons_self, List.count_cons_self, htype,
      List.count_eq_zero.2 last] at hcount
    exact List.count_eq_zero.1 (by omega)

/-- A body with a type and a name gives the parameter exactly if no brace closes after the type. -/
private theorem params_singleton_iff (h : Writable p)
    (hsplit : body.toList = before ++ '\x7b' :: (p.typeName.toList ++ '\x7d' :: after))
    (hbefore : '\x7b' ∉ before) {rest : List Char}
    (hstarts : StartsWith (before ++ after) p.name.toList rest)
    (hrest : strip rest = p.description.toList) :
    params [body] = .ok [p] ↔ '\x7d' ∉ after := by
  have htype : strip p.typeName.toList = p.typeName.toList := by
    rw [← toList_trim, h.typeName]
  constructor
  · intro hok
    cases params_ok_iff.1 hok with
    | nameless divides blank more => cases more
    | named divides starts more => exact divides.notMem_of_split hsplit hbefore rfl
  · intro hafter
    have hdivides := Divides.typed hsplit hbefore hafter
    have hname : param? p.typeName (.ofList (strip (before ++ after))) = some p := by
      rw [param?, String.toList_ofList, firstWord_strip, firstWord_of_startsWith hstarts, hrest]
      simp
    rw [htype, String.ofList_toList] at hdivides
    rw [params_cons_of_divides hdivides, hname]
    rfl

end Written

/-- **A parameter reads back from its two written forms exactly if its description closes no
brace**, whatever braces there are in its type. With one that does, the type goes on to it. -/
theorem params_written_iff {p : Param} (h : Writable p) :
    (params [typeFirst p] = .ok [p] ↔ '\x7d' ∉ p.description.toList) ∧
      (params [nameFirst p] = .ok [p] ↔ '\x7d' ∉ p.description.toList) := by
  have hdescription : strip p.description.toList = p.description.toList := by
    rw [← toList_trim, h.description]
  have hblank : ∀ c ∈ [' '], isBlank c = true := List.forall_mem_singleton.2 (by decide)
  have hword : ∀ c ∈ p.name.toList, isBlank c = false := fun c hc => (h.name c hc).1
  have hnonempty : p.name.toList ≠ [] := by simpa using h.nonempty
  have hopen : '\x7b' ∉ p.name.toList := fun hmem => (h.name _ hmem).2.1 rfl
  have hclose : '\x7d' ∉ p.name.toList := fun hmem => (h.name _ hmem).2.2 rfl
  have hspace : ∀ (rest : List Char) c, (' ' :: rest).head? = some c → isBlank c = true :=
    fun rest c hc => by cases hc; decide
  constructor
  · have hsplit : (typeFirst p).toList = [] ++ '\x7b' :: (p.typeName.toList ++
        '\x7d' :: (' ' :: (p.name.toList ++ ' ' :: p.description.toList))) := by
      simp [typeFirst]
    have hstarts : StartsWith ([] ++ ' ' :: (p.name.toList ++ ' ' :: p.description.toList))
        p.name.toList (' ' :: p.description.toList) :=
      ⟨⟨[' '], by simp, hblank⟩, hnonempty, hword, hspace _⟩
    rw [params_singleton_iff h hsplit (by simp) hstarts
      ((strip_append_left hblank _).trans hdescription)]
    simp [hclose]
  · have hsplit : (nameFirst p).toList = (p.name.toList ++ [' ']) ++ '\x7b' ::
        (p.typeName.toList ++ '\x7d' :: (' ' :: p.description.toList)) := by
      simp [nameFirst]
    have hstarts : StartsWith (p.name.toList ++ [' '] ++ ' ' :: p.description.toList)
        p.name.toList (' ' :: ' ' :: p.description.toList) :=
      ⟨⟨[], by simp, by simp⟩, hnonempty, hword, hspace _⟩
    have hrest : strip (' ' :: ' ' :: p.description.toList) = p.description.toList :=
      ((strip_append_left hblank _).trans (strip_append_left hblank _)).trans hdescription
    rw [params_singleton_iff h hsplit (by simp [hopen]) hstarts hrest]
    simp

/-- A type with braces reads back, but not if the description has braces as well. -/
theorem params_written_braces :
    let p : Param :=
      { name := "opts", typeName := "\x7ba: Number\x7d", description := "such as \x7b" }
    let q : Param := { p with description := "such as \x7ba: 1\x7d" }
    Writable p ∧ Writable q ∧ params [typeFirst p] = .ok [p] ∧ params [typeFirst q] ≠ .ok [q] := by
  intro p q
  have hname : ∀ c ∈ "opts".toList, isBlank c = false ∧ c ≠ '\x7b' ∧ c ≠ '\x7d' := by
    have hall : "opts".toList.all (fun c => !isBlank c && c != '\x7b' && c != '\x7d') = true := by
      decide +kernel
    intro c hc
    simpa [and_assoc] using List.all_eq_true.1 hall c hc
  have hp : Writable p := ⟨by decide +kernel, by decide, hname, by decide +kernel⟩
  have hq : Writable q := ⟨by decide +kernel, by decide, hname, by decide +kernel⟩
  refine ⟨hp, hq, (params_written_iff hp).1.2 (by decide +kernel), ?_⟩
  exact mt (params_written_iff hq).1.1 (by decide +kernel)

end ApiDocs.Signature
