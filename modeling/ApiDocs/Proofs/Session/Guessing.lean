import ApiDocs.Proofs.Session.Congruence
import ApiDocs.Proofs.Text.Trim

/-!
# Guessed subjects

If no tag says what a comment documents, the code after it may. **A guess does what a tag for it at
the end of the comment would do**: it gives the same result, the same model and the same context but
for the warnings. With a tag that says it, the code after the comment does not matter
(`readComment_guess`).

A tag at the end of a comment is one more tag, and the last tag before it has the value that it has
without it (`collectFrom_concat`), since no tag takes another one for its value. Only the warning
about a missing value is another one. So both comments are prepared alike but for what is reported,
and what is reported is never read again (`congruence_sameButReports`).
-/

namespace ApiDocs

/-! ### The tag that says what code declares -/

namespace Comment

open Text

namespace Declaration

/-- The tag for what is declared. -/
def tag : Declaration → String
  | method _ => "method"
  | property _ => "property"

/-- The name that is declared. -/
def name : Declaration → String
  | method name => name
  | property name => name

/-- **The token that says what is declared.** -/
def token (d : Declaration) : String := "@" ++ d.tag ++ " " ++ d.name

/-- What is declared has a name, and the name is a word. -/
structure Named (d : Declaration) : Prop where
  ne_empty : d.name ≠ ""
  isWord : ∀ c ∈ d.name.toList, isWord c = true

variable {d : Declaration}

/-- A declaration is one of a method or of a property. -/
private theorem tag_eq (d : Declaration) : d.tag = "method" ∨ d.tag = "property" := by
  cases d with
  | method => exact .inl rfl
  | property => exact .inr rfl

end Declaration

/-- A name that is assigned to is a word. -/
private theorem assignedName_word {cs name after : List Char}
    (h : assignedName cs = some (name, after)) :
    name ≠ [] ∧ ∀ c ∈ name, isWord c = true := by
  have hword {c : Char} {rest : List Char} (hc : isWord c = true) :
      c :: rest.takeWhile isWord ≠ [] ∧ ∀ d ∈ c :: rest.takeWhile isWord, isWord d = true := by
    refine ⟨List.cons_ne_nil _ _, fun d hd => ?_⟩
    rcases List.mem_cons.1 hd with rfl | hd
    · exact hc
    · exact List.mem_takeWhile_imp hd
  fun_induction assignedName cs with
  | case1 => cases h
  | case2 c rest hc tail heq =>
    cases h
    exact hword hc
  | case3 c rest hc tail heq =>
    cases h
    exact hword hc
  | case4 c rest hc hequals hcolon ih => exact ih h
  | case5 c rest hc ih => exact ih h

/-- A guess has a name. -/
private theorem named_of_guess {line : String} {d : Declaration} (h : guess line = some d) :
    d.Named := by
  obtain ⟨⟨name, after⟩, hname, rfl⟩ := Option.map_eq_some_iff.1 h
  obtain ⟨hne, hword⟩ := assignedName_word hname
  have hnamed (d : Declaration) (hd : d.name = .ofList name) : d.Named := by
    constructor
    · rw [hd]
      intro hempty
      exact hne (by simpa using congrArg String.toList hempty)
    · rw [hd, String.toList_ofList]
      exact hword
  dsimp only
  split <;> exact hnamed _ rfl

end Comment

section Token

open Text

/-- A word after an at sign is a tag, and what follows after a blank is its value. -/
private theorem splitTag_word {word value : List Char} (hword : ∀ c ∈ word, isWord c = true)
    (hvalue : Stripped value) :
    splitTag (.ofList ('@' :: (word ++ ' ' :: value))) = (lower (.ofList word), .ofList value) := by
  have hat : ∀ c, (word ++ ' ' :: value).head? = some c → ¬c = '@' := by
    rintro c hc rfl
    cases word with
    | nil => cases hc
    | cons c word =>
      cases hc
      exact absurd (hword _ List.mem_cons_self) (by decide)
  have hstart : (dropBlanks ('@' :: (word ++ ' ' :: value))).dropWhile (· = '@') =
      word ++ ' ' :: value := by
    rw [dropBlanks_cons, if_neg (by decide), List.dropWhile_cons_of_pos (by simp)]
    cases hrest : word ++ ' ' :: value with
    | nil => rfl
    | cons c rest =>
      rw [List.dropWhile_cons_of_neg]
      simpa using hat c (by rw [hrest]; rfl)
  have hcut : cutAtBlank (word ++ ' ' :: value) = (word, value) := by
    have hblank : ∀ c ∈ word, (!isBlank c) = true := fun c hc => by
      rw [isBlank_of_isWord (hword c hc), Bool.not_false]
    have hspace : isBlank ' ' = true := by decide
    rw [cutAtBlank, List.takeWhile_append_of_pos hblank, List.dropWhile_append_of_pos hblank]
    simp [hspace]
  rw [splitTag, String.toList_ofList, hstart, hcut, strip_eq_self hvalue]

namespace Comment.Declaration

variable {d : Declaration} (h : d.Named)

/-- The token of a declaration is an at sign, the tag and the name behind a blank. -/
private theorem token_eq (d : Declaration) :
    d.token = .ofList ('@' :: (d.tag.toList ++ ' ' :: d.name.toList)) := by
  refine String.toList_inj.1 ?_
  rw [String.toList_ofList, token]
  simp

private theorem isTag_token (d : Declaration) : isTag d.token = true := by
  rw [token_eq, isTag, String.toList_ofList, dropBlanks_cons, if_neg (by decide)]
  rfl

include h

/-- The name is a word, so no blank stands at the end of the token. -/
private theorem stripped_token : Stripped d.token.toList := by
  rw [token_eq, String.toList_ofList]
  constructor
  · rintro c ⟨⟩
    decide
  · intro c hc
    have hne : d.name.toList ≠ [] := by simpa using h.ne_empty
    have hsplit : '@' :: (d.tag.toList ++ ' ' :: d.name.toList) =
        '@' :: d.tag.toList ++ [' '] ++ d.name.toList := by simp
    rw [hsplit, List.getLast?_append, List.getLast?_eq_some_getLast hne] at hc
    cases hc
    exact isBlank_of_isWord (h.isWord _ (List.getLast_mem hne))

private theorem trim_token : trim d.token = d.token := by
  rw [trim, strip_eq_self (stripped_token h), String.ofList_toList]

/-- The token gives the tag and the name back. -/
private theorem splitTag_token : splitTag d.token = (d.tag, d.name) := by
  have hword : ∀ c ∈ d.tag.toList, isWord c = true := by
    refine List.all_eq_true.1 ?_
    rcases d.tag_eq with htag | htag <;> rw [htag] <;> decide +kernel
  have hlower : lower d.tag = d.tag := by
    rcases d.tag_eq with htag | htag <;> rw [htag] <;> decide +kernel
  rw [token_eq, splitTag_word hword (stripped_of_isWord h.isWord), String.ofList_toList,
    String.ofList_toList, hlower]

end Comment.Declaration

end Token

/-! ### A tag at the end of a comment -/

namespace Collected

/-- The same tags are collected, and the same module is opened. -/
structure SameTags (c c' : Collected) : Prop where
  tags : c'.tags = c.tags
  inModule : c'.inModule = c.inModule

variable {c c' : Collected}

theorem SameTags.refl (c : Collected) : c.SameTags c := ⟨rfl, rfl⟩

private theorem SameTags.warn (c : Collected) (w w' : Warning) : (c.warn w).SameTags (c.warn w') :=
  ⟨rfl, rfl⟩

/-- The same tag can be added on both sides. -/
private theorem SameTags.add (h : c.SameTags c') (tag value : String) :
    (c.add tag value).SameTags (c'.add tag value) := by
  rw [Collected.add, Collected.add, h.tags]
  split
  · split
    · exact ⟨rfl, h.inModule⟩
    · exact ⟨rfl, rfl⟩
  · exact ⟨rfl, h.inModule⟩

end Collected

/-- The pass over the tokens goes on after the first token or after the second one, and what comes
after that does not matter for this. -/
private theorem exists_collectFrom_append (c : Collected) (first next : String)
    (rest : List String) :
    ∃ c', (∀ more, collectFrom c (first :: next :: rest ++ more) =
        collectFrom c' (next :: rest ++ more)) ∨
      ∀ more, collectFrom c (first :: next :: rest ++ more) = collectFrom c' (rest ++ more) := by
  simp only [List.cons_append]
  by_cases htext : (!Comment.isTag first) = true
  · refine ⟨c.describe first, .inl fun more => ?_⟩
    rw [collectFrom_cons_cons, if_pos htext]
  by_cases hown : (!(splitTag first).2.isEmpty || decide ((splitTag first).1 ∈ singleTags)) = true
  · refine ⟨c.add (splitTag first).1 (splitTag first).2, .inl fun more => ?_⟩
    rw [collectFrom_cons_cons, if_neg htext, if_pos hown]
  by_cases htag : Comment.isTag next = true
  · refine ⟨(c.warn (.descriptionIsTag (splitTag first).1 (splitTag next).1)).add
      (splitTag first).1 "", .inl fun more => ?_⟩
    rw [collectFrom_cons_cons, if_neg htext, if_neg hown, if_pos htag]
  by_cases hempty : next.isEmpty = true
  · refine ⟨(c.warn (.emptyDescription (splitTag first).1)).add (splitTag first).1 "",
      .inr fun more => ?_⟩
    rw [collectFrom_cons_cons, if_neg htext, if_neg hown, if_neg htag, if_pos hempty]
  · refine ⟨c.add (splitTag first).1 next, .inr fun more => ?_⟩
    rw [collectFrom_cons_cons, if_neg htext, if_neg hown, if_neg htag, if_neg hempty]

/-- **A tag at the end of a comment is one more tag.** The tag before it, if it has no value, takes
none from it. -/
theorem collectFrom_concat {token : String} (htag : Comment.isTag token = true)
    (hvalue : (splitTag token).2.isEmpty = false) (c : Collected) (tokens : List String) :
    ((collectFrom c tokens).add (splitTag token).1 (splitTag token).2).SameTags
      (collectFrom c (tokens ++ [token])) := by
  have hlast (c : Collected) :
      collectFrom c [token] = c.add (splitTag token).1 (splitTag token).2 := by
    rw [collectFrom_singleton, if_neg (by simp [htag]), if_pos (by simp [hvalue])]
  -- as a tag may take the next token, the induction is on the number of tokens
  induction hn : tokens.length using Nat.strongRecOn generalizing c tokens with
  | ind n ih =>
    subst hn
    cases tokens with
    | nil =>
      rw [List.nil_append, hlast]
      exact .refl _
    | cons first rest =>
      cases rest with
      | nil =>
        rw [List.singleton_append, collectFrom_cons_cons, collectFrom_singleton]
        by_cases htext : (!Comment.isTag first) = true
        · rw [if_pos htext, if_pos htext, hlast]
          exact .refl _
        · rw [if_neg htext, if_neg htext]
          by_cases hown :
              (!(splitTag first).2.isEmpty || decide ((splitTag first).1 ∈ singleTags)) = true
          · rw [if_pos hown, if_pos hown, hlast]
            exact .refl _
          · rw [if_neg hown, if_neg hown, if_pos htag, hlast]
            exact ((Collected.SameTags.warn c _ _).add _ _).add _ _
      | cons next rest =>
        obtain ⟨c', hskip | hskip⟩ := exists_collectFrom_append c first next rest
        · have hstart := hskip []
          rw [List.append_nil, List.append_nil] at hstart
          rw [hskip, hstart]
          exact ih _ (Nat.lt_succ_self _) _ _ rfl
        · have hstart := hskip []
          rw [List.append_nil, List.append_nil] at hstart
          rw [hskip, hstart]
          exact ih _ (Nat.lt_succ_of_lt (Nat.lt_succ_self _)) _ _ rfl

/-- A comment with a tag for a declaration at its end. -/
private theorem collect_concat_token {d : Comment.Declaration} (h : d.Named)
    (tokens : List String) :
    (collect (tokens ++ [d.token])).tags = (collect tokens).tags.push d.tag d.name ∧
      (collect (tokens ++ [d.token])).inModule = (collect tokens).inModule := by
  have hsplit := d.splitTag_token h
  have hvalue : (splitTag d.token).2.isEmpty = false := by
    rw [hsplit]
    simpa using h.ne_empty
  have hsame := collectFrom_concat d.isTag_token hvalue {} (tokens.map Text.trim)
  have hmodule : ¬d.tag = "module" := by
    rcases d.tag_eq with htag | htag <;> rw [htag] <;> decide
  rw [hsplit, Collected.add, if_neg hmodule] at hsame
  have heq : collect (tokens ++ [d.token]) =
      collectFrom {} (tokens.map Text.trim ++ [d.token]) := by
    rw [collect, List.map_append, List.map_singleton, d.trim_token h]
  rw [heq]
  exact ⟨hsame.tags, hsame.inModule⟩

/-! ### One more tag in the map -/

namespace TagMap

variable (t : TagMap) {tag k : String} (value : String)

/-- A tag that is added counts for its own name only. -/
private theorem first_push_of_ne (h : k ≠ tag) : (t.push tag value).first k = t.first k := by
  rw [first, push, Dict.get?_insert, if_neg h]
  rfl

private theorem contains_push_of_ne (h : k ≠ tag) :
    (t.push tag value).contains k = t.contains k := by
  rw [push, Dict.contains_insert, beq_false_of_ne h, Bool.false_or]

/-- Adding one tag and taking out another can be done in either order. -/
private theorem erase_push (h : k ≠ tag) :
    (t.push tag value).erase k = push (t.erase k) tag value := by
  refine Dict.ext_get? fun j => ?_
  rw [Dict.get?_erase, push, push, Dict.get?_insert, Dict.get?_insert, Dict.get?_erase, all_erase,
    if_neg h.symm]
  split
  · rename_i hj
    rw [if_neg (hj ▸ h)]
  · rfl

end TagMap

/-! ### Sessions that differ in what they report -/

namespace Session

/-- **The sessions differ in their warnings and in their logs only.** -/
structure SameButReports (s s' : Session) : Prop where
  model : s'.model = s.model
  context : s'.context.quiet = s.context.quiet

namespace SameButReports

variable {s s' s'' : Session}

theorem refl (s : Session) : s.SameButReports s := ⟨rfl, rfl⟩

theorem symm (h : s.SameButReports s') : s'.SameButReports s := ⟨h.model.symm, h.context.symm⟩

theorem trans (h : s.SameButReports s') (h' : s'.SameButReports s'') : s.SameButReports s'' :=
  ⟨h'.model.trans h.model, h'.context.trans h.context⟩

/-- The warnings and the log are all that differs. -/
private theorem exists_eq (h : s.SameButReports s') : ∃ warnings notes,
    s' = { s with context := { s.context with warnings }, notes } := by
  obtain ⟨model, context, notes⟩ := s
  obtain ⟨model', context', notes'⟩ := s'
  obtain rfl : model' = model := h.model
  refine ⟨context'.warnings, notes', ?_⟩
  have hcontext : context' = { context with warnings := context'.warnings } := by
    have hquiet := congrArg (fun c : Context => { c with warnings := context'.warnings }) h.context
    exact hquiet
  rw [← hcontext]

end SameButReports

private theorem sameButReports_warnAll (s : Session) (tokens : List String) (ws : List Warning) :
    s.SameButReports (s.warnAll tokens ws) := by
  induction ws generalizing s with
  | nil => exact .refl s
  | cons w ws ih =>
    have hwarn : s.SameButReports (s.warn tokens w) := ⟨rfl, rfl⟩
    exact hwarn.trans (ih (s.warn tokens w))

/-- **What is reported is never read again.** -/
theorem congruence_sameButReports : Congruence SameButReports where
  context h := h.context
  contains h cls := by rw [h.model]
  log h _ _ := ⟨h.model, h.context⟩
  warn h _ _ _ := ⟨h.model, h.context⟩
  enterModule h name := by
    obtain ⟨_, _, rfl⟩ := h.exists_eq
    cases name <;> exact ⟨rfl, rfl⟩
  enterNamespace h name := by
    obtain ⟨_, _, rfl⟩ := h.exists_eq
    exact ⟨rfl, rfl⟩
  enterClass h cls := by
    obtain ⟨_, _, rfl⟩ := h.exists_eq
    exact ⟨rfl, rfl⟩
  defineClass {s s'} h tokens tokens' name := by
    have hspace : s'.namespaceName = s.namespaceName :=
      congrArg (·.inNamespace.getD "") h.context
    have hname : s'.fullName name = s.fullName name :=
      congrArg (fun ns => (qualify ns name).2) hspace
    rw [defineClass, defineClass, hname, hspace, h.model]
    obtain ⟨_, _, rfl⟩ := h.exists_eq
    dsimp only
    split <;> exact ⟨rfl, rfl⟩
  modifyClass h cls f _ := by
    obtain ⟨_, _, rfl⟩ := h.exists_eq
    exact ⟨rfl, rfl⟩
  enterFile h name := by
    obtain ⟨_, _, rfl⟩ := h.exists_eq
    exact ⟨rfl, rfl⟩
  placeFile {s _} h file := by
    obtain ⟨_, _, rfl⟩ := h.exists_eq
    rw [placeFile, placeFile]
    dsimp only
    split <;> exact ⟨rfl, rfl⟩
  addModules h names := by
    obtain ⟨_, _, rfl⟩ := h.exists_eq
    exact ⟨rfl, rfl⟩
  addSubmodule h mod sub description := by
    obtain ⟨_, _, rfl⟩ := h.exists_eq
    exact ⟨rfl, rfl⟩
  describeModule h tokens tokens' mod description := by
    obtain ⟨_, _, rfl⟩ := h.exists_eq
    rw [describeModule.eq_def, describeModule.eq_def]
    dsimp only
    split <;> split <;> exact ⟨rfl, rfl⟩
  drainInto h mod := by
    obtain ⟨_, _, rfl⟩ := h.exists_eq
    exact ⟨rfl, rfl⟩
  claimSubmodule h cls description := by
    obtain ⟨_, _, rfl⟩ := h.exists_eq
    rw [claimSubmodule, claimSubmodule]
    dsimp only
    split <;> exact ⟨rfl, rfl⟩
  markGlobal h tags cls := by
    obtain ⟨_, _, rfl⟩ := h.exists_eq
    rw [markGlobal, markGlobal]
    split <;> exact ⟨rfl, rfl⟩
  placeClass h cls := by
    obtain ⟨_, _, rfl⟩ := h.exists_eq
    rw [placeClass, placeClass]
    dsimp only
    split <;> exact ⟨rfl, rfl⟩
  listInFile h cls := by
    obtain ⟨_, _, rfl⟩ := h.exists_eq
    rw [listInFile, listInFile]
    dsimp only
    split <;> exact ⟨rfl, rfl⟩
  insertMember {s s'} h tokens tokens' cls kind doc _ := by
    obtain ⟨_, _, _, heq⟩ := exists_insertMember_eq s tokens cls kind doc
    obtain ⟨_, _, _, heq'⟩ := exists_insertMember_eq s' tokens' cls kind doc
    constructor
    · rw [model_insertMember, model_insertMember, h.model]
    · rw [heq, heq']
      exact h.context
  insertConfig {s s'} h tokens tokens' cls name := by
    obtain ⟨_, _, _, heq⟩ := exists_insertConfig_eq s tokens cls name
    obtain ⟨_, _, _, heq'⟩ := exists_insertConfig_eq s' tokens' cls name
    constructor
    · rw [model_insertConfig, model_insertConfig, h.model]
    · rw [heq, heq']
      exact h.context
  applyLeftovers h p := by
    obtain ⟨_, _, rfl⟩ := h.exists_eq
    rw [applyLeftovers, applyLeftovers]
    split <;> exact ⟨rfl, rfl⟩

/-! ### Comments with a guessed subject -/

private theorem guessSubject_of_structural (s : Session) {tags : TagMap}
    (h : structuralTags.any tags.contains = true) (following : Option String) :
    s.guessSubject tags following = (s, tags) := by
  rw [guessSubject, if_pos h]

/-- The tags that are handled before say nothing about the subject. -/
private theorem any_structural_erase {tag : String} (h : tag ∉ structuralTags) (tags : TagMap) :
    structuralTags.any (tags.erase tag).contains = structuralTags.any tags.contains := by
  rw [Bool.eq_iff_iff, List.any_eq_true, List.any_eq_true]
  refine exists_congr fun k => and_congr_right fun hk => ?_
  rw [Dict.contains_erase_of_ne]
  rintro rfl
  exact h hk

section Prepare

variable (s : Session) {tokens : List String}

/-- Where the tags say what the comment is about, the following code does not matter. -/
private theorem prepare_of_structural
    (h : structuralTags.any (collect tokens).tags.contains = true)
    (following following' : Option String) :
    s.prepare tokens following' = s.prepare tokens following := by
  have hspace : structuralTags.any ((collect tokens).tags.erase "namespace").contains = true :=
    (any_structural_erase (by decide) _).trans h
  have hfor : structuralTags.any
      (((collect tokens).tags.erase "namespace").erase "for").contains = true :=
    (any_structural_erase (by decide) _).trans hspace
  rw [prepare, prepare]
  simp only [guessSubject_of_structural _ hspace, guessSubject_of_structural _ hfor]

/-- A declaration is tagged like a comment that names it. -/
private theorem tagDeclaration_eq (tags : TagMap) (d : Comment.Declaration) :
    tagDeclaration tags d = tags.push d.tag d.name := by
  cases d <;> rfl

/-- Without such a tag the declaration of the following code is taken. -/
private theorem guessSubject_guess {tags : TagMap} (h : structuralTags.any tags.contains = false)
    {following : Option String} {d : Comment.Declaration}
    (hguess : following.bind Comment.guess = some d) :
    s.guessSubject tags following = (s.log [.guessed d], tags.push d.tag d.name) := by
  rw [guessSubject, if_neg (by rw [h]; exact Bool.false_ne_true), hguess, ← tagDeclaration_eq]

/-- With the tag of a declaration nothing is guessed. -/
private theorem guessSubject_push (d : Comment.Declaration) (tags : TagMap)
    (following : Option String) :
    s.guessSubject (tags.push d.tag d.name) following = (s, tags.push d.tag d.name) := by
  refine guessSubject_of_structural s ?_ following
  refine List.any_eq_true.2 ⟨d.tag, ?_, ?_⟩
  · rcases d.tag_eq with htag | htag <;> rw [htag] <;> decide
  · rw [TagMap.push, Dict.contains_insert, beq_self_eq_true, Bool.true_or]

/-- **A guess prepares a comment like a tag for it**, but for what is reported. -/
theorem prepare_guess (h : structuralTags.any (collect tokens).tags.contains = false)
    {following : Option String} {d : Comment.Declaration}
    (hguess : following.bind Comment.guess = some d) (following' : Option String) :
    Both SameButReports (s.prepare tokens following)
      (s.prepare (tokens ++ [d.token]) following') := by
  obtain ⟨line, -, hline⟩ := Option.bind_eq_some_iff.1 hguess
  obtain ⟨htags, hmodule⟩ := collect_concat_token (Comment.named_of_guess hline) tokens
  have hother (tag : String) (htag : tag ∉ ["method", "property"]) : tag ≠ d.tag := by
    rintro rfl
    rcases d.tag_eq with h | h <;> rw [h] at htag <;> exact absurd htag (by decide)
  have hspace : structuralTags.any ((collect tokens).tags.erase "namespace").contains = false :=
    (any_structural_erase (by decide) _).trans h
  have hfor : structuralTags.any
      (((collect tokens).tags.erase "namespace").erase "for").contains = false :=
    (any_structural_erase (by decide) _).trans hspace
  have C := congruence_sameButReports
  have hwarn : (s.warnAll tokens (collect tokens).warnings).SameButReports
      (s.warnAll (tokens ++ [d.token]) (collect (tokens ++ [d.token])).warnings) :=
    (sameButReports_warnAll s _ _).symm.trans (sameButReports_warnAll s _ _)
  have hstart := C.applyNamespace (C.enterModule hwarn (collect tokens).inModule)
    (collect tokens).tags
  have hnamespace (s : Session) : s.applyNamespace ((collect tokens).tags.push d.tag d.name) =
      s.applyNamespace (collect tokens).tags := by
    rw [applyNamespace, applyNamespace, TagMap.name?, TagMap.name?,
      TagMap.first_push_of_ne _ _ (hother "namespace" (by decide))]
  rw [prepare, prepare, htags, hmodule, hnamespace,
    TagMap.erase_push _ _ (hother "namespace" (by decide)),
    TagMap.erase_push _ _ (hother "for" (by decide)),
    TagMap.first_push_of_ne _ _ (hother "for" (by decide)),
    TagMap.contains_push_of_ne _ _ (hother "class" (by decide))]
  split
  · rename_i name _
    have hredirect := C.enterFor hstart tokens (tokens ++ [d.token]) name
    split
    · rw [guessSubject_guess _ hspace hguess, guessSubject_push]
      exact ⟨⟨hstart.model, hstart.context⟩, rfl⟩
    · rw [guessSubject_guess _ hfor hguess, guessSubject_push]
      exact ⟨⟨hredirect.model, hredirect.context⟩, rfl⟩
  · rw [guessSubject_guess _ hspace hguess, guessSubject_push]
    exact ⟨⟨hstart.model, hstart.context⟩, rfl⟩

end Prepare

/-- **A guess does what a tag at the end of the comment would do**, but for the warnings, and a tag
that says what the comment documents leaves nothing to guess. -/
theorem readComment_guess (s : Session) (tokens : List String) (following : Option String) :
    ((∃ tag ∈ structuralTags, (collect tokens).tags.contains tag = true) →
      ∀ following', s.readComment tokens following' = s.readComment tokens following) ∧
    ((∀ tag ∈ structuralTags, (collect tokens).tags.contains tag = false) →
      ∀ d, following.bind Comment.guess = some d → ∀ following',
        (s.readComment (tokens ++ [d.token]) following').2 = (s.readComment tokens following).2 ∧
        (s.readComment (tokens ++ [d.token]) following').1.model =
          (s.readComment tokens following).1.model ∧
        (s.readComment (tokens ++ [d.token]) following').1.context.quiet =
          (s.readComment tokens following).1.context.quiet) := by
  constructor
  · intro h following'
    rw [readComment, readComment,
      prepare_of_structural s (List.any_eq_true.2 h) following following']
  · intro h d hguess following'
    have hnone : structuralTags.any (collect tokens).tags.contains = false :=
      List.any_eq_false.2 fun tag htag => by rw [h tag htag]; exact Bool.false_ne_true
    obtain ⟨hsame, hresult⟩ := congruence_sameButReports.readComment_of_prepare tokens
      (tokens ++ [d.token]) (prepare_guess s hnone hguess following')
    exact ⟨hresult, hsame.model, hsame.context⟩

/-- A guessed method and the same method with a tag; the last tag before it has another warning.
After a comment about another method the line is not looked at. -/
theorem readComment_guess_render :
    let s := ((start "1.0.0" 3).readComment ["", "@class View"] none).1
    let guessed := s.readComment ["Draws it.", "@since"] (some "render: function () \x7b")
    let tagged := s.readComment ["Draws it.", "@since", "@method render"] none
    let other := ["", "@method draw"]
    (guessed.2 = .ok () ∧ tagged.2 = guessed.2 ∧ tagged.1.model = guessed.1.model ∧
      tagged.1.context.quiet = guessed.1.context.quiet ∧
      guessed.1.context.warnings = [.emptyDescription "since"] ∧
      tagged.1.context.warnings = [.descriptionIsTag "since" "method"]) ∧
    s.readComment other (some "render: function () \x7b") = s.readComment other none := by
  intro s guessed tagged other
  have hnone : ∀ tag ∈ structuralTags,
      (collect ["Draws it.", "@since"]).tags.contains tag = false := by decide +kernel
  have hguess : (some "render: function () \x7b").bind Comment.guess = some (.method "render") := by
    decide +kernel
  have hsome : ∃ tag ∈ structuralTags, (collect other).tags.contains tag = true :=
    ⟨"method", by decide, by decide +kernel⟩
  obtain ⟨hresult, hmodel, hcontext⟩ :=
    (readComment_guess s ["Draws it.", "@since"] _).2 hnone _ hguess none
  refine ⟨⟨by decide +kernel, hresult, hmodel, hcontext, by decide +kernel, by decide +kernel⟩, ?_⟩
  exact (readComment_guess s other none).1 hsome _

end Session

end ApiDocs
