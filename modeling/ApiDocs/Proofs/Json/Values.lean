import Mathlib.Data.List.TakeWhile
import ApiDocs.Json.Printer
import ApiDocs.Json.Reader
import ApiDocs.Proofs.Text.Decimal

/-!
# Reading back simple values, arrays and dictionaries

A reader is compared with the writer one value at a time. `Decodes read v a` says that `read` takes
`a` from the written form of `v`, at every level of indentation, with white space before it and
with anything after it that a writer puts there. The readers of texts, truth values and numbers
have this property (`decodes_str`, `decodes_bool`, `decodes_num`), and those of optional values and
arrays have it if the reader of their parts does (`decodes_option`, `decodes_arr`).

For objects, `Takes member acc ms acc'` says that the members `ms` are taken in one after the
other, and `membersFrom_obj` reads a whole object from that; dictionaries are the first case
(`decodes_dict`).
-/

namespace ApiDocs.Json

open Text

/-! ### White space -/

private theorem skipSpace_cons {c : Char} (h : isSpace c = false) (cs : List Char) :
    skipSpace (c :: cs) = c :: cs :=
  List.dropWhile_cons_of_neg (by simp [h])

private theorem skipSpace_space {c : Char} (h : isSpace c = true) (cs : List Char) :
    skipSpace (c :: cs) = skipSpace cs :=
  List.dropWhile_cons_of_pos h

/-- Line breaks are skipped with their indentation. -/
private theorem skipSpace_newline (depth : Nat) (cs : List Char) :
    skipSpace (newline depth ++ cs) = skipSpace cs := by
  have hspaces : ∀ c ∈ newline depth, isSpace c = true := by
    intro c hc
    rcases List.mem_cons.1 hc with rfl | hc
    · decide
    · rw [List.eq_of_mem_replicate hc]
      decide
  exact List.dropWhile_append_of_pos hspaces

/-- What may follow a value: nothing, a comma, or a line end. -/
def EndsValue (rest : List Char) : Prop := ∀ c, rest.head? = some c → c = ',' ∨ c = '\n'

private theorem endsValue_comma (cs : List Char) : EndsValue (',' :: cs) := by
  rintro c ⟨⟩
  exact .inl rfl

theorem endsValue_newline (depth : Nat) (cs : List Char) : EndsValue (newline depth ++ cs) := by
  rintro c ⟨⟩
  exact .inr rfl

/-- Behind an item of a list there is another one or the end of the list. -/
private theorem endsValue_writeItems (depth : Nat) (vs : List Json) {rest : List Char}
    (h : EndsValue rest) : EndsValue (writeItems depth vs ++ rest) := by
  cases vs with
  | nil => rwa [writeItems, List.nil_append]
  | cons v vs =>
    rw [writeItems]
    exact endsValue_comma _

/-- Behind a member of a record there is another one or the end of the record. -/
theorem endsValue_writeMembers (depth : Nat) (ms : List (String × Json)) {rest : List Char}
    (h : EndsValue rest) : EndsValue (writeMembers depth ms ++ rest) := by
  cases ms with
  | nil => rwa [writeMembers, List.nil_append]
  | cons m ms =>
    rw [writeMembers]
    exact endsValue_comma _

/-! ### What a written value begins with -/

/-- A character with which a written value may begin. -/
def isStart (c : Char) : Bool :=
  c == '"' || c == '[' || c == '\x7b' || c == 't' || c == 'f' || isAsciiDigit c

/-- No value begins like a space, the end of a list or a null. -/
private theorem plain_of_isStart {c : Char} (h : isStart c = true) :
    isSpace c = false ∧ c ≠ ']' ∧ c ≠ 'n' := by
  have hdigit : isAsciiDigit c = true → isSpace c = false ∧ c ≠ ']' ∧ c ≠ 'n' := by
    intro hc
    refine ⟨?_, ?_, ?_⟩
    · rw [Bool.eq_false_iff]
      intro hspace
      simp only [isSpace, Bool.or_eq_true, beq_iff_eq] at hspace
      rcases hspace with ((rfl | rfl) | rfl) | rfl <;> cases hc
    · rintro rfl
      cases hc
    · rintro rfl
      cases hc
  simp only [isStart, Bool.or_eq_true, beq_iff_eq] at h
  rcases h with ((((rfl | rfl) | rfl) | rfl) | rfl) | h
  · decide
  · decide
  · decide
  · decide
  · decide
  · exact hdigit h

/-- What is written for a value begins as one. -/
private theorem write_eq_cons (depth : Nat) (v : Json) :
    ∃ c cs, write depth v = c :: cs ∧ isStart c = true := by
  cases v with
  | bool b => cases b <;> exact ⟨_, _, rfl, by decide⟩
  | num n =>
    obtain ⟨c, cs, h⟩ := decimal_eq_cons n
    have hc : isAsciiDigit c = true := 
      (digits_of_mem_decimal (h ▸ List.mem_cons_self)).2
    exact ⟨c, cs, h, by simp [isStart, hc]⟩
  | str s => exact ⟨_, _, rfl, by decide⟩
  | arr vs => cases vs <;> exact ⟨_, _, rfl, by decide⟩
  | obj ms => cases ms <;> exact ⟨_, _, rfl, by decide⟩

/-! ### Reading a value -/

/-- The reader takes a value from a text that goes on with its written form. -/
def Reads {α : Type} (read : Reader α) (written : List Char) (a : α) : Prop :=
  ∀ cs rest, skipSpace cs = written ++ rest → EndsValue rest → read cs = .ok (a, rest)

/-- **The reader takes a value from the written form of a JSON value.** -/
def Decodes {α : Type} (read : Reader α) (v : Json) (a : α) : Prop :=
  ∀ depth, Reads read (write depth v) a

/-- White space before a written value is skipped, and nothing else is. -/
theorem skipSpace_write (depth : Nat) (v : Json) (cs : List Char) :
    skipSpace (write depth v ++ cs) = write depth v ++ cs := by
  obtain ⟨c, ds, hwrite, hc⟩ := write_eq_cons depth v
  rw [hwrite]
  exact skipSpace_cons (plain_of_isStart hc).1 _

/-- **Written forms are told apart by reading them**: values with the same written form are read
alike, and the same follows them. -/
theorem Decodes.eq_of_write {α : Type} {read : Reader α} {v w : Json} {a b : α}
    (hv : Decodes read v a) (hw : Decodes read w b) {depth : Nat} {rest rest' : List Char}
    (hrest : EndsValue rest) (hrest' : EndsValue rest')
    (h : write depth v ++ rest = write depth w ++ rest') : a = b ∧ rest = rest' := by
  have hread : read (write depth v ++ rest) = .ok (a, rest) :=
    hv depth _ rest (skipSpace_write depth v rest) hrest
  rw [h, hw depth _ rest' (skipSpace_write depth w rest') hrest', Except.ok.injEq,
    Prod.mk.injEq] at hread
  exact ⟨hread.1.symm, hread.2.symm⟩

/-! ### Texts -/

private theorem textTail_escape {c : Char} {escape cs : List Char}
    (h : strictEscape (escape ++ cs) = some (c, escape.length)) :
    textTail strictEscape ('\\' :: escape ++ cs) =
      (textTail strictEscape cs).map fun t => (c :: t.1, t.2) := by
  rw [List.cons_append, textTail, if_neg (by decide), if_pos rfl, h]
  simp only [List.drop_left]

/-- Two hexadecimal digits are enough for a control character. -/
private theorem strictEscape_control {c : Char} (h : c.toNat < 0x20) (cs : List Char) :
    strictEscape (['u', '0', '0', Nat.digitChar (c.toNat / 16), Nat.digitChar (c.toNat % 16)]
      ++ cs) = some (c, 5) := by
  have hhex : ∀ d, d < 16 → hexValue (Nat.digitChar d) = some d := by decide
  have hunit : codeUnit ('0' :: '0' :: Nat.digitChar (c.toNat / 16) ::
      Nat.digitChar (c.toNat % 16) :: cs) = some c.toNat := by
    have hzero : hexValue '0' = some 0 := by decide
    simp only [codeUnit, hzero, hhex (c.toNat / 16) (by omega), hhex (c.toNat % 16) (by omega),
      Option.bind_eq_bind, Option.bind_some, Option.pure_def, Option.some.injEq]
    omega
  have hhigh : (decide (0xD800 ≤ c.toNat) && decide (c.toNat ≤ 0xDBFF)) = false := by
    simp only [Bool.and_eq_false_iff, decide_eq_false_iff_not]
    omega
  have hlow : (decide (0xDC00 ≤ c.toNat) && decide (c.toNat ≤ 0xDFFF)) = false := by
    simp only [Bool.and_eq_false_iff, decide_eq_false_iff_not]
    omega
  simp [strictEscape, hunit, hhigh, hlow, Char.ofNat_toNat]

/-- A character that is not escaped stands for itself, and an escape is read as its character. -/
private theorem textTail_escaped (c : Char) (cs : List Char) :
    textTail strictEscape (escaped c ++ cs) =
      (textTail strictEscape cs).map fun t => (c :: t.1, t.2) := by
  have hletter {d e : Char} (he : e ≠ 'u') (hd : letterEscape e = some d) :
      textTail strictEscape (['\\', e] ++ cs) =
        (textTail strictEscape cs).map fun t => (d :: t.1, t.2) := by
    have hescape : strictEscape ([e] ++ cs) = some (d, [e].length) := by
      simp [strictEscape, he, hd]
    exact textTail_escape hescape
  rw [escaped]
  split_ifs with hquote hback hb hf hn hr ht hcontrol
  · subst hquote
    exact hletter (by decide) rfl
  · subst hback
    exact hletter (by decide) rfl
  · subst hb
    exact hletter (by decide) rfl
  · subst hf
    exact hletter (by decide) rfl
  · subst hn
    exact hletter (by decide) rfl
  · subst hr
    exact hletter (by decide) rfl
  · subst ht
    exact hletter (by decide) rfl
  · exact textTail_escape (strictEscape_control hcontrol cs)
  · rw [List.cons_append, List.nil_append, textTail, if_neg hquote, if_neg hback,
      if_neg hcontrol]

/-- A text in quotes ends with the quote that is not escaped. -/
theorem textTail_text (s : List Char) (rest : List Char) :
    textTail strictEscape (s.flatMap escaped ++ '"' :: rest) = some (s, rest) := by
  induction s with
  | nil => rw [List.flatMap_nil, List.nil_append, textTail, if_pos rfl]
  | cons c s ih => rw [List.flatMap_cons, List.append_assoc, textTail_escaped, ih, Option.map_some]

theorem text_append (s : String) (rest : List Char) :
    text s ++ rest = '"' :: (s.toList.flatMap escaped ++ '"' :: rest) := by
  simp [text]

/-- A text reads back. -/
theorem decodes_str (s : String) : Decodes readText (str s) s := by
  intro depth cs rest hcs _
  rw [write, text_append] at hcs
  rw [readText, hcs]
  simp only [textTail_text, String.ofList_toList]

/-! ### Truth values and numbers -/

theorem decodes_bool (b : Bool) : Decodes readBool (bool b) b := by
  intro depth cs rest hcs _
  cases b <;> · rw [readBool, hcs]; rfl

/-- No digit stands behind a value. -/
private theorem not_digit_of_endsValue {rest : List Char} (h : EndsValue rest) :
    rest.takeWhile isAsciiDigit = [] ∧ rest.dropWhile isAsciiDigit = rest := by
  cases rest with
  | nil => exact ⟨rfl, rfl⟩
  | cons c rest => rcases h c rfl with rfl | rfl <;> exact ⟨rfl, rfl⟩

/-- The digits of a number end with it. -/
private theorem digitRun_decimal (n : Nat) {rest : List Char} (h : EndsValue rest) :
    digitRun (decimal n ++ rest) = some (decimal n, rest) := by
  have hdigits : ∀ c ∈ decimal n, isAsciiDigit c = true := fun c hc => (digits_of_mem_decimal hc).2
  obtain ⟨c, cs, hcons⟩ := decimal_eq_cons n
  obtain ⟨htake, hdrop⟩ := not_digit_of_endsValue h
  rw [digitRun, List.takeWhile_append_of_pos hdigits, List.dropWhile_append_of_pos hdigits, htake,
    hdrop, List.append_nil, hcons]
  rfl

/-- A natural number is read digit by digit, without a fraction or an exponent. -/
private theorem numeral_decimal (n : Nat) {rest : List Char} (h : EndsValue rest) :
    numeral (decimal n ++ rest) = some (⟨false, decimal n, [], none⟩, rest) := by
  have hwhole : ((decimal n).head? = some '0' && (decimal n).length > 1 : Bool) = false := by
    rw [Bool.and_eq_false_iff, decide_eq_false_iff_not, decide_eq_false_iff_not]
    by_cases hzero : (decimal n).head? = some '0'
    · right
      rw [eq_zero_of_head?_decimal hzero, decimal]
      decide
    · exact .inl hzero
  have hfraction : fractionPart rest = some ([], rest) := by
    cases rest with
    | nil => rfl
    | cons c rest => rcases h c rfl with rfl | rfl <;> rfl
  have hexponent : exponentPart rest = some (none, rest) := by
    cases rest with
    | nil => rfl
    | cons c rest => rcases h c rfl with rfl | rfl <;> rfl
  have hunsigned : unsignedNumeral false (decimal n ++ rest) =
      some (⟨false, decimal n, [], none⟩, rest) := by
    simp only [unsignedNumeral, digitRun_decimal n h, hwhole, hfraction, hexponent,
      Option.bind_eq_bind, Option.bind_some, Option.pure_def]
    rfl
  obtain ⟨c, cs, hcons⟩ := decimal_eq_cons n
  have hminus : c ≠ '-' := by
    rintro rfl
    have hdigit := (digits_of_mem_decimal (hcons ▸ List.mem_cons_self)).2
    cases hdigit
  rw [hcons] at hunsigned ⊢
  rw [← hunsigned, numeral.eq_def]
  split
  · rename_i heq
    exact absurd (List.cons.inj heq).1 hminus
  · rfl

/-- Digits that fit into a word are gathered to the number that they stand for. -/
private theorem foldl_pushWhole_decimal {n : Nat} (h : n < UInt64.size) :
    (decimal n).foldl Scaled.pushWhole ⟨0, 0⟩ = ⟨n, 0⟩ := by
  have digit : ∀ d, d < 10 → (Nat.digitChar d).toNat - '0'.toNat = d := by decide
  have push {m d : Nat} (hd : d < 10) (hsize : m * 10 + d < UInt64.size) :
      Scaled.pushWhole ⟨m, 0⟩ (Nat.digitChar d) = ⟨m * 10 + d, 0⟩ := by
    rw [Scaled.pushWhole, if_pos rfl, Scaled.pushDigit?]
    simp only [digit d hd, if_pos hsize]
  induction n using decimal.induct with
  | case1 n hn =>
    rw [decimal, if_pos hn, List.foldl_cons, List.foldl_nil, push hn (by omega)]
    simp
  | case2 n hn ih =>
    have hsplit : n / 10 * 10 + n % 10 = n := by omega
    rw [decimal, if_neg hn, List.foldl_append, ih (by omega), List.foldl_cons, List.foldl_nil,
      push (Nat.mod_lt n (by decide)) (by omega), hsplit]

/-- A number of at most 53 binary digits is a double. -/
private theorem roundDouble_eq {n : Nat} (h : n < Nat.pow 2 53) : roundDouble n = n := by
  have hlog : n.log2 + 1 - 53 = 0 := by
    rcases Nat.eq_zero_or_pos n with rfl | hn
    · decide
    · have := (Nat.log2_lt (by omega)).2 h
      omega
  simp [roundDouble, roundBinary, hlog, Nat.mod_one]

/-- Small numbers are in the range of what is stored. -/
private theorem inRange_decimal {n : Nat} (h : n < Nat.pow 2 53) :
    (Numeral.mk false (decimal n) [] none).inRange = true := by
  have hscaled : (Numeral.mk false (decimal n) [] none).scaled = ⟨n, 0⟩ := by
    have hsize : n < UInt64.size := Nat.lt_trans h (by decide)
    simp only [Numeral.scaled, foldl_pushWhole_decimal hsize]
    rfl
  have hlimit : Nat.pow 2 53 < doubleLimit := by decide +kernel
  rw [Numeral.inRange, hscaled, Scaled.inRange]
  split_ifs with hzero hbig
  · rfl
  · exact absurd hbig (show ¬(308 : Int) < 0 by decide)
  · have hone : roundDouble (Nat.pow 10 (0 : Int).toNat) = 1 := by decide +kernel
    rw [roundDouble_eq h, hone, Nat.mul_one, decide_eq_true_eq]
    exact Nat.lt_trans h hlimit

/-- A number of 32 bits reads back. -/
theorem decodes_num (n : UInt32) : Decodes readUInt32 (num n.toNat) n := by
  intro depth cs rest hcs hrest
  have hsize : n.toNat < UInt32.size := n.toNat_lt
  have hrange : n.toNat < Nat.pow 2 53 := Nat.lt_trans hsize (by decide)
  rw [write] at hcs
  simp only [readUInt32, hcs, numeral_decimal n.toNat hrest, inRange_decimal hrange,
    Numeral.toNat?, ofDecimal_decimal]
  simp [hsize]

/-! ### Optional values and arrays -/

theorem decodes_some {α : Type} {read : Reader α} {v : Json} {a : α} (h : Decodes read v a) :
    Decodes (readOption read) v (some a) := by
  intro depth cs rest hcs hrest
  have hread : read (skipSpace cs) = .ok (a, rest) := by
    refine h depth _ _ ?_ hrest
    rw [hcs, skipSpace_write]
  obtain ⟨c, ds, hwrite, hc⟩ := write_eq_cons depth v
  rw [readOption]
  split
  · rename_i heq
    rw [hcs, hwrite] at heq
    exact absurd (List.cons.inj heq).1 (plain_of_isStart hc).2.2
  · rw [hread]
    rfl

section Items

variable {α β : Type} {read : Reader α}

/-- An array that is not closed goes on with an item. -/
private theorem itemsFrom_item {v : Json} {x : α} (h : Decodes read v x) {b : Char}
    {bound cs tail : List Char} {first : Bool} {depth : Nat}
    (hopen : (skipSpace cs).head? ≠ some ']')
    (hnext : nextPart first (skipSpace cs) = .ok (write depth v ++ tail)) (htail : EndsValue tail) :
    itemsFrom read (b :: bound) first cs =
      (itemsFrom read bound false tail).map fun r => (x :: r.1, r.2) := by
  rw [itemsFrom]
  split
  · rename_i heq
    rw [heq] at hopen
    exact absurd rfl hopen
  · rw [hnext]
    simp only [h depth _ tail (skipSpace_write depth v tail) htail]

/-- The items of a list behind its first one. -/
private theorem writeItems_append (depth : Nat) (v : Json) (vs : List Json) (cs : List Char) :
    writeItems depth (v :: vs) ++ cs =
      ',' :: (newline depth ++ (write depth v ++ (writeItems depth vs ++ cs))) := by
  simp [writeItems]

/-- A list is written with its items on lines of their own. -/
private theorem write_arr_append (depth : Nat) (v : Json) (vs : List Json) (cs : List Char) :
    write depth (arr (v :: vs)) ++ cs =
      '[' :: (newline (depth + 1) ++ (write (depth + 1) v ++
        (writeItems (depth + 1) vs ++ (newline depth ++ ']' :: cs)))) := by
  simp [write]

/-- Each item takes a character at least, so there is fuel for all of them. -/
private theorem length_le_length_writeItems (depth : Nat) (vs : List Json) :
    vs.length ≤ (writeItems depth vs).length := by
  induction vs with
  | nil => exact Nat.zero_le _
  | cons v vs ih =>
    rw [writeItems]
    simp only [List.length_append, List.length_cons]
    omega

variable {v : β → Json} {a : β → α}

/-- The items of an array after the first one are read up to the closing bracket. -/
private theorem itemsFrom_writeItems {items : List β} (h : ∀ x ∈ items, Decodes read (v x) (a x))
    {depth depth' : Nat} {bound rest : List Char} (hbound : items.length < bound.length) :
    itemsFrom read bound false
        (writeItems depth (items.map v) ++ (newline depth' ++ ']' :: rest)) =
      .ok (items.map a, rest) := by
  induction items generalizing bound with
  | nil =>
    obtain ⟨b, bound, rfl⟩ := List.exists_cons_of_length_pos hbound
    have hclose : skipSpace (newline depth' ++ ']' :: rest) = ']' :: rest := by
      rw [skipSpace_newline, skipSpace_cons (by decide)]
    rw [List.map_nil, writeItems, List.nil_append, itemsFrom, hclose]
    rfl
  | cons x items ih =>
    obtain ⟨b, bound, rfl⟩ := List.exists_cons_of_length_pos (Nat.zero_lt_of_lt hbound)
    rw [List.map_cons, writeItems_append]
    obtain ⟨tail, htail⟩ : ∃ t, t = writeItems depth (items.map v) ++
        (newline depth' ++ ']' :: rest) := ⟨_, rfl⟩
    have hcomma : skipSpace (',' :: (newline depth ++ (write depth (v x) ++ tail))) =
        ',' :: (newline depth ++ (write depth (v x) ++ tail)) := skipSpace_cons (by decide) _
    have hnext : nextPart false (',' :: (newline depth ++ (write depth (v x) ++ tail))) =
        .ok (write depth (v x) ++ tail) := by
      show Except.ok (skipSpace (newline depth ++ (write depth (v x) ++ tail))) = _
      rw [skipSpace_newline, skipSpace_write]
    have hends : EndsValue tail :=
      htail ▸ endsValue_writeItems depth _ (endsValue_newline depth' _)
    have hrest := ih (fun y hy => h y (List.mem_cons_of_mem x hy)) (Nat.lt_of_succ_lt_succ hbound)
    rw [← htail] at hrest ⊢
    rw [itemsFrom_item (h x List.mem_cons_self) (by simp [hcomma]) (by rw [hcomma, hnext]) hends,
      hrest]
    rfl

/-- **An array is read item by item.** -/
theorem decodes_arr {items : List β} (h : ∀ x ∈ items, Decodes read (v x) (a x)) :
    Decodes (readList read) (arr (items.map v)) (items.map a) := by
  intro depth cs rest hcs _
  cases items with
  | nil =>
    rw [List.map_nil, write] at hcs
    rw [readList, hcs]
    rfl
  | cons x items =>
    rw [List.map_cons, write_arr_append] at hcs
    obtain ⟨tail, htail⟩ : ∃ t, t = writeItems (depth + 1) (items.map v) ++
        (newline depth ++ ']' :: rest) := ⟨_, rfl⟩
    rw [← htail] at hcs
    have hfirst : skipSpace (newline (depth + 1) ++ (write (depth + 1) (v x) ++ tail)) =
        write (depth + 1) (v x) ++ tail := by
      rw [skipSpace_newline, skipSpace_write]
    have hopen : (write (depth + 1) (v x) ++ tail).head? ≠ some ']' := by
      obtain ⟨c, ds, hwrite, hc⟩ := write_eq_cons (depth + 1) (v x)
      rw [hwrite, List.cons_append, List.head?_cons, Ne, Option.some.injEq]
      exact (plain_of_isStart hc).2.1
    have hends : EndsValue tail :=
      htail ▸ endsValue_writeItems (depth + 1) _ (endsValue_newline depth _)
    have hbound : items.length < (List.replicate (2 * (depth + 1)) ' ' ++
        (write (depth + 1) (v x) ++ tail)).length := by
      have hitems := length_le_length_writeItems (depth + 1) (items.map v)
      rw [List.length_map] at hitems
      simp only [htail, List.length_append, List.length_cons]
      omega
    have hrest : itemsFrom read (List.replicate (2 * (depth + 1)) ' ' ++
        (write (depth + 1) (v x) ++ tail)) false tail = .ok (items.map a, rest) := by
      rw [htail] at hbound ⊢
      exact itemsFrom_writeItems (fun y hy => h y (List.mem_cons_of_mem x hy)) hbound
    have hnext : nextPart true (skipSpace (newline (depth + 1) ++
        (write (depth + 1) (v x) ++ tail))) = .ok (write (depth + 1) (v x) ++ tail) :=
      congrArg Except.ok hfirst
    rw [readList, hcs]
    show itemsFrom read ('\n' :: (List.replicate (2 * (depth + 1)) ' ' ++
      (write (depth + 1) (v x) ++ tail))) true
      (newline (depth + 1) ++ (write (depth + 1) (v x) ++ tail)) = _
    rw [itemsFrom_item (h x List.mem_cons_self) (by rw [hfirst]; exact hopen) hnext hends, hrest]
    rfl

end Items

/-! ### Objects -/

/-- **The members of an object are taken in**, one after the other, and lead from one state to
another. -/
inductive Takes {σ : Type} (member : σ → String → Except Fault (Reader σ)) :
    σ → List (String × Json) → σ → Prop
  | nil (acc : σ) : Takes member acc [] acc
  | cons {acc acc' acc'' : σ} {name : String} {v : Json} {ms : List (String × Json)}
      {read : Reader σ} (known : member acc name = .ok read) (value : Decodes read v acc')
      (rest : Takes member acc' ms acc'') : Takes member acc ((name, v) :: ms) acc''

namespace Takes

variable {σ : Type} {member : σ → String → Except Fault (Reader σ)} {acc acc' acc'' : σ}
  {ms ms' : List (String × Json)}

/-- Members that are read one after the other. -/
theorem append (h : Takes member acc ms acc') (h' : Takes member acc' ms' acc'') :
    Takes member acc (ms ++ ms') acc'' := by
  induction h with
  | nil => exact h'
  | cons known value _ ih => exact .cons known value (ih h')

end Takes

section Members

variable {σ : Type} {member : σ → String → Except Fault (Reader σ)}

/-- The name of a member ends with its colon. -/
private theorem memberName_text (name : String) (rest : List Char) :
    memberName strictEscape (text name ++ rest) = .ok (name, rest) := by
  rw [memberName, text_append, skipSpace_cons (by decide)]
  simp only [textTail_text, String.ofList_toList]

/-- An object that is not closed goes on with a member. -/
private theorem membersFrom_member {acc acc' : σ} {name : String} {read : Reader σ} {v : Json}
    (hknown : member acc name = .ok read) (h : Decodes read v acc') {b : Char}
    {bound cs tail : List Char} {first : Bool} {depth : Nat}
    (hopen : (skipSpace cs).head? ≠ some '\x7d')
    (hnext : nextPart first (skipSpace cs) =
      .ok (text name ++ ':' :: ' ' :: (write depth v ++ tail)))
    (htail : EndsValue tail) :
    membersFrom member (b :: bound) first acc cs = membersFrom member bound false acc' tail := by
  have hcolon : afterColon (':' :: ' ' :: (write depth v ++ tail)) =
      .ok (' ' :: (write depth v ++ tail)) := by
    rw [afterColon, skipSpace_cons (by decide)]
    rfl
  have hread : read (' ' :: (write depth v ++ tail)) = .ok (acc', tail) := by
    refine h depth _ tail ?_ htail
    rw [skipSpace_space (by decide), skipSpace_write]
  rw [membersFrom]
  split
  · rename_i heq
    rw [heq] at hopen
    exact absurd rfl hopen
  · rw [hnext]
    simp only [bind, Except.bind, memberName_text, hknown, hcolon, hread]

/-- The members of a record behind its first one. -/
theorem writeMembers_append (depth : Nat) (name : String) (v : Json) (ms : List (String × Json))
    (cs : List Char) :
    writeMembers depth ((name, v) :: ms) ++ cs =
      ',' :: (newline depth ++ (text name ++ ':' :: ' ' ::
        (write depth v ++ (writeMembers depth ms ++ cs)))) := by
  simp [writeMembers]

/-- A record is written with its members on lines of their own. -/
theorem write_obj_append (depth : Nat) (name : String) (v : Json) (ms : List (String × Json))
    (cs : List Char) :
    write depth (obj ((name, v) :: ms)) ++ cs =
      '\x7b' :: (newline (depth + 1) ++ (text name ++ ':' :: ' ' :: (write (depth + 1) v ++
        (writeMembers (depth + 1) ms ++ (newline depth ++ '\x7d' :: cs))))) := by
  simp [write]

/-- Each member takes a character at least, so there is fuel for all of them. -/
private theorem length_le_length_writeMembers (depth : Nat) (ms : List (String × Json)) :
    ms.length ≤ (writeMembers depth ms).length := by
  induction ms with
  | nil => exact Nat.zero_le _
  | cons m ms ih =>
    rw [writeMembers]
    simp only [List.length_append, List.length_cons]
    omega

private theorem skipSpace_text (name : String) (cs : List Char) :
    skipSpace (text name ++ cs) = text name ++ cs :=
  skipSpace_cons (by decide) _

/-- The members of an object after the first one are taken in up to the closing brace. -/
private theorem Takes.membersFrom_writeMembers {acc acc' : σ} {ms : List (String × Json)}
    (h : Takes member acc ms acc') (depth depth' : Nat) {bound : List Char}
    (hbound : ms.length < bound.length) (rest : List Char) :
    membersFrom member bound false acc
        (writeMembers depth ms ++ (newline depth' ++ '\x7d' :: rest)) = .ok (acc', rest) := by
  induction h generalizing bound with
  | nil acc =>
    obtain ⟨b, bound, rfl⟩ := List.exists_cons_of_length_pos hbound
    have hclose : skipSpace (newline depth' ++ '\x7d' :: rest) = '\x7d' :: rest := by
      rw [skipSpace_newline, skipSpace_cons (by decide)]
    rw [writeMembers, List.nil_append, membersFrom, hclose]
    rfl
  | @cons acc acc' acc'' name v ms read known value _ ih =>
    obtain ⟨b, bound, rfl⟩ := List.exists_cons_of_length_pos (Nat.zero_lt_of_lt hbound)
    rw [writeMembers_append]
    obtain ⟨tail, htail⟩ : ∃ t, t = writeMembers depth ms ++ (newline depth' ++ '\x7d' :: rest) :=
      ⟨_, rfl⟩
    have hrest := ih (Nat.lt_of_succ_lt_succ hbound)
    rw [← htail] at hrest ⊢
    have hcomma (ds : List Char) : skipSpace (',' :: ds) = ',' :: ds :=
      skipSpace_cons (by decide) ds
    have hnext : nextPart false (',' :: (newline depth ++ (text name ++ ':' :: ' ' ::
        (write depth v ++ tail)))) = .ok (text name ++ ':' :: ' ' :: (write depth v ++ tail)) := by
      show Except.ok (skipSpace (newline depth ++ _)) = _
      rw [skipSpace_newline, skipSpace_text]
    have hends : EndsValue tail :=
      htail ▸ endsValue_writeMembers depth ms (endsValue_newline depth' _)
    rw [membersFrom_member known value (by simp [hcomma]) (by rw [hcomma, hnext]) hends, hrest]

/-- **An object is read member by member.** -/
theorem Takes.membersFrom_obj {acc acc' : σ} {ms : List (String × Json)}
    (h : Takes member acc ms acc') (depth : Nat) (rest : List Char) :
    ∃ inner, write depth (obj ms) ++ rest = '\x7b' :: inner ∧
      membersFrom member inner true acc inner = .ok (acc', rest) := by
  cases h with
  | nil => exact ⟨'\x7d' :: rest, rfl, rfl⟩
  | @cons _ acc' _ name v ms read known value hrest =>
    refine ⟨_, write_obj_append depth name v ms rest, ?_⟩
    obtain ⟨tail, htail⟩ : ∃ t, t = writeMembers (depth + 1) ms ++
        (newline depth ++ '\x7d' :: rest) := ⟨_, rfl⟩
    obtain ⟨inner, hinner⟩ : ∃ t, t = text name ++ ':' :: ' ' :: (write (depth + 1) v ++ tail) :=
      ⟨_, rfl⟩
    have hfirst : skipSpace (newline (depth + 1) ++ inner) = inner := by
      rw [skipSpace_newline, hinner, skipSpace_text]
    have hnext : nextPart true (skipSpace (newline (depth + 1) ++ inner)) =
        .ok (text name ++ ':' :: ' ' :: (write (depth + 1) v ++ tail)) := by
      rw [hfirst, hinner]
      rfl
    have hopen : (skipSpace (newline (depth + 1) ++ inner)).head? ≠ some '\x7d' := by
      rw [hfirst, hinner, text_append]
      simp
    have hends : EndsValue tail :=
      htail ▸ endsValue_writeMembers (depth + 1) ms (endsValue_newline depth _)
    have hbound : ms.length < (List.replicate (2 * (depth + 1)) ' ' ++ inner).length := by
      have hmembers := length_le_length_writeMembers (depth + 1) ms
      simp only [hinner, htail, List.length_append, List.length_cons]
      omega
    have hread := hrest.membersFrom_writeMembers (depth + 1) depth hbound rest
    rw [← htail] at hread ⊢
    rw [← hinner, ← hread]
    exact membersFrom_member known value hopen hnext hends

end Members

end ApiDocs.Json
