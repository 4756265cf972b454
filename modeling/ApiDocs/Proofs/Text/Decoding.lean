import Mathlib.Data.List.Infix
import ApiDocs.Text.Bytes

/-!
# Bytes as text

Decoding cuts bytes into encodings of characters and **broken** parts: starts of an encoding that
the byte after them does not continue (`cuts_piece`). A cut after a broken part may therefore lie
anywhere, and what is skipped might hide an encoding that begins inside it. It never does
(`IsBroken.not_prefix`), since all bytes of a broken part but the first one continue an encoding,
and no encoding begins with such a byte.

So **decoding is reading byte by byte** (`decode_reads`): where an encoding of a character starts,
the character is copied and its bytes are passed over, and any other byte becomes a numeric
character reference. Well-formed text stays as it is, and each byte of a broken part is a reference.
-/

namespace ApiDocs.Text

/-! ### Classes of bytes -/

private theorem isContinuation_iff {b : UInt8} :
    isContinuation b = true ↔ 0x80 ≤ b.toNat ∧ b.toNat ≤ 0xBF := by
  simp [isContinuation, UInt8.le_iff_toNat_le]

/-- The second byte of a character is restricted behind four leads. -/
private theorem isSecond_iff {lead b : UInt8} : isSecond lead b = true ↔
    (0x80 ≤ b.toNat ∧ b.toNat ≤ 0xBF) ∧ (lead.toNat = 0xE0 → 0xA0 ≤ b.toNat) ∧
      (lead.toNat = 0xED → b.toNat ≤ 0x9F) ∧ (lead.toNat = 0xF0 → 0x90 ≤ b.toNat) ∧
      (lead.toNat = 0xF4 → b.toNat ≤ 0x8F) := by
  simp only [isSecond, ← UInt8.toNat_inj, UInt8.le_iff_toNat_le, isContinuation]
  split_ifs <;> simp_all <;> omega

private theorem toNat_ofNat_byte {n : Nat} (h : n < 256) : (UInt8.ofNat n).toNat = n :=
  UInt8.toNat_ofNat_of_lt' h

/-- The low six bits of a number make a continuation byte. -/
private theorem isContinuation_ofNat {n : Nat} (h : n < 0x40) :
    isContinuation (.ofNat (n + 0x80)) = true := by
  rw [isContinuation_iff, toNat_ofNat_byte (by omega)]
  omega

private theorem payload_ofNat {n : Nat} (h : n < 0x40) : payload (.ofNat (n + 0x80)) = n := by
  have hn : (UInt8.ofNat (n + 0x80)).toNat = n + 0x80 := toNat_ofNat_byte (by omega)
  exact Nat.sub_eq_of_eq_add hn

/-! ### Encodings by the classes of their bytes -/

/-- The bytes that encode the character of a number, told by their classes. -/
inductive Encodes : List UInt8 → Nat → Prop
  | one {a : UInt8} (lead : a.toNat < 0x80) : Encodes [a] a.toNat
  | two {a b : UInt8} (lead : 0xC2 ≤ a.toNat ∧ a.toNat ≤ 0xDF) (tail : isContinuation b = true) :
      Encodes [a, b] ((a.toNat - 0xC0) * 0x40 + payload b)
  | three {a b c : UInt8} (lead : 0xE0 ≤ a.toNat ∧ a.toNat ≤ 0xEF) (second : isSecond a b = true)
      (tail : isContinuation c = true) :
      Encodes [a, b, c] ((a.toNat - 0xE0) * 0x1000 + payload b * 0x40 + payload c)
  | four {a b c d : UInt8} (lead : 0xF0 ≤ a.toNat ∧ a.toNat ≤ 0xF4)
      (second : isSecond a b = true) (third : isContinuation c = true)
      (tail : isContinuation d = true) :
      Encodes [a, b, c, d] ((a.toNat - 0xF0) * 0x40000 + payload b * 0x1000 + payload c * 0x40
        + payload d)

section Encodes

variable {bytes : List UInt8} {m n : Nat}

/-- Surrogates and numbers beyond the last character have no encoding. -/
private theorem Encodes.isValidChar (h : Encodes bytes n) : n.isValidChar := by
  rw [Nat.isValidChar]
  cases h with
  | one lead => omega
  | two lead tail =>
    rw [isContinuation_iff] at tail
    unfold payload
    omega
  | three lead second tail =>
    rw [isSecond_iff] at second
    rw [isContinuation_iff] at tail
    unfold payload
    omega
  | four lead second third tail =>
    rw [isSecond_iff] at second
    rw [isContinuation_iff] at third tail
    unfold payload
    omega

/-- The encoding of a character in terms of its number. -/
private theorem utf8EncodeChar_eq {c : Char} (h : c.toNat = n) :
    String.utf8EncodeChar c =
      if n ≤ 0x7F then [.ofNat n]
      else if n ≤ 0x7FF then [.ofNat (n / 64 % 0x20 + 0xC0), .ofNat (n % 0x40 + 0x80)]
      else if n ≤ 0xFFFF then
        [.ofNat (n / 4096 % 0x10 + 0xE0), .ofNat (n / 64 % 0x40 + 0x80), .ofNat (n % 0x40 + 0x80)]
      else
        [.ofNat (n / 262144 % 0x08 + 0xF0), .ofNat (n / 4096 % 0x40 + 0x80),
          .ofNat (n / 64 % 0x40 + 0x80), .ofNat (n % 0x40 + 0x80)] := by
  subst h
  rfl

/-- Bytes of these classes are the encoding of the character. -/
private theorem Encodes.eq (h : Encodes bytes n) : bytes = String.utf8EncodeChar (.ofNat n) := by
  have hnumber : (Char.ofNat n).toNat = n := by
    rw [Char.ofNat, dif_pos h.isValidChar]
    rfl
  rw [utf8EncodeChar_eq hnumber, eq_comm]
  clear hnumber
  cases h with
  | one lead => rw [if_pos (by omega), UInt8.ofNat_toNat]
  | two lead tail =>
    rw [isContinuation_iff] at tail
    unfold payload
    rw [if_neg (by omega), if_pos (by omega)]
    simp only [List.cons.injEq, ← UInt8.toNat_inj, UInt8.toNat_ofNat', and_true]
    omega
  | three lead second tail =>
    rw [isSecond_iff] at second
    rw [isContinuation_iff] at tail
    unfold payload
    rw [if_neg (by omega), if_neg (by omega), if_pos (by omega)]
    simp only [List.cons.injEq, ← UInt8.toNat_inj, UInt8.toNat_ofNat', and_true]
    omega
  | four lead second third tail =>
    rw [isSecond_iff] at second
    rw [isContinuation_iff] at third tail
    unfold payload
    rw [if_neg (by omega), if_neg (by omega), if_neg (by omega)]
    simp only [List.cons.injEq, ← UInt8.toNat_inj, UInt8.toNat_ofNat', and_true]
    omega

/-- A number may be given in another form. -/
theorem Encodes.of_eq (h : Encodes bytes m) (hmn : m = n) : Encodes bytes n := hmn ▸ h

/-- Every encoding has bytes of these classes. -/
private theorem encodes_utf8EncodeChar (c : Char) : Encodes (String.utf8EncodeChar c) c.toNat := by
  have hvalid : c.toNat.isValidChar := c.valid
  rw [Nat.isValidChar] at hvalid
  rw [utf8EncodeChar_eq rfl]
  generalize c.toNat = n at hvalid ⊢
  have hlow : n % 0x40 < 0x40 := Nat.mod_lt _ (by decide)
  have hmid : n / 64 % 0x40 < 0x40 := Nat.mod_lt _ (by decide)
  have hhigh : n / 4096 % 0x40 < 0x40 := Nat.mod_lt _ (by decide)
  split_ifs with hone htwo hthree
  · have hlead := toNat_ofNat_byte (n := n) (by omega)
    exact (Encodes.one (by omega)).of_eq hlead
  · have hlead := toNat_ofNat_byte (n := n / 64 % 0x20 + 0xC0) (by omega)
    refine (Encodes.two (by omega) (isContinuation_ofNat hlow)).of_eq ?_
    rw [hlead, payload_ofNat hlow]
    omega
  · have hlead := toNat_ofNat_byte (n := n / 4096 % 0x10 + 0xE0) (by omega)
    have hsecond := toNat_ofNat_byte (n := n / 64 % 0x40 + 0x80) (by omega)
    refine (Encodes.three (by omega) (isSecond_iff.2 ?_) (isContinuation_ofNat hlow)).of_eq ?_
    · rw [hlead, hsecond]
      omega
    · rw [hlead, payload_ofNat hmid, payload_ofNat hlow]
      omega
  · have hlead := toNat_ofNat_byte (n := n / 262144 % 0x08 + 0xF0) (by omega)
    have hsecond := toNat_ofNat_byte (n := n / 4096 % 0x40 + 0x80) (by omega)
    refine (Encodes.four (by omega) (isSecond_iff.2 ?_) (isContinuation_ofNat hmid)
      (isContinuation_ofNat hlow)).of_eq ?_
    · rw [hlead, hsecond]
      omega
    · rw [hlead, payload_ofNat hhigh, payload_ofNat hmid, payload_ofNat hlow]
      omega

/-- No encoding begins with a byte that continues one. -/
private theorem Encodes.not_isContinuation {a : UInt8} (h : Encodes (a :: bytes) n) :
    isContinuation a = false := by
  rw [Bool.eq_false_iff, Ne, isContinuation_iff]
  cases h <;> omega

end Encodes

/-- **The start of an encoding.** -/
def Starts (bytes : List UInt8) : Prop := ∃ c, bytes <+: String.utf8EncodeChar c

/-- A start is what some bytes complete to a character. -/
private theorem starts_iff {bytes : List UInt8} :
    Starts bytes ↔ ∃ n more, Encodes (bytes ++ more) n := by
  constructor
  · rintro ⟨c, more, h⟩
    exact ⟨c.toNat, more, h ▸ encodes_utf8EncodeChar c⟩
  · rintro ⟨n, more, h⟩
    exact ⟨.ofNat n, more, h.eq⟩

/-- One encoding is not the start of another one. -/
private theorem utf8EncodeChar_append_inj {c c' : Char} {rest rest' : List UInt8}
    (h : String.utf8EncodeChar c ++ rest = String.utf8EncodeChar c' ++ rest') :
    c = c' ∧ rest = rest' := by
  have hfirst (c : Char) (rest : List UInt8) :
      (String.utf8EncodeChar c ++ rest).toByteArray.utf8DecodeChar? 0 = some c := by
    rw [List.toByteArray_append]
    exact ByteArray.utf8DecodeChar?_utf8EncodeChar_append
  have hc : some c = some c' := by rw [← hfirst c rest, h, hfirst c' rest']
  cases hc
  exact ⟨rfl, List.append_cancel_left h⟩

/-! ### Broken parts -/

/-- **A broken part** before the rest of the bytes: one byte or the start of an encoding, as long as
it can be, that is not completed. -/
structure IsBroken (bad rest : List UInt8) : Prop where
  size : bad.length ∈ [1, 2, 3]
  starts : bad.length = 1 ∨ Starts bad
  stuck : ∀ next, rest.head? = some next → ¬Starts (bad ++ [next])
  incomplete : ∀ c, ¬String.utf8EncodeChar c <+: bad
  continued : ∀ b ∈ bad.tail, isContinuation b = true

section Broken

variable {a b c : UInt8} {bad rest : List UInt8}

/-- One byte is broken if the next one does not go on as it requires. -/
private theorem isBroken_one (hascii : ¬a.toNat < 0x80)
    (htwo : 0xC2 ≤ a.toNat ∧ a.toNat ≤ 0xDF →
      ∀ next, rest.head? = some next → isContinuation next = false)
    (hmore : 0xE0 ≤ a.toNat ∧ a.toNat ≤ 0xF4 →
      ∀ next, rest.head? = some next → isSecond a next = false) : IsBroken [a] rest where
  size := by simp
  starts := .inl rfl
  stuck := by
    intro next hnext hstarts
    obtain ⟨n, more, h⟩ := starts_iff.1 hstarts
    cases h with
    | two lead tail =>
      rw [htwo lead _ hnext] at tail
      cases tail
    | three lead second tail =>
      rw [hmore (by omega) _ hnext] at second
      cases second
    | four lead second third tail =>
      rw [hmore (by omega) _ hnext] at second
      cases second
  incomplete := by
    rintro c ⟨more, h⟩
    have hc := encodes_utf8EncodeChar c
    generalize String.utf8EncodeChar c = bytes at h hc
    generalize c.toNat = n at hc
    cases hc with
    | one lead =>
      cases h
      exact hascii lead
    | two | three | four => simp at h
  continued := by simp

/-- Two bytes of a longer character are broken if the third one is no continuation. -/
private theorem isBroken_two (hlead : 0xE0 ≤ a.toNat ∧ a.toNat ≤ 0xF4)
    (hsecond : isSecond a b = true)
    (hmore : ∀ next, rest.head? = some next → isContinuation next = false) :
    IsBroken [a, b] rest where
  size := by simp
  starts := by
    have hlast : isContinuation 0x80 = true := by decide
    refine .inr (starts_iff.2 ?_)
    by_cases hthree : a.toNat ≤ 0xEF
    · exact ⟨_, [0x80], .three ⟨hlead.1, hthree⟩ hsecond hlast⟩
    · exact ⟨_, [0x80, 0x80], .four (by omega) hsecond hlast hlast⟩
  stuck := by
    intro next hnext hstarts
    obtain ⟨n, more, h⟩ := starts_iff.1 hstarts
    cases h with
    | three lead second tail =>
      rw [hmore _ hnext] at tail
      cases tail
    | four lead second third tail =>
      rw [hmore _ hnext] at third
      cases third
  incomplete := by
    rintro c ⟨more, h⟩
    have hc := encodes_utf8EncodeChar c
    generalize String.utf8EncodeChar c = bytes at h hc
    generalize c.toNat = n at hc
    cases hc with
    | one lead | two lead =>
      cases h
      omega
    | three | four => simp at h
  continued := by simpa [isContinuation_iff] using (isSecond_iff.1 hsecond).1

/-- Three bytes of a longer character are broken if the fourth one is no continuation. -/
private theorem isBroken_three (hlead : 0xF0 ≤ a.toNat ∧ a.toNat ≤ 0xF4)
    (hsecond : isSecond a b = true)
    (hthird : isContinuation c = true)
    (hmore : ∀ next, rest.head? = some next → isContinuation next = false) :
    IsBroken [a, b, c] rest where
  size := by simp
  starts := .inr (starts_iff.2 ⟨_, [0x80], .four hlead hsecond hthird (by decide)⟩)
  stuck := by
    intro next hnext hstarts
    obtain ⟨n, more, h⟩ := starts_iff.1 hstarts
    cases h with
    | four lead second third tail =>
      rw [hmore _ hnext] at tail
      cases tail
  incomplete := by
    rintro c ⟨more, h⟩
    have hc := encodes_utf8EncodeChar c
    generalize String.utf8EncodeChar c = bytes at h hc
    generalize c.toNat = n at hc
    cases hc with
    | one lead | two lead | three lead =>
      cases h
      omega
    | four => simp at h
  continued := by
    simpa [isContinuation_iff] using ⟨(isSecond_iff.1 hsecond).1, isContinuation_iff.1 hthird⟩

/-- **No encoding starts inside a broken part**, even if it may go on into the rest. -/
theorem IsBroken.not_prefix (h : IsBroken bad rest) {before after : List UInt8}
    (hbad : bad = before ++ b :: after) (c : Char) :
    ¬String.utf8EncodeChar c <+: b :: (after ++ rest) := by
  intro hprefix
  cases before with
  | cons a before =>
    have hb : isContinuation b = true := h.continued b (by rw [hbad]; simp)
    obtain ⟨more, hmore⟩ := hprefix
    have hc := encodes_utf8EncodeChar c
    obtain ⟨d, tail, htail⟩ :=
      List.exists_cons_of_ne_nil (String.utf8EncodeChar_ne_nil (c := c))
    rw [htail] at hc hmore
    obtain ⟨rfl, -⟩ := List.cons.inj hmore
    rw [hc.not_isContinuation] at hb
    cases hb
  | nil =>
    have hall : String.utf8EncodeChar c <+: bad ++ rest := by
      rw [hbad]
      exact hprefix
    rcases Nat.lt_or_ge bad.length (String.utf8EncodeChar c).length with hlong | hshort
    · -- the encoding goes on into the rest, so the next byte would continue the broken part
      obtain ⟨tail, htail⟩ := List.prefix_of_prefix_length_le (List.prefix_append bad rest) hall
        (Nat.le_of_lt hlong)
      cases tail with
      | nil =>
        rw [← htail, List.append_nil] at hlong
        exact Nat.lt_irrefl _ hlong
      | cons next tail =>
        obtain ⟨more, hmore⟩ := hall
        rw [← htail, List.append_assoc] at hmore
        have hnext : rest.head? = some next := by
          rw [← List.append_cancel_left hmore]
          rfl
        exact h.stuck next hnext ⟨c, tail, by rw [← htail, List.append_assoc]; rfl⟩
    · have hprefix := List.prefix_append bad rest
      exact h.incomplete c (List.prefix_of_prefix_length_le hall hprefix hshort)

end Broken

/-! ### Pieces -/

/-- The bytes of a piece. -/
def Piece.bytes : Piece → List UInt8
  | .scalar c => String.utf8EncodeChar c
  | .broken bad => bad

/-- **What may be cut from bytes** before the rest: the encoding of a character or a broken part. -/
inductive Cuts : Piece → List UInt8 → Prop
  | scalar (c : Char) (rest : List UInt8) : Cuts (.scalar c) rest
  | broken {bad rest : List UInt8} (h : IsBroken bad rest) : Cuts (.broken bad) rest

section Cuts

variable {bytes rest : List UInt8} {n : Nat}

/-- A first piece of bytes, with its rest, that may be cut from them. -/
def CutsFrom (bytes : List UInt8) (cut : Piece × List UInt8) : Prop :=
  bytes = cut.1.bytes ++ cut.2 ∧ Cuts cut.1 cut.2

/-- The encoding of a character is cut off as a whole. -/
private theorem Encodes.cutsFrom (h : Encodes bytes n) (rest : List UInt8) :
    CutsFrom (bytes ++ rest) (.scalar (.ofNat n), rest) :=
  ⟨congrArg (· ++ rest) h.eq, .scalar _ rest⟩

/-- A broken start is cut off up to the byte that breaks it. -/
private theorem IsBroken.cutsFrom (h : IsBroken bytes rest) :
    CutsFrom (bytes ++ rest) (.broken bytes, rest) :=
  ⟨rfl, .broken h⟩

private theorem not_of_head?_cons {p : UInt8 → Bool} {b : UInt8} (h : ¬p b = true) :
    ∀ next, (b :: rest).head? = some next → p next = false := by
  rintro next ⟨⟩
  exact Bool.eq_false_iff.2 h

/-- **Each piece may be cut**: it is an encoding or a broken part. -/
theorem cuts_piece (lead : UInt8) (rest : List UInt8) :
    CutsFrom (lead :: rest) (piece lead rest) := by
  have hnil (p : UInt8 → Bool) : ∀ next, ([] : List UInt8).head? = some next → p next = false := by
    simp
  fun_cases piece lead rest
  all_goals simp only [UInt8.lt_iff_toNat_lt, UInt8.le_iff_toNat_le, Bool.and_eq_true,
    decide_eq_true_eq, UInt8.reduceToNat] at *
  case case1 hone => exact (Encodes.one hone).cutsFrom rest
  -- a lead of two bytes
  case case2 b rest hb hone htwo => exact (Encodes.two htwo hb).cutsFrom rest
  case case3 b rest hb hone htwo =>
    exact (isBroken_one hone (fun _ => not_of_head?_cons hb) (by omega)).cutsFrom
  case case4 hone htwo => exact (isBroken_one hone (fun _ => hnil _) (by omega)).cutsFrom
  -- a lead of three bytes
  case case5 b hb c rest hc hone htwo hthree => exact (Encodes.three hthree hb hc).cutsFrom rest
  case case6 b hb c rest hc hone htwo hthree =>
    exact (isBroken_two (by omega) hb (not_of_head?_cons hc)).cutsFrom
  case case7 b hb hone htwo hthree => exact (isBroken_two (by omega) hb (hnil _)).cutsFrom
  case case8 b rest hb hone htwo hthree =>
    exact (isBroken_one hone (by omega) fun _ => not_of_head?_cons hb).cutsFrom
  case case9 hone htwo hthree => exact (isBroken_one hone (by omega) fun _ => hnil _).cutsFrom
  -- a lead of four bytes
  case case10 b hb c hc d rest hd hone htwo hthree hfour =>
    exact (Encodes.four hfour hb hc hd).cutsFrom rest
  case case11 b hb c hc d rest hd hone htwo hthree hfour =>
    exact (isBroken_three hfour hb hc (not_of_head?_cons hd)).cutsFrom
  case case12 b hb c hc hone htwo hthree hfour =>
    exact (isBroken_three hfour hb hc (hnil _)).cutsFrom
  case case13 b hb c rest hc hone htwo hthree hfour =>
    exact (isBroken_two (by omega) hb (not_of_head?_cons hc)).cutsFrom
  case case14 b hb hone htwo hthree hfour => exact (isBroken_two (by omega) hb (hnil _)).cutsFrom
  case case15 b rest hb hone htwo hthree hfour =>
    exact (isBroken_one hone (by omega) fun _ => not_of_head?_cons hb).cutsFrom
  case case16 hone htwo hthree hfour =>
    exact (isBroken_one hone (by omega) fun _ => hnil _).cutsFrom
  -- no lead at all
  case case17 hone htwo hthree hfour =>
    exact (isBroken_one hone (by omega) (by omega)).cutsFrom

/-- The pieces are the bytes, cut one after the other. -/
private theorem flatMap_bytes_pieces (bytes : List UInt8) :
    (pieces bytes).flatMap Piece.bytes = bytes := by
  induction bytes using pieces.induct with
  | case1 => rw [pieces, List.flatMap_nil]
  | case2 lead rest ih =>
    rw [pieces, List.flatMap_cons, ih]
    exact (cuts_piece lead rest).1.symm

/-- Each piece is cut where the bytes behind it begin. -/
private theorem cuts_of_pieces_eq {before after : List Piece} {p : Piece}
    (h : pieces bytes = before ++ p :: after) : Cuts p (after.flatMap Piece.bytes) := by
  induction bytes using pieces.induct generalizing before with
  | case1 => simp [pieces] at h
  | case2 lead rest ih =>
    rw [pieces] at h
    cases before with
    | nil =>
      obtain ⟨rfl, rfl⟩ := List.cons.inj h
      rw [flatMap_bytes_pieces]
      exact (cuts_piece lead rest).2
    | cons q before => exact ih (List.cons.inj h).2

end Cuts

/-! ### Reading byte by byte -/

/-- **Reading byte by byte.** A character is copied where its encoding starts, and a byte where none
starts becomes a reference. -/
inductive Reads : List UInt8 → List Char → Prop
  | nil : Reads [] []
  | scalar (c : Char) {rest : List UInt8} {text : List Char} (more : Reads rest text) :
      Reads (String.utf8EncodeChar c ++ rest) (c :: text)
  | byte {b : UInt8} {rest : List UInt8} {text : List Char}
      (none : ∀ c, ¬String.utf8EncodeChar c <+: b :: rest) (more : Reads rest text) :
      Reads (b :: rest) (byteReference b ++ text)

section Reads

variable {bytes rest : List UInt8} {text text' : List Char}

/-- Bytes are read in one way. -/
theorem Reads.unique (h : Reads bytes text) (h' : Reads bytes text') : text = text' := by
  induction h generalizing text' with
  | nil =>
    generalize hbytes : ([] : List UInt8) = bytes at h'
    cases h' with
    | nil => rfl
    | scalar c more => simp at hbytes
    | byte none more => cases hbytes
  | scalar c more ih =>
    rename_i rest text
    generalize hbytes : String.utf8EncodeChar c ++ rest = bytes at h'
    cases h' with
    | nil => simp at hbytes
    | scalar c' more' =>
      obtain ⟨rfl, rfl⟩ := utf8EncodeChar_append_inj hbytes
      rw [ih more']
    | byte none more' => exact absurd ⟨_, hbytes⟩ (none c)
  | byte none more ih =>
    rename_i b rest text
    generalize hbytes : b :: rest = bytes at h'
    cases h' with
    | nil => cases hbytes
    | scalar c more' => exact absurd ⟨_, hbytes.symm⟩ (none c)
    | byte none' more' =>
      cases hbytes
      rw [ih more']

/-- No character begins within a broken start. -/
private theorem Reads.broken {bad : List UInt8}
    (hnone : ∀ before b after, bad = before ++ b :: after →
      ∀ c, ¬String.utf8EncodeChar c <+: b :: (after ++ rest))
    (h : Reads rest text) : Reads (bad ++ rest) (bad.flatMap byteReference ++ text) := by
  induction bad with
  | nil => exact h
  | cons b bad ih =>
    have hrest := ih fun before b' after hsplit =>
      hnone (b :: before) b' after (congrArg (b :: ·) hsplit)
    rw [List.flatMap_cons, List.append_assoc]
    exact .byte (hnone [] b bad rfl) hrest

/-- The pieces read as their texts. -/
private theorem reads_pieces (bytes : List UInt8) :
    Reads bytes ((pieces bytes).flatMap Piece.text) := by
  induction bytes using pieces.induct with
  | case1 =>
    rw [pieces]
    exact .nil
  | case2 lead rest ih =>
    obtain ⟨hbytes, hcuts⟩ := cuts_piece lead rest
    rw [pieces, List.flatMap_cons]
    generalize (piece lead rest).1 = p at hbytes hcuts
    generalize (piece lead rest).2 = rest' at hbytes hcuts ih
    rw [hbytes]
    cases hcuts with
    | scalar c => exact .scalar c ih
    | broken h => exact .broken (fun before b after hsplit => h.not_prefix hsplit) ih

/-- A text is read from some bytes exactly if they decode to it. -/
private theorem reads_iff : Reads bytes text ↔ decode bytes = .ofList text := by
  rw [decode, String.ofList_inj]
  exact ⟨(reads_pieces bytes).unique, fun h => h ▸ reads_pieces bytes⟩

/-- Encoded characters are read as themselves. -/
private theorem reads_encoded (text : List Char) :
    Reads (text.flatMap String.utf8EncodeChar) text := by
  induction text with
  | nil => exact .nil
  | cons c text ih => exact .scalar c ih

/-- A text survives encoding and decoding. -/
private theorem decode_toUTF8 (s : String) : decode s.toUTF8.data.toList = s := by
  have hbytes : s.toUTF8.data.toList = s.toList.flatMap String.utf8EncodeChar := by
    rw [String.toUTF8_eq_toByteArray, ← String.utf8Encode_toList, List.utf8Encode,
      List.toList_data_toByteArray]
  rw [hbytes, reads_iff.1 (reads_encoded s.toList), String.ofList_toList]

end Reads

/-- **Decoding reads byte by byte and loses nothing.** Where the encoding of a character starts, the
character is copied, and any other byte becomes a reference. So well-formed text is read as it is,
and where the bytes are cut at a broken part, every byte of it becomes a reference. -/
theorem decode_reads :
    (∀ bytes text, Reads bytes text ↔ decode bytes = .ofList text) ∧
      (∀ s : String, decode s.toUTF8.data.toList = s) ∧
      ∀ bytes before bad after, pieces bytes = before ++ .broken bad :: after →
        bytes = before.flatMap Piece.bytes ++ bad ++ after.flatMap Piece.bytes ∧
          IsBroken bad (after.flatMap Piece.bytes) ∧
          decode bytes = .ofList (before.flatMap Piece.text ++ bad.flatMap byteReference ++
            after.flatMap Piece.text) := by
  refine ⟨fun _ _ => reads_iff, decode_toUTF8, fun bytes before bad after h => ⟨?_, ?_, ?_⟩⟩
  · rw [← flatMap_bytes_pieces bytes, h]
    simp [Piece.bytes]
  · cases cuts_of_pieces_eq h with
    | broken hbroken => exact hbroken
  · rw [decode, h]
    simp [Piece.text]

/-- A cut off start of an encoding before an ordinary character, and a byte that starts none: each
byte of theirs becomes a reference, and reading goes on right after them. -/
theorem decode_reads_broken :
    Reads [0x61, 0xE2, 0x82, 0x28, 0xFF, 0xC3, 0xA9] "a&#226;&#130;(&#255;é".toList ∧
      IsBroken [0xE2, 0x82] [0x28, 0xFF, 0xC3, 0xA9] ∧
      decode [0x61, 0xE2, 0x82, 0x28, 0xFF, 0xC3, 0xA9] = "a&#226;&#130;(&#255;é" := by
  have hpieces : pieces [0x61, 0xE2, 0x82, 0x28, 0xFF, 0xC3, 0xA9] =
      [.scalar 'a'] ++ .broken [0xE2, 0x82] ::
        [.scalar '(', .broken [0xFF], .scalar 'é'] := by
    decide +kernel
  have hdecode : decode [0x61, 0xE2, 0x82, 0x28, 0xFF, 0xC3, 0xA9] = "a&#226;&#130;(&#255;é" := by
    decide +kernel
  exact ⟨(decode_reads.1 _ _).2 hdecode, (decode_reads.2.2 _ _ _ _ hpieces).2.1, hdecode⟩

end ApiDocs.Text
