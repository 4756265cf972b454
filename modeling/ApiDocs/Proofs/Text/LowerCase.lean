import ApiDocs.Text.Case

/-!
# Texts in lower case

Other names than those of English have capitals of their own, and the tables for them are long. What
can be said of all texts in lower case is that **no capital from A to Z is left in them**
(`lower_lowerCase`): each table leads past these capitals, and each of these capitals is in the
table.
-/

namespace ApiDocs.Text

/-- No character of a text is a capital from A to Z. -/
def LowerCase (s : String) : Prop := ∀ c ∈ s.toList, c.isUpper = false

instance (s : String) : Decidable (LowerCase s) :=
  List.decidableBAll (fun c : Char => c.isUpper = false) s.toList

private theorem isUpper_iff {c : Char} : c.isUpper = true ↔ 65 ≤ c.toNat ∧ c.toNat ≤ 90 := by
  have hcode : 'A'.val ≤ c.val ∧ c.val ≤ 'Z'.val ↔ 65 ≤ c.toNat ∧ c.toNat ≤ 90 :=
    and_congr UInt32.le_iff_toNat_le UInt32.le_iff_toNat_le
  exact decide_eq_true_iff.trans hcode

/-- A code point past the capitals gives no capital, if it is one of a character. -/
private theorem isUpper_ofNat {n : Nat} (hn : 90 < n) (hvalid : n.isValidChar) :
    (Char.ofNat n).isUpper = false := by
  rw [Bool.eq_false_iff, ne_eq, isUpper_iff]
  have hto : (Char.ofNat n).toNat = n := by
    rw [Char.ofNat, dif_pos hvalid]
    rfl
  omega

/-- What a table of runs gives comes from one of the runs. -/
private theorem exists_of_shifted {runs : List (Nat × Nat × Nat × Int)} {n k : Nat}
    (h : shifted runs n = some k) :
    ∃ lo hi step shift, (lo, hi, step, shift) ∈ runs ∧ lo ≤ n ∧ n ≤ hi ∧
      k = ((n : Int) + shift).toNat := by
  induction runs with
  | nil => cases h
  | cons run runs ih =>
    obtain ⟨lo, hi, step, shift⟩ := run
    rw [shifted] at h
    split at h
    · cases h
    · rename_i hlo
      split at h
      · rename_i hhi
        rw [Bool.and_eq_true, decide_eq_true_eq] at hhi
        cases h
        exact ⟨lo, hi, step, shift, List.mem_cons_self, Nat.not_lt.1 hlo, hhi.1, rfl⟩
      · obtain ⟨lo, hi, step, shift, hmem, hrest⟩ := ih h
        exact ⟨lo, hi, step, shift, List.mem_cons_of_mem _ hmem, hrest⟩

/-- A range of characters past the capitals. -/
def PastCapitals (lo hi : Int) : Prop :=
  90 < lo ∧ (hi < 0xD800 ∨ 0xDFFF < lo ∧ hi < 0x110000)

instance (lo hi : Int) : Decidable (PastCapitals lo hi) :=
  inferInstanceAs (Decidable (90 < lo ∧ (hi < 0xD800 ∨ 0xDFFF < lo ∧ hi < 0x110000)))

private theorem pastCapitals_lowerRuns : ∀ run ∈ lowerRuns,
    PastCapitals (run.1 + run.2.2.2) (run.2.1 + run.2.2.2) := by
  decide +kernel

private theorem isUpper_lowerExpansions : ∀ e ∈ lowerExpansions, ∀ n ∈ e.2,
    (Char.ofNat n).isUpper = false := by
  decide +kernel

private theorem isSome_shifted_capital : ∀ n < 26, (shifted lowerRuns (65 + n)).isSome = true := by
  decide +kernel

/-- **The lower-case form of a character has no capitals.** -/
theorem isUpper_of_mem_lowerChar {c d : Char} (h : d ∈ lowerChar c) : d.isUpper = false := by
  rw [lowerChar, mapCase] at h
  split at h
  · rename_i cs hcs
    obtain ⟨n, hn, rfl⟩ := List.mem_map.1 h
    obtain ⟨before, after, htable, -⟩ := List.lookup_eq_some_iff.1 hcs
    have hmem : (c.toNat, cs) ∈ lowerExpansions := htable ▸ by simp
    exact isUpper_lowerExpansions _ hmem n hn
  · split at h
    · rename_i k hk
      obtain ⟨lo, hi, step, shift, hmem, hlo, hhi, rfl⟩ := exists_of_shifted hk
      obtain ⟨hpast, hvalid⟩ := pastCapitals_lowerRuns _ hmem
      rw [List.mem_singleton.1 h]
      dsimp only at hpast hvalid
      refine isUpper_ofNat (by omega) ?_
      rw [Nat.isValidChar]
      omega
    · rename_i hnone
      rw [List.mem_singleton.1 h, Bool.eq_false_iff, ne_eq, isUpper_iff]
      rintro ⟨hlo, hhi⟩
      have hsome := isSome_shifted_capital (c.toNat - 65) (by omega)
      rw [Nat.add_sub_of_le hlo, hnone] at hsome
      cases hsome

/-- **A text in lower case has no capitals.** -/
theorem lowerCase_lower (s : String) : LowerCase (lower s) := by
  have hfrom (before cs : List Char) : ∀ c ∈ lowerFrom before cs, c.isUpper = false := by
    induction cs generalizing before with
    | nil => exact fun c hc => absurd hc List.not_mem_nil
    | cons c cs ih =>
      intro d hd
      rw [lowerFrom] at hd
      rcases List.mem_append.1 hd with hd | hd
      · -- a capital sigma has two small forms
        split at hd
        · rw [List.mem_singleton.1 hd]
          split <;> decide
        · exact isUpper_of_mem_lowerChar hd
      · exact ih (c :: before) d hd
  intro c hc
  rw [lower, String.toList_ofList] at hc
  exact hfrom [] s.toList c hc

end ApiDocs.Text
