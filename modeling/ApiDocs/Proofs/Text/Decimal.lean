import ApiDocs.Text.Classes
import ApiDocs.Text.Decimal

/-!
# Decimal numerals as texts

A decimal numeral is a run of digits that is not empty and has no zero in front.
-/

namespace ApiDocs.Text

theorem decimal_eq_cons (n : Nat) : ∃ c cs, decimal n = c :: cs := by
  rw [decimal]
  split
  · exact ⟨_, _, rfl⟩
  · exact List.exists_cons_of_ne_nil (by simp)

theorem digits_of_mem_decimal {n : Nat} {c : Char} (h : c ∈ decimal n) :
    isDigit c = true ∧ isAsciiDigit c = true := by
  have digit : ∀ d, d < 10 →
      isDigit (Nat.digitChar d) = true ∧ isAsciiDigit (Nat.digitChar d) = true := by decide
  induction n using decimal.induct with
  | case1 n hn =>
    rw [decimal, if_pos hn, List.mem_singleton] at h
    exact h ▸ digit n hn
  | case2 n hn ih =>
    rw [decimal, if_neg hn, List.mem_append, List.mem_singleton] at h
    rcases h with h | h
    · exact ih h
    · exact h ▸ digit (n % 10) (Nat.mod_lt n (by decide))

/-- Only zero is written with a zero in front. -/
theorem eq_zero_of_head?_decimal {n : Nat} (h : (decimal n).head? = some '0') : n = 0 := by
  have digit : ∀ d, d < 10 → Nat.digitChar d = '0' → d = 0 := by decide
  induction n using decimal.induct with
  | case1 n hn =>
    rw [decimal, if_pos hn, List.head?_cons, Option.some.injEq] at h
    exact digit n hn h
  | case2 n hn ih =>
    obtain ⟨c, cs, hcons⟩ := decimal_eq_cons (n / 10)
    rw [decimal, if_neg hn, hcons] at h
    rw [hcons] at ih
    have hzero := ih h
    omega

end ApiDocs.Text
