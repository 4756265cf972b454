import ApiDocs.Text.WordRanges
import ApiDocs.Text.DigitRanges
import ApiDocs.Text.DisplayRanges

/-!
# Character classes

The classes of characters that reading documentation comments depends on: blanks (`isBlank`),
the characters of a name (`isWord`), decimal digits of all scripts (`isDigit`), and the
characters that a quoted text shows as they are (`isPlain`). Each class is a table of intervals
searched by `inRanges`.
-/

namespace ApiDocs.Text

/-- Whether `n` lies in one of the closed intervals. The intervals ascend, so the search ends at
the first one that begins beyond `n`. -/
def inRanges : List (Nat × Nat) → Nat → Bool
  | [], _ => false
  | (lo, hi) :: rest, n => if n < lo then false else if n ≤ hi then true else inRanges rest n

/-- The blanks: tabulation and line controls, the space, and the spaces and line separators of
other scripts. -/
def blankRanges : List (Nat × Nat) := [
  (0x9, 0xD), (0x20, 0x20), (0x85, 0x85), (0xA0, 0xA0), (0x1680, 0x1680), (0x2000, 0x200A),
  (0x2028, 0x2029), (0x202F, 0x202F), (0x205F, 0x205F), (0x3000, 0x3000)]

/-- A blank character. -/
def isBlank (c : Char) : Bool := inRanges blankRanges c.toNat

/-- A character of a name. -/
def isWord (c : Char) : Bool := inRanges wordRanges c.toNat

/-- A decimal digit of some script. -/
def isDigit (c : Char) : Bool := inRanges digitRanges c.toNat

/-- A digit from `0` to `9`. -/
def isAsciiDigit (c : Char) : Bool := '0' ≤ c && c ≤ '9'

/-- A character that has a glyph of its own and does not attach to the one before it. -/
def isPlain (c : Char) : Bool :=
  !inRanges graphemeExtendRanges c.toNat && !inRanges unprintableRanges c.toNat

/-! ### Searching a table -/

@[simp] theorem inRanges_nil (n : Nat) : inRanges [] n = false := rfl

/-- A hit lies in one of the intervals. -/
theorem exists_of_inRanges {table : List (Nat × Nat)} {n : Nat} (h : inRanges table n = true) :
    ∃ r ∈ table, r.1 ≤ n ∧ n ≤ r.2 := by
  induction table with
  | nil => simp at h
  | cons r rest ih =>
    obtain ⟨lo, hi⟩ := r
    rw [inRanges] at h
    split at h
    · simp at h
    · split at h
      · exact ⟨(lo, hi), by simp, by omega, by assumption⟩
      · obtain ⟨r, hr, hn⟩ := ih h
        exact ⟨r, by simp [hr], hn⟩

end ApiDocs.Text
