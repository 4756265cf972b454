import ApiDocs.Text.CaseRanges
import ApiDocs.Text.Classes

/-!
# Case mapping

Full case mapping: a character may become several. The one mapping that looks at its
surroundings is that of the Greek capital sigma, which becomes the final form at the end of a
word. `lower` and `capitalize` work on strings; names are compared by `nameLE`, which ignores
case first and breaks ties by the exact text.
-/

namespace ApiDocs.Text

/-- The code point that a table of regular runs maps `n` to. -/
def shifted : List (Nat × Nat × Nat × Int) → Nat → Option Nat
  | [], _ => none
  | (lo, hi, step, shift) :: rest, n =>
    if n < lo then none
    else if n ≤ hi && (n - lo) % step == 0 then some ((n : Int) + shift).toNat
    else shifted rest n

/-- Looks a character up among the expansions, then among the runs; a character found in neither
maps to itself. -/
def mapCase (expansions : List (Nat × List Nat)) (runs : List (Nat × Nat × Nat × Int))
    (c : Char) : List Char :=
  match expansions.lookup c.toNat with
  | some cs => cs.map Char.ofNat
  | none =>
    match shifted runs c.toNat with
    | some n => [Char.ofNat n]
    | none => [c]

/-- The lower-case form of a character on its own. -/
def lowerChar : Char → List Char := mapCase lowerExpansions lowerRuns

/-- The upper-case form of a character. -/
def upperChar : Char → List Char := mapCase upperExpansions upperRuns

/-- Whether a character with case comes first once the ignorable characters are passed over. -/
def startsCased (cs : List Char) : Bool :=
  match cs.dropWhile (fun c => inRanges caseIgnorableRanges c.toNat) with
  | [] => false
  | c :: _ => inRanges casedRanges c.toNat

/-- The lower-case form of a text that follows `before`, which is given backwards. A capital sigma
becomes the final form if a cased character stands before it and none after it. -/
def lowerFrom (before : List Char) : List Char → List Char
  | [] => []
  | c :: rest =>
    (if c = 'Σ' then
      [if startsCased before && !startsCased rest then 'ς' else 'σ']
    else lowerChar c) ++ lowerFrom (c :: before) rest

/-- The lower-case form of a string. -/
def lower (s : String) : String := .ofList (lowerFrom [] s.toList)

/-- The string with its first character in upper case. -/
def capitalize (s : String) : String :=
  match s.toList with
  | [] => ""
  | c :: rest => .ofList (upperChar c ++ rest)

/-- The order of names in listings: by their lower-case forms, ties by the exact names. -/
def nameLE (a b : String) : Bool :=
  if lower a = lower b then a ≤ b else lower a ≤ lower b

theorem nameLE_iff {a b : String} :
    nameLE a b = true ↔ lower a < lower b ∨ lower a = lower b ∧ a ≤ b := by
  by_cases h : lower a = lower b
  · rw [nameLE, if_pos h, decide_eq_true_eq, h]
    constructor
    · exact fun hle => .inr ⟨rfl, hle⟩
    · rintro (hlt | ⟨-, hle⟩)
      · exact absurd hlt (String.lt_irrefl _)
      · exact hle
  · simp only [nameLE, h, if_false, decide_eq_true_eq, false_and, or_false]
    constructor
    · intro hle
      refine String.not_le.1 fun hge => h (String.le_antisymm hle hge)
    · exact fun hlt => String.not_lt.1 (String.lt_asymm hlt)

theorem nameLE_total (a b : String) : (nameLE a b || nameLE b a) = true := by
  simp only [Bool.or_eq_true, nameLE]
  by_cases h : lower a = lower b
  · simpa [h] using String.le_total a b
  · simpa [h, Ne.symm h] using String.le_total (lower a) (lower b)

theorem nameLE_trans {a b c : String} (hab : nameLE a b = true) (hbc : nameLE b c = true) :
    nameLE a c = true := by
  rw [nameLE_iff] at hab hbc ⊢
  rcases hab with hab | ⟨hab, hab'⟩
  · rcases hbc with hbc | ⟨hbc, -⟩
    · exact .inl (String.lt_trans hab hbc)
    · exact .inl (hbc ▸ hab)
  · rcases hbc with hbc | ⟨hbc, hbc'⟩
    · exact .inl (hab ▸ hbc)
    · exact .inr ⟨hab.trans hbc, String.le_trans hab' hbc'⟩

/-- Sorts items by name for a listing; items of one name keep their order. -/
def sortByName {α : Type} (name : α → String) (items : List α) : List α :=
  items.mergeSort fun a b => nameLE (name a) (name b)

theorem sortByName_perm {α : Type} (name : α → String) (items : List α) :
    (sortByName name items).Perm items :=
  List.mergeSort_perm _ _

theorem pairwise_sortByName {α : Type} (name : α → String) (items : List α) :
    (sortByName name items).Pairwise fun a b => nameLE (name a) (name b) = true := by
  rw [sortByName]
  refine List.pairwise_mergeSort ?_ ?_ items
  · intro a b c hab hbc
    exact nameLE_trans hab hbc
  · intro a b
    exact nameLE_total (name a) (name b)

end ApiDocs.Text
