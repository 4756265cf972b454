/-!
# Decimal and hexadecimal numerals

Numerals as they are written into text: `decimal` and `hex` give the digits without leading
zeros, `ofDecimal` reads a run of digits from `0` to `9` back.
-/

namespace ApiDocs.Text

/-- The decimal digits of a number. -/
def decimal (n : Nat) : List Char :=
  if n < 10 then [Nat.digitChar n] else decimal (n / 10) ++ [Nat.digitChar (n % 10)]

/-- The hexadecimal digits of a number, in lower case. -/
def hex (n : Nat) : List Char :=
  if n < 16 then [Nat.digitChar n] else hex (n / 16) ++ [Nat.digitChar (n % 16)]

/-- The number that a run of decimal digits stands for. -/
def ofDecimal (ds : List Char) : Nat := ds.foldl (fun n d => n * 10 + (d.toNat - '0'.toNat)) 0

/-- Reading the digits of a number gives the number. -/
theorem ofDecimal_decimal (n : Nat) : ofDecimal (decimal n) = n := by
  have digit : ∀ d, d < 10 → (Nat.digitChar d).toNat - '0'.toNat = d := by decide
  induction n using decimal.induct with
  | case1 n h => rw [decimal, if_pos h]; simpa [ofDecimal] using digit n h
  | case2 n h ih =>
    rw [decimal, if_neg h, ofDecimal, List.foldl_append, ← ofDecimal, ih, List.foldl_cons,
      List.foldl_nil, digit (n % 10) (Nat.mod_lt n (by decide))]
    omega

end ApiDocs.Text
