import ApiDocs.Text.Classes
import ApiDocs.Text.Decimal

/-!
# Numbers in JSON texts

`numeral` takes a number from the front of a text, as it is written. A number must lie in the
range of doubles (`Numeral.inRange`), which is decided from a scaled form: the leading digits, as
many as fit into 64 bits, and the power of ten that goes with them. The leading digits and the
power are each rounded to a double, and it is their product that must not overflow.
-/

namespace ApiDocs.Json

open Text

/-! ### Reading -/

/-- A number as it is written. -/
structure Numeral where
  negative : Bool
  /-- The digits before the point. -/
  whole : List Char
  /-- The digits after the point; empty if there is no point. -/
  fraction : List Char
  /-- The exponent, if there is one. -/
  exponent : Option Int
  deriving Repr

/-- A run of at least one digit, and the rest. -/
def digitRun (cs : List Char) : Option (List Char × List Char) :=
  if (cs.takeWhile isAsciiDigit).isEmpty then none
  else some (cs.takeWhile isAsciiDigit, cs.dropWhile isAsciiDigit)

/-- The digits after a point, if the text goes on with one. -/
def fractionPart : List Char → Option (List Char × List Char)
  | '.' :: rest => digitRun rest
  | cs => some ([], cs)

/-- The exponent, if the text goes on with one. -/
def exponentPart (cs : List Char) : Option (Option Int × List Char) :=
  match cs with
  | [] => some (none, [])
  | e :: rest =>
    if e = 'e' ∨ e = 'E' then
      match rest with
      | '+' :: ds => (digitRun ds).map fun r => (some (ofDecimal r.1 : Int), r.2)
      | '-' :: ds => (digitRun ds).map fun r => (some (-(ofDecimal r.1 : Int)), r.2)
      | ds => (digitRun ds).map fun r => (some (ofDecimal r.1 : Int), r.2)
    else some (none, cs)

/-- The number at the front of a text, after its sign. A zero is not followed by a digit. -/
def unsignedNumeral (negative : Bool) (cs : List Char) : Option (Numeral × List Char) := do
  let (whole, rest) ← digitRun cs
  if whole.head? = some '0' && whole.length > 1 then none
  else
    let (fraction, rest) ← fractionPart rest
    let (exponent, rest) ← exponentPart rest
    return (⟨negative, whole, fraction, exponent⟩, rest)

/-- The number at the front of a text. -/
def numeral : List Char → Option (Numeral × List Char)
  | '-' :: rest => unsignedNumeral true rest
  | cs => unsignedNumeral false cs

/-- The natural number that a number without sign, point and exponent stands for. -/
def Numeral.toNat? (n : Numeral) : Option Nat :=
  if !n.negative && n.fraction.isEmpty && n.exponent.isNone then some (ofDecimal n.whole)
  else none

/-! ### The scaled form -/

/-- A number with a power of ten: `significand * 10 ^ exponent`. -/
structure Scaled where
  significand : Nat
  exponent : Int
  deriving DecidableEq, Repr

namespace Scaled

/-- The significand with one more digit, if that fits into 64 bits. -/
def pushDigit? (s : Scaled) (digit : Char) : Option Nat :=
  let longer := s.significand * 10 + (digit.toNat - '0'.toNat)
  if longer < UInt64.size then some longer else none

/-- Takes in a digit before the point. After one that did not fit, every further digit only raises
the exponent. -/
def pushWhole (s : Scaled) (digit : Char) : Scaled :=
  match if s.exponent = 0 then s.pushDigit? digit else none with
  | some longer => ⟨longer, 0⟩
  | none => ⟨s.significand, s.exponent + 1⟩

/-- Takes in the digits after the point, up to the first one that does not fit. -/
def pushFraction (s : Scaled) : List Char → Scaled
  | [] => s
  | digit :: rest =>
    match s.pushDigit? digit with
    | some longer => pushFraction ⟨longer, s.exponent - 1⟩ rest
    | none => s

end Scaled

/-- The scaled form of the magnitude of a number. -/
def Numeral.scaled (n : Numeral) : Scaled :=
  let s := (n.whole.foldl Scaled.pushWhole ⟨0, 0⟩).pushFraction n.fraction
  ⟨s.significand, s.exponent + n.exponent.getD 0⟩

/-! ### The range -/

/-- The nearest number to `n` that has no more than `digits` binary digits before its trailing
zeros; of two equally near ones the even one. -/
def roundBinary (digits n : Nat) : Nat :=
  let unit := Nat.pow 2 (n.log2 + 1 - digits)
  let quotient := n / unit
  let twice := n % unit * 2
  if unit < twice ∨ (unit = twice ∧ quotient % 2 = 1) then (quotient + 1) * unit
  else quotient * unit

/-- The nearest double to a number. -/
def roundDouble (n : Nat) : Nat := roundBinary 53 n

/-- The magnitude at which a double overflows: half a unit beyond the greatest finite one. -/
def doubleLimit : Nat := Nat.pow 2 1024 - Nat.pow 2 970

/-- Whether a scaled number is in the range of doubles. Only powers of ten that are doubles are
computed, and a negative exponent never leads out of the range. -/
def Scaled.inRange (s : Scaled) : Bool :=
  if s.significand = 0 ∨ s.exponent < 0 then true
  else if 308 < s.exponent then false
  else
    roundDouble s.significand * roundDouble (Nat.pow 10 s.exponent.toNat) < doubleLimit

/-- Whether a number is in the range of doubles. -/
def Numeral.inRange (n : Numeral) : Bool := n.scaled.inRange

end ApiDocs.Json
