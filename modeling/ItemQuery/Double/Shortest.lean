import ItemQuery.Double

/-!
The shortest decimal that reads back as a given double.

For 1, 2, … 17 digits the two decimals of that length on either side of the double are tried; the
first length at which one of them reads back wins, and where both do, the nearer one. Which way an
exact tie goes is the caller's choice. Should no such decimal read back, the exact expansion of the
double is taken instead, so the result reads back in every case: the test that admits a decimal is
`ofDecimal?` itself.
-/

namespace ItemQuery

/-- The decimal `digits * 10 ^ exponent`. -/
structure Decimal where
  digits : Nat
  exponent : Int
deriving DecidableEq

namespace Decimal

/-- Move the zeros at the end of the digits into the exponent. -/
def dropZeros (decimal : Decimal) : Decimal :=
  if divisible : decimal.digits % 10 = 0 ∧ 0 < decimal.digits then
    dropZeros ⟨decimal.digits / 10, decimal.exponent + 1⟩
  else decimal
termination_by decimal.digits
decreasing_by exact Nat.div_lt_self divisible.2 (by decide)

end Decimal

/-- What becomes of two decimals that are equally near. -/
inductive TieRule
  | toEven
  | away
deriving DecidableEq

namespace Double

/-- The position of the leading decimal digit of a quotient: the greatest `e` for which `10 ^ e`
does not exceed it. -/
def leadingExponent (numerator denominator : Nat) : Int :=
  if denominator ≤ numerator then (decimalLength (numerator / denominator) : Int) - 1
  else - (decimalLength ((denominator + numerator - 1) / numerator - 1) : Int)

example : leadingExponent 1 10 = -1 := by decide
example : leadingExponent 1 11 = -2 := by decide

/-- The decimals on either side of a quotient whose last digit counts `10 ^ exponent`, the nearer
one first. -/
def neighbours (tie : TieRule) (numerator denominator : Nat) (exponent : Int) : List Decimal :=
  let (scaled, unit) :=
    match exponent with
    | .ofNat raise => (numerator, denominator * Nat.pow 10 raise)
    | .negSucc lower => (numerator * Nat.pow 10 (lower + 1), denominator)
  let below := scaled / unit
  let twice := 2 * (scaled % unit)
  let downward :=
    twice < unit ∨ (twice = unit ∧ tie = .toEven ∧ below % 2 = 0)
  if downward then [⟨below, exponent⟩, ⟨below + 1, exponent⟩]
  else [⟨below + 1, exponent⟩, ⟨below, exponent⟩]

/-- Whether a decimal reads back as the double. -/
def ReadsBack (double : Double) (decimal : Decimal) : Prop :=
  ofDecimal? double.negative decimal.digits decimal.exponent = some double

instance (double : Double) (decimal : Decimal) : Decidable (ReadsBack double decimal) :=
  inferInstanceAs (Decidable (_ = _))

/-- The value of the double, written out in full. -/
def exactDecimal (double : Double) : Decimal := ⟨units double.place * Nat.pow 5 1074, -1074⟩

/-- Try the decimals of `length` digits, then those with one digit more, `remaining` times. -/
def search (tie : TieRule) (double : Double) (leading : Int) : (remaining length : Nat) → Decimal
  | 0, _ => exactDecimal double
  | remaining + 1, length =>
      match (neighbours tie (units double.place) unitsOfOne (leading - length + 1)).find?
          fun decimal => decide (ReadsBack double decimal) with
      | some decimal => decimal
      | none => search tie double leading remaining (length + 1)

/-- The decimal of the fewest digits that reads back as the double, the nearest of those, without
zeros at its end. -/
def shortest (tie : TieRule) (double : Double) : Decimal :=
  if double.place = 0 then ⟨0, 0⟩
  else
    (search tie double (leadingExponent (units double.place) unitsOfOne) 17 1).dropZeros

end Double

end ItemQuery
