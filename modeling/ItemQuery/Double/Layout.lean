import ItemQuery.Double.Shortest

/-!
Layouts: how the digits of a double become text.

A decimal is written positionally or with an exponent. Which of the two, whether a whole number
gets a fraction, and which way a tie between two shortest decimals goes, is a `Layout`; each output
of the library that shows a double names the layout it uses.
-/

namespace ItemQuery

namespace Decimal

/-- The position of the leading digit. -/
def leading (decimal : Decimal) : Int :=
  decimal.exponent + Double.decimalLength decimal.digits - 1

/-- Digits and zeros around a point. `fraction` says that a whole number ends in `.0`. -/
def positional (fraction : Bool) (decimal : Decimal) : List Char :=
  let digits := Nat.toDigits 10 decimal.digits
  match decimal.exponent with
  | .ofNat raise =>
      digits ++ List.replicate raise '0' ++ if fraction then ['.', '0'] else []
  | .negSucc lower =>
      let places := lower + 1
      if places < digits.length then
        digits.take (digits.length - places) ++ '.' :: digits.drop (digits.length - places)
      else '0' :: '.' :: (List.replicate (places - digits.length) '0' ++ digits)

/-- One digit, the others after a point, and the exponent with its sign. -/
def scientific (decimal : Decimal) : List Char :=
  let mantissa :=
    match Nat.toDigits 10 decimal.digits with
    | first :: second :: rest => first :: '.' :: second :: rest
    | digits => digits
  let sign := if decimal.leading < 0 then '-' else '+'
  mantissa ++ 'e' :: sign :: Nat.toDigits 10 decimal.leading.natAbs

end Decimal

/-- The choices that a text of doubles makes. -/
structure Layout where
  /-- Which of two equally near shortest decimals is written. -/
  tie : TieRule
  /-- Whether a whole number is written with a fraction. -/
  fraction : Bool
  /-- The least and the greatest position of the leading digit that is written positionally; none
  where every number is. -/
  positional : Option (Int × Int)

namespace Layout

def decimal (layout : Layout) (decimal : Decimal) : List Char :=
  match layout.positional with
  | none => decimal.positional layout.fraction
  | some (least, greatest) =>
      if least ≤ decimal.leading ∧ decimal.leading ≤ greatest then
        decimal.positional layout.fraction
      else decimal.scientific

/-- The text of a double. Zero keeps its sign. -/
def double (layout : Layout) (double : Double) : List Char :=
  (if double.negative then ['-'] else []) ++ layout.decimal (double.shortest layout.tie)

end Layout

end ItemQuery
