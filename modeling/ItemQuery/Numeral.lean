import ItemQuery.Double

/-!
Numerals: the texts of whole numbers and of decimals.

A whole numeral is an optional sign and at least one digit; leading zeros are allowed. A decimal
numeral is an optional sign, digits with at most one point among or beside them, and an optional
exponent, which is a whole numeral after `e` or `E`; at least one digit stands before the exponent.
Only the ASCII digits count, and nothing may stand before, between or after: no blanks, no
separators.
-/

namespace ItemQuery
namespace Numeral

/-- Split a leading sign off a text; true stands for a minus. -/
def splitSign : List Char → Bool × List Char
  | '-' :: rest => (true, rest)
  | '+' :: rest => (false, rest)
  | text => (false, text)

/-- The number that digits denote in base ten. -/
def ofDigits (digits : List Char) : Nat := Nat.ofDigitChars 10 digits 0

/-- A text of one or more digits and nothing else. -/
def IsDigits (text : List Char) : Prop := text ≠ [] ∧ text.all Char.isDigit

instance (text : List Char) : Decidable (IsDigits text) := inferInstanceAs (Decidable (_ ∧ _))

def applySign (negative : Bool) (magnitude : Nat) : Int := if negative then -magnitude else magnitude

/-- The number that a whole numeral denotes, none for any other text. -/
def integer? (text : List Char) : Option Int :=
  let (negative, digits) := splitSign text
  if IsDigits digits then some (applySign negative (ofDigits digits)) else none

example : integer? "+007".toList = some 7 := by decide
example : integer? "1_000".toList = none := by decide

/-- The numeral of a whole number: a minus where it is negative, and no zeros in front. -/
def ofInteger (value : Int) : List Char :=
  (if value < 0 then ['-'] else []) ++ Nat.toDigits 10 value.natAbs

/-! The numeral of a whole number denotes that number: a minus splits off, and the digits stand for
the magnitude. -/

theorem ofDigits_toDigits (number : Nat) : ofDigits (Nat.toDigits 10 number) = number :=
  Nat.ofDigitChars_toDigits (by decide) (by decide)

theorem isDigits_toDigits (number : Nat) : IsDigits (Nat.toDigits 10 number) :=
  ⟨Nat.toDigits_ne_nil, List.all_eq_true.mpr fun _ member =>
    Nat.isDigit_of_mem_toDigits (by decide) (by decide) member⟩

theorem splitSign_of_isDigits {digits : List Char} (isDigits : IsDigits digits) :
    splitSign digits = (false, digits) := by
  obtain ⟨nonempty, all⟩ := isDigits
  match digits with
  | [] => exact absurd rfl nonempty
  | first :: rest =>
      unfold splitSign
      split
      · simp_all [Char.isDigit]
      · simp_all [Char.isDigit]
      · rfl

theorem integer?_ofInteger (value : Int) : integer? (ofInteger value) = some value := by
  by_cases negative : value < 0
  · have signed : applySign true value.natAbs = value := by
      simp only [applySign, if_true]
      omega
    simp [integer?, ofInteger, negative, splitSign, isDigits_toDigits, ofDigits_toDigits, signed]
  · have unsigned : applySign false value.natAbs = value := by
      simp only [applySign, Bool.false_eq_true, if_false]
      omega
    simp [integer?, ofInteger, negative, splitSign_of_isDigits, isDigits_toDigits,
      ofDigits_toDigits, unsigned]

/-! ## Decimals -/

/-- The exponent that the end of a decimal numeral states; zero where it states none. -/
def exponent? : List Char → Option Int
  | [] => some 0
  | mark :: rest => if mark = 'e' ∨ mark = 'E' then integer? rest else none

/-- An unsigned decimal numeral as a pair of a whole number and the power of ten it counts. -/
def unsignedDecimal? (text : List Char) : Option (Nat × Int) :=
  let whole := text.takeWhile Char.isDigit
  let afterWhole := text.dropWhile Char.isDigit
  let (fraction, ending) :=
    match afterWhole with
    | '.' :: rest => (rest.takeWhile Char.isDigit, rest.dropWhile Char.isDigit)
    | _ => ([], afterWhole)
  if whole ++ fraction = [] then none
  else (exponent? ending).map fun exponent =>
    (ofDigits (whole ++ fraction), exponent - fraction.length)

example : unsignedDecimal? "1.25e3".toList = some (125, 1) := by decide
example : unsignedDecimal? ".".toList = none := by decide

/-- The words for what is not a finite number, spelt in any mixture of cases. -/
def special? (text : List Char) : Option (Bool → Double.Extended) :=
  let word := text.map Char.toLower
  if word = "inf".toList ∨ word = "infinity".toList then some .infinite
  else if word = "nan".toList then some fun _ => .nan
  else none

/-- The binary64 number nearest to what a decimal numeral denotes. The words `inf`, `infinity` and
`nan` count as numerals here, in any case and with a sign. -/
def extended? (text : List Char) : Option Double.Extended :=
  let (negative, unsigned) := splitSign text
  match special? unsigned with
  | some value => some (value negative)
  | none => (unsignedDecimal? unsigned).map fun (number, exponent) =>
      .ofDecimal negative number exponent

/-- The finite binary64 number nearest to what a decimal numeral denotes. -/
def double? (text : List Char) : Option Double :=
  match extended? text with
  | some (.finite double) => some double
  | _ => none

end Numeral
end ItemQuery
