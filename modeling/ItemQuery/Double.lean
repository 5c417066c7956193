/-!
Finite binary64 numbers and the correct rounding of decimals to them.

A nonnegative double is known by its place in the increasing list of all of them: place 0 is zero,
place 1 the least positive double, 2^-1074, and each further place is the next larger double. The
place is at the same time the bit pattern without its sign. Reading a decimal takes the place whose
double is nearest to the exact quotient, and of two that are equally near the one whose place is
even; all arithmetic is exact and on natural numbers.
-/

namespace ItemQuery

/-- A finite binary64 number: its sign and its place among the nonnegative doubles, of which there
are 2047 times 2^52. -/
structure Double where
  negative : Bool
  place : Nat
  finite : place < 0x7ff0000000000000
deriving DecidableEq

namespace Double

/-- The place at which infinity would stand. -/
def places : Nat := 0x7ff0000000000000

def zero (negative : Bool) : Double := ⟨negative, 0, by decide⟩

instance : Inhabited Double := ⟨zero false⟩

/-- The double without the sign of a zero: the two zeros are equal as numbers. -/
def unsignedZero (double : Double) : Double := if double.place = 0 then zero false else double

theorem unsignedZero_eq_iff (first second : Double) :
    first.unsignedZero = second.unsignedZero ↔
      first = second ∨ first.place = 0 ∧ second.place = 0 := by
  cases first
  cases second
  grind [unsignedZero, zero]

/-! ## The value of a place

From one power of two to the next there are 2^52 doubles at equal distances, and as many from zero
to the first power of two. The double at a place is `significand` units of 2^-1074, doubled `shift`
times. -/

/-- The number of places between two powers of two: 2^52. -/
def binade : Nat := 0x10000000000000

def significand (place : Nat) : Nat :=
  if place < binade then place else binade + place % binade

def shift (place : Nat) : Nat := place / binade - 1

/-- The value of a place in units of 2^-1074. -/
def units (place : Nat) : Nat := significand place <<< shift place

/-- The number of units that make one: 2^1074. -/
def unitsOfOne : Nat := 1 <<< 1074

/-! ## Rounding to nearest -/

/-- The whole number nearest to a quotient, the even one of two that are equally near. -/
def divideToEven (numerator denominator : Nat) : Nat :=
  let quotient := numerator / denominator
  let twice := 2 * (numerator % denominator)
  if twice < denominator then quotient
  else if twice = denominator ∧ quotient % 2 = 0 then quotient
  else quotient + 1

/-- The place nearest to `numerator / denominator`, which may lie beyond the finite ones.

A quotient below 2^53 units is rounded to whole units. A larger one has its leading 53 binary
digits kept, and a round up that overflows them carries into the next power of two by itself. -/
def nearestPlace (numerator denominator : Nat) : Nat :=
  let scaled := numerator * unitsOfOne
  let whole := scaled / denominator
  let excess := if whole < 2 * binade then 0 else whole.log2 - 52
  excess * binade + divideToEven scaled (denominator <<< excess)

example : nearestPlace 3 (1 <<< 1075) = 2 := by decide +kernel
example : nearestPlace (1 <<< 1024) 1 = places := by decide +kernel
example : nearestPlace 1 1 = 0x3ff0000000000000 := by decide +kernel

/-- The number of digits of a number written in base ten. -/
def decimalLength (number : Nat) : Nat := (Nat.toDigits 10 number).length

/-- The double nearest to `± number * 10 ^ exponent`, none where that is infinite.

A number whose leading digit stands above 10^310 exceeds every double, and one whose leading digit
stands below 10^-330 is nearer to zero than to any other double, so powers of ten that far out are
never computed. -/
def ofDecimal? (negative : Bool) (number : Nat) (exponent : Int) : Option Double :=
  let point := exponent + decimalLength number
  if number = 0 ∨ point < -330 then some (zero negative)
  else if 310 < point then none
  else
    let place :=
      match exponent with
      | .ofNat raise => nearestPlace (number * Nat.pow 10 raise) 1
      | .negSucc lower => nearestPlace number (Nat.pow 10 (lower + 1))
    if finite : place < 0x7ff0000000000000 then some ⟨negative, place, finite⟩ else none

/-! ## Numbers beyond the finite -/

/-- A binary64 number that may also be an infinity or not a number. -/
inductive Extended
  | nan
  | infinite (negative : Bool)
  | finite (double : Double)
deriving DecidableEq

/-- The double nearest to a decimal, an infinity where no finite one is. -/
def Extended.ofDecimal (negative : Bool) (number : Nat) (exponent : Int) : Extended :=
  match ofDecimal? negative number exponent with
  | some double => .finite double
  | none => .infinite negative

end Double

end ItemQuery
