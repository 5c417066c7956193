import Mathlib.Algebra.Group.Nat.Defs
import ItemQuery.Double.Shortest

/-!
Rounding to the nearest double and back.

The decimal that is chosen for a double reads back as this double (`Double.readsBack_shortest`).
A candidate of few digits is admitted only if it does; behind the candidates stands the exact
expansion, which does as well: rounding depends only on the quotient, not on its units
(`Double.nearestPlace_mul_right`), and takes the value of a place to that place
(`Double.nearestPlace_units`). Zeros at the end of the digits may move into the exponent
(`Double.ofDecimal?_mul_pow`).
-/

namespace ItemQuery
namespace Double

/-! ## Quotients in other units -/

section Scale

variable {numerator denominator scale : Nat}

theorem divideToEven_mul_right (positive : 0 < scale) :
    divideToEven (numerator * scale) (denominator * scale) =
      divideToEven numerator denominator := by
  have left : 2 * (numerator * scale % (denominator * scale)) =
      2 * (numerator % denominator) * scale := by
    rw [Nat.mul_mod_mul_right, Nat.mul_assoc]
  have below : 2 * (numerator % denominator) * scale < denominator * scale ↔
      2 * (numerator % denominator) < denominator := Nat.mul_lt_mul_right positive
  have middle : 2 * (numerator % denominator) * scale = denominator * scale ↔
      2 * (numerator % denominator) = denominator :=
    Nat.mul_left_inj (Nat.ne_of_gt positive)
  simp only [divideToEven, left, Nat.mul_div_mul_right _ _ positive, below, middle]

theorem nearestPlace_mul_right (positive : 0 < scale) :
    nearestPlace (numerator * scale) (denominator * scale) =
      nearestPlace numerator denominator := by
  have scaled : numerator * scale * unitsOfOne = numerator * unitsOfOne * scale :=
    Nat.mul_right_comm numerator scale unitsOfOne
  have shifted (excess : Nat) : (denominator * scale) <<< excess =
      (denominator <<< excess) * scale := by
    rw [Nat.shiftLeft_eq, Nat.shiftLeft_eq, Nat.mul_right_comm]
  simp only [nearestPlace, scaled, shifted, Nat.mul_div_mul_right _ _ positive,
    divideToEven_mul_right positive]

end Scale

/-! ## Zeros at the end of the digits -/

theorem decimalLength_mul_ten {number : Nat} (positive : 0 < number) :
    decimalLength (number * 10) = decimalLength number + 1 := by
  have digits := Nat.toDigits_of_base_le (b := 10) (n := number * 10) (by decide) (by omega)
  rw [decimalLength, digits, List.length_append, Nat.mul_div_cancel number (by decide)]
  rfl

/-- The place nearest to `number * 10 ^ exponent`. -/
def placeOfDecimal (number : Nat) : Int → Nat
  | .ofNat raise => nearestPlace (number * Nat.pow 10 raise) 1
  | .negSucc lower => nearestPlace number (Nat.pow 10 (lower + 1))

/-- The double at a place, none at infinity or beyond. -/
def atPlace? (negative : Bool) (place : Nat) : Option Double :=
  if finite : place < 0x7ff0000000000000 then some ⟨negative, place, finite⟩ else none

theorem ofDecimal?_eq (negative : Bool) (number : Nat) (exponent : Int) :
    ofDecimal? negative number exponent =
      if number = 0 ∨ exponent + decimalLength number < -330 then some (zero negative)
      else if 310 < exponent + decimalLength number then none
      else atPlace? negative (placeOfDecimal number exponent) := by
  cases exponent <;> rfl

theorem placeOfDecimal_mul_ten (number : Nat) (exponent : Int) :
    placeOfDecimal (number * 10) exponent = placeOfDecimal number (exponent + 1) := by
  match exponent with
  | .ofNat raise =>
      change nearestPlace (number * 10 * 10 ^ raise) 1 = nearestPlace (number * 10 ^ (raise + 1)) 1
      rw [Nat.pow_succ', Nat.mul_assoc]
  | .negSucc 0 =>
      change nearestPlace (number * 10) (1 * 10) = nearestPlace (number * 1) 1
      rw [nearestPlace_mul_right (by decide), Nat.mul_one]
  | .negSucc (lower + 1) =>
      change nearestPlace (number * 10) (10 ^ (lower + 1) * 10) =
        nearestPlace number (10 ^ (lower + 1))
      exact nearestPlace_mul_right (by decide)

/-- A zero at the end of the digits counts as much as one more in the exponent. -/
theorem ofDecimal?_mul_ten (negative : Bool) (number : Nat) (exponent : Int) :
    ofDecimal? negative (number * 10) exponent = ofDecimal? negative number (exponent + 1) := by
  rcases Nat.eq_zero_or_pos number with none | positive
  · rw [ofDecimal?_eq, ofDecimal?_eq, none, if_pos (.inl rfl), if_pos (.inl rfl)]
  · have point : exponent + decimalLength (number * 10) =
        exponent + 1 + decimalLength number := by
      rw [decimalLength_mul_ten positive]
      omega
    have digits : number * 10 = 0 ↔ number = 0 := by omega
    rw [ofDecimal?_eq, ofDecimal?_eq, point, placeOfDecimal_mul_ten]
    simp only [digits]

theorem ofDecimal?_mul_pow (negative : Bool) (number : Nat) (zeros : Nat) (exponent : Int) :
    ofDecimal? negative (number * 10 ^ zeros) exponent =
      ofDecimal? negative number (exponent + zeros) := by
  induction zeros generalizing exponent with
  | zero => rw [Nat.pow_zero, Nat.mul_one, Int.natCast_zero, Int.add_zero]
  | succ zeros induction =>
      have shifted : exponent + 1 + (zeros : Int) = exponent + (zeros + 1 : Nat) := by omega
      rw [Nat.pow_succ, ← Nat.mul_assoc, ofDecimal?_mul_ten, induction, shifted]

/-! ## A place from its value -/

theorem units_of_lt_binade {place : Nat} (below : place < binade) : units place = place := by
  rw [units, significand, shift, if_pos below, Nat.div_eq_of_lt below]
  rfl

theorem units_of_binade_le {place : Nat} (above : binade ≤ place) :
    units place = (binade + place % binade) * 2 ^ (place / binade - 1) := by
  rw [units, significand, shift, if_neg (Nat.not_lt.mpr above), Nat.shiftLeft_eq]

theorem divideToEven_mul_self {number scale : Nat} (positive : 0 < scale) :
    divideToEven (number * scale) scale = number := by
  simp [divideToEven, Nat.mul_div_cancel number positive, positive]

/-- A significand of 53 binary digits that was doubled some times has as many binary digits in excess
of these. -/
theorem excess_of_significand {rest : Nat} (low : rest < binade) (doublings : Nat) :
    (if (binade + rest) * 2 ^ doublings < 2 * binade then 0
      else ((binade + rest) * 2 ^ doublings).log2 - 52) = doublings := by
  cases doublings with
  | zero =>
      rw [Nat.pow_zero, Nat.mul_one]
      exact if_pos (by omega)
  | succ doublings =>
      have least : 2 ^ 52 * 2 ^ (doublings + 1) ≤ (binade + rest) * 2 ^ (doublings + 1) :=
        Nat.mul_le_mul_right _ (Nat.le_add_right binade rest)
      have beyond : (binade + rest) * 2 ^ (doublings + 1) < 2 ^ 53 * 2 ^ (doublings + 1) :=
        Nat.mul_lt_mul_of_pos_right (Nat.add_lt_add_left low binade) (Nat.two_pow_pos _)
      have doubled : 2 ≤ 2 ^ (doublings + 1) := Nat.le_self_pow (by omega) 2
      generalize (binade + rest) * 2 ^ (doublings + 1) = value at *
      have log : value.log2 = 52 + (doublings + 1) := by
        rw [Nat.log2_eq_iff (by omega), Nat.pow_add 2 52, Nat.add_right_comm, Nat.pow_add 2 (52 + 1)]
        exact ⟨least, beyond⟩
      have large : ¬ value < 2 * binade := by
        rw [binade]
        omega
      rw [if_neg large, log, Nat.add_sub_cancel_left]

/-- The place nearest to the value of a place is that place. -/
theorem nearestPlace_units (place : Nat) : nearestPlace (units place) unitsOfOne = place := by
  have positive : 0 < unitsOfOne := by decide +kernel
  rcases Nat.lt_or_ge place binade with below | above
  · have whole : place < 2 * binade := by omega
    rw [nearestPlace, units_of_lt_binade below]
    simp only [Nat.mul_div_cancel _ positive, if_pos whole, Nat.shiftLeft_zero,
      divideToEven_mul_self positive]
    omega
  · have split := Nat.div_add_mod place binade
    have low := Nat.mod_lt place (show 0 < binade by decide)
    have high : 1 ≤ place / binade := (Nat.one_le_div_iff (by decide)).mpr above
    have excess := excess_of_significand low (place / binade - 1)
    rw [← units_of_binade_le above] at excess
    -- What is divided is the significand, in units that were doubled as often as it was.
    have scaled : units place * unitsOfOne =
        (binade + place % binade) * (2 ^ (place / binade - 1) * unitsOfOne) := by
      rw [units_of_binade_le above, Nat.mul_assoc]
    have shifted : unitsOfOne <<< (place / binade - 1) =
        2 ^ (place / binade - 1) * unitsOfOne := by
      rw [Nat.shiftLeft_eq, Nat.mul_comm]
    rw [nearestPlace]
    simp only [Nat.mul_div_cancel _ positive, excess]
    rw [scaled, shifted, divideToEven_mul_self (Nat.mul_pos (Nat.two_pow_pos _) positive)]
    calc (place / binade - 1) * binade + (binade + place % binade)
        = (place / binade - 1 + 1) * binade + place % binade := by
          rw [Nat.succ_mul, Nat.add_assoc]
      _ = binade * (place / binade) + place % binade := by
          rw [Nat.sub_add_cancel high, Nat.mul_comm]
      _ = place := split

/-! ## The exact expansion -/

theorem decimalLength_le_iff {number : Nat} {length : Nat} (positive : 0 < length) :
    decimalLength number ≤ length ↔ number < 10 ^ length :=
  Nat.length_toDigits_le_iff (by decide) positive

theorem units_pos {place : Nat} (positive : 0 < place) : 0 < units place := by
  rcases Nat.lt_or_ge place binade with below | above
  · rw [units_of_lt_binade below]
    exact positive
  · rw [units_of_binade_le above]
    exact Nat.mul_pos (Nat.add_pos_left (by decide) _) (Nat.two_pow_pos _)

theorem units_lt {place doublings : Nat} (finite : place / binade ≤ doublings + 1) :
    units place < 2 ^ 53 * 2 ^ doublings := by
  have step : 1 ≤ 2 ^ doublings := Nat.two_pow_pos doublings
  rcases Nat.lt_or_ge place binade with below | above
  · rw [units_of_lt_binade below]
    calc place < 2 ^ 53 := Nat.lt_trans below (by decide)
      _ ≤ 2 ^ 53 * 2 ^ doublings := Nat.le_mul_of_pos_right _ step
  · have low := Nat.mod_lt place (show 0 < binade by decide)
    have fewer : place / binade - 1 ≤ doublings := by omega
    rw [units_of_binade_le above]
    calc (binade + place % binade) * 2 ^ (place / binade - 1)
        < 2 ^ 53 * 2 ^ (place / binade - 1) :=
          Nat.mul_lt_mul_of_pos_right (Nat.add_lt_add_left low binade) (Nat.two_pow_pos _)
      _ ≤ 2 ^ 53 * 2 ^ doublings :=
          Nat.mul_le_mul_left _ (Nat.pow_le_pow_right (by decide) fewer)

/-- The exact expansion of a double reads back as it. -/
theorem readsBack_exactDecimal {double : Double} (positive : 0 < double.place) :
    ReadsBack double (exactDecimal double) := by
  have least := units_pos positive
  have place : placeOfDecimal (units double.place * Nat.pow 5 1074) (-1074) = double.place := by
    have ten : Nat.pow 10 (1073 + 1) = unitsOfOne * Nat.pow 5 1074 := by decide +kernel
    have exponent : (-1074 : Int) = .negSucc 1073 := rfl
    rw [exponent, placeOfDecimal, ten, nearestPlace_mul_right (by decide +kernel),
      nearestPlace_units]
  have digits : units double.place * Nat.pow 5 1074 ≠ 0 :=
    Nat.ne_of_gt (Nat.mul_pos least (by decide +kernel))
  have atLeast : ¬ decimalLength (units double.place * Nat.pow 5 1074) ≤ 743 := by
    rw [decimalLength_le_iff (by decide), Nat.not_lt]
    have fives : 10 ^ 743 ≤ Nat.pow 5 1074 := by decide +kernel
    exact Nat.le_trans fives (Nat.le_mul_of_pos_left _ least)
  have atMost : decimalLength (units double.place * Nat.pow 5 1074) ≤ 1384 := by
    rw [decimalLength_le_iff (by decide)]
    have binades : double.place / binade ≤ 2045 + 1 :=
      Nat.le_of_lt_succ (Nat.div_lt_of_lt_mul double.finite)
    have powers : 2 ^ 53 * 2 ^ 2045 * Nat.pow 5 1074 < 10 ^ 1384 := by decide +kernel
    have bound := Nat.mul_le_mul_right (Nat.pow 5 1074) (Nat.le_of_lt (units_lt binades))
    exact Nat.lt_of_le_of_lt bound powers
  have read := ofDecimal?_eq double.negative (units double.place * Nat.pow 5 1074) (-1074)
  generalize decimalLength (units double.place * Nat.pow 5 1074) = length at *
  rw [if_neg (by omega), if_neg (by omega), place, atPlace?, dif_pos double.finite] at read
  exact read

/-! ## The shortest decimal -/

theorem ofDecimal?_dropZeros (negative : Bool) (decimal : Decimal) :
    ofDecimal? negative decimal.dropZeros.digits decimal.dropZeros.exponent =
      ofDecimal? negative decimal.digits decimal.exponent := by
  fun_induction Decimal.dropZeros decimal with
  | case1 decimal divisible induction =>
      rw [induction, ← ofDecimal?_mul_ten, Nat.div_mul_cancel (Nat.dvd_of_mod_eq_zero divisible.1)]
  | case2 => rfl

theorem readsBack_search {double : Double} (positive : 0 < double.place) (tie : TieRule)
    (leading : Int) (remaining length : Nat) :
    ReadsBack double (search tie double leading remaining length) := by
  induction remaining generalizing length with
  | zero => exact readsBack_exactDecimal positive
  | succ remaining induction =>
      rw [search]
      split
      · next found =>
          have reads := List.find?_some found
          exact of_decide_eq_true reads
      · exact induction (length + 1)

/-- The decimal that is chosen for a double reads back as it. -/
theorem readsBack_shortest (tie : TieRule) (double : Double) :
    ReadsBack double (shortest tie double) := by
  rw [shortest]
  split
  · next least =>
      rcases double with ⟨negative, place, finite⟩
      cases least
      rfl
  · next positive =>
      rw [ReadsBack, ofDecimal?_dropZeros]
      exact readsBack_search (Nat.pos_of_ne_zero positive) tie _ 17 1

end Double
end ItemQuery
