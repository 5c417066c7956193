import ItemQuery.Json.Printer
import ItemQuery.Proofs.Rounding

/-!
The text of a double reads back as this double.

Positional text and text with an exponent both denote the decimal that they lay out, up to zeros
that move from the exponent to the digits (`Layout.unsignedDecimal?_decimal`), and the decimal of a
double is read as the double. Where whole numbers get a fraction, no such text is a whole numeral.
-/

namespace ItemQuery
namespace Numeral

variable {text whole fraction ending : List Char}

/-! ## Unsigned decimals -/

/-- What follows the digits of a decimal numeral: nothing, or an exponent. -/
def IsEnding (text : List Char) : Prop := text = [] ∨ ∃ exponent, text = 'e' :: exponent

theorem takeWhile_append_ending (digits : whole.all Char.isDigit) (ends : IsEnding ending) :
    (whole ++ ending).takeWhile Char.isDigit = whole := by
  rw [List.takeWhile_append_of_pos (List.all_eq_true.mp digits)]
  rcases ends with rfl | ⟨exponent, rfl⟩
  · simp
  · simp

theorem dropWhile_append_ending (digits : whole.all Char.isDigit) (ends : IsEnding ending) :
    (whole ++ ending).dropWhile Char.isDigit = ending := by
  rw [List.dropWhile_append_of_pos (List.all_eq_true.mp digits)]
  rcases ends with rfl | ⟨exponent, rfl⟩
  · rfl
  · simp

/-- Digits without a point, and what follows them. -/
theorem unsignedDecimal?_of_isDigits (isDigits : IsDigits whole) (ends : IsEnding ending) :
    unsignedDecimal? (whole ++ ending) =
      (exponent? ending).map fun exponent => (ofDigits whole, exponent) := by
  rw [unsignedDecimal?, takeWhile_append_ending isDigits.2 ends,
    dropWhile_append_ending isDigits.2 ends]
  rcases ends with rfl | ⟨exponent, rfl⟩
  · simp [isDigits.1]
  · simp [isDigits.1]

/-- Digits on both sides of a point, and what follows them. -/
theorem unsignedDecimal?_of_point (isDigits : IsDigits whole) (digits : fraction.all Char.isDigit)
    (ends : IsEnding ending) :
    unsignedDecimal? (whole ++ '.' :: (fraction ++ ending)) =
      (exponent? ending).map fun (exponent : Int) =>
        (ofDigits (whole ++ fraction), exponent - fraction.length) := by
  have wholeDigits : ∀ char ∈ whole, char.isDigit := List.all_eq_true.mp isDigits.2
  rw [unsignedDecimal?, List.takeWhile_append_of_pos wholeDigits,
    List.dropWhile_append_of_pos wholeDigits]
  simp [takeWhile_append_ending digits ends, dropWhile_append_ending digits ends, isDigits.1]

theorem head_of_unsignedDecimal? {result : Nat × Int} (read : unsignedDecimal? text = some result) :
    ∃ first rest, text = first :: rest ∧ (first.isDigit ∨ first = '.') := by
  cases text with
  | nil => cases read
  | cons first rest =>
      refine ⟨first, rest, rfl, ?_⟩
      apply Classical.byContradiction
      intro other
      rcases not_or.mp other with ⟨noDigit, noPoint⟩
      simp [unsignedDecimal?, noDigit, noPoint] at read

theorem toLower_of_isDigit {char : Char} (digit : char.isDigit) : char.toLower = char := by
  rw [Char.isDigit_iff_toNat] at digit
  apply dif_neg
  intro upper
  have order := Nat.le_trans (UInt32.le_iff_toNat_le.mp upper.1) digit.2
  exact absurd order (by decide)

/-- An unsigned decimal has no sign. -/
theorem splitSign_of_unsignedDecimal? {result : Nat × Int}
    (read : unsignedDecimal? text = some result) : splitSign text = (false, text) := by
  rcases head_of_unsignedDecimal? read with ⟨first, rest, rfl, head⟩
  rw [splitSign]
  · intro other same
    cases same
    exact absurd head (by decide)
  · intro other same
    cases same
    exact absurd head (by decide)

/-- An unsigned decimal is none of the words for what is not finite. -/
theorem special?_of_unsignedDecimal? {result : Nat × Int}
    (read : unsignedDecimal? text = some result) : special? text = none := by
  rcases head_of_unsignedDecimal? read with ⟨first, rest, rfl, head⟩
  have lower : first.toLower = first := by
    rcases head with digit | rfl
    · exact toLower_of_isDigit digit
    · decide
  have notI : first ≠ 'i' := by
    rintro rfl
    exact absurd head (by decide)
  have notN : first ≠ 'n' := by
    rintro rfl
    exact absurd head (by decide)
  simp [special?, lower, notI, notN]

theorem splitSign_append (negative : Bool) {result : Nat × Int}
    (read : unsignedDecimal? text = some result) :
    splitSign ((if negative then ['-'] else []) ++ text) = (negative, text) := by
  cases negative with
  | true => rfl
  | false => exact splitSign_of_unsignedDecimal? read

/-- A text with the sign of a double, and a decimal to which the double is nearest, reads as it. -/
theorem double?_of_unsignedDecimal? {number : Nat} {exponent : Int} {double : Double}
    (read : unsignedDecimal? text = some (number, exponent))
    (nearest : Double.ofDecimal? double.negative number exponent = some double) :
    double? ((if double.negative then ['-'] else []) ++ text) = some double := by
  simp [double?, extended?, splitSign_append double.negative read,
    special?_of_unsignedDecimal? read, read, Double.Extended.ofDecimal, nearest]

end Numeral

/-! ## The digits of a decimal -/

namespace Decimal

theorem isDigits_append_zeros (number zeros : Nat) :
    Numeral.IsDigits (Nat.toDigits 10 number ++ List.replicate zeros '0') := by
  have digits := Numeral.isDigits_toDigits number
  refine ⟨List.append_ne_nil_of_left_ne_nil digits.1 _, ?_⟩
  rw [List.all_append, digits.2, Bool.true_and, List.all_replicate]
  simp

theorem ofDigits_append_zeros (number zeros : Nat) :
    Numeral.ofDigits (Nat.toDigits 10 number ++ List.replicate zeros '0') =
      number * 10 ^ zeros := by
  have value := Numeral.ofDigits_toDigits number
  rw [Numeral.ofDigits] at value ⊢
  rw [Nat.ofDigitChars_append, value, Nat.ofDigitChars_replicate_zero, Nat.mul_comm]

/-- Zeros in front of the digits change nothing. -/
theorem ofDigits_zeros_append (number zeros : Nat) :
    Numeral.ofDigits (List.replicate zeros '0' ++ Nat.toDigits 10 number) = number := by
  rw [Numeral.ofDigits, Nat.ofDigitChars_append, Nat.ofDigitChars_replicate_zero, Nat.mul_zero]
  exact Numeral.ofDigits_toDigits number

/-- A point among the digits of a number. -/
theorem unsignedDecimal?_of_split {number : Nat} {whole fraction ending : List Char}
    (together : whole ++ fraction = Nat.toDigits 10 number) (nonempty : whole ≠ [])
    (ends : Numeral.IsEnding ending) :
    Numeral.unsignedDecimal? (whole ++ '.' :: (fraction ++ ending)) =
      (Numeral.exponent? ending).map fun (exponent : Int) =>
        (number, exponent - fraction.length) := by
  have digits := (Numeral.isDigits_toDigits number).2
  rw [← together, List.all_append, Bool.and_eq_true] at digits
  rw [Numeral.unsignedDecimal?_of_point ⟨nonempty, digits.1⟩ digits.2 ends, together,
    Numeral.ofDigits_toDigits]

/-- Zeros behind the digits count in the number. -/
theorem unsignedDecimal?_raised (number raise : Nat) :
    Numeral.unsignedDecimal? (Nat.toDigits 10 number ++ List.replicate raise '0') =
      some (number * 10 ^ raise, 0) := by
  have read := Numeral.unsignedDecimal?_of_isDigits (isDigits_append_zeros number raise) (.inl rfl)
  rw [List.append_nil, ofDigits_append_zeros] at read
  exact read

/-- The zero of a fraction counts in the number as well, behind the point as it is. -/
theorem unsignedDecimal?_raised_fraction (number raise : Nat) :
    Numeral.unsignedDecimal? (Nat.toDigits 10 number ++ List.replicate raise '0' ++ ['.', '0']) =
      some (number * 10 ^ (raise + 1), -1) := by
  have read := Numeral.unsignedDecimal?_of_point (isDigits_append_zeros number raise)
    (show ['0'].all Char.isDigit by decide) (.inl rfl)
  rw [List.append_assoc (Nat.toDigits 10 number) _ ['0'], ← List.replicate_succ',
    ofDigits_append_zeros] at read
  exact read

/-- A point before the last digits, some of which stand before it. -/
theorem unsignedDecimal?_lowered {number places : Nat}
    (fits : places < (Nat.toDigits 10 number).length) :
    Numeral.unsignedDecimal?
        ((Nat.toDigits 10 number).take ((Nat.toDigits 10 number).length - places) ++
          '.' :: (Nat.toDigits 10 number).drop ((Nat.toDigits 10 number).length - places)) =
      some (number, -(places : Int)) := by
  have whole : (Nat.toDigits 10 number).take ((Nat.toDigits 10 number).length - places) ≠ [] := by
    intro none
    rcases List.take_eq_nil_iff.mp none with short | none
    · omega
    · exact Nat.toDigits_ne_nil none
  have read := unsignedDecimal?_of_split (List.take_append_drop _ _) whole (.inl rfl)
  have behind : (Nat.toDigits 10 number).length - ((Nat.toDigits 10 number).length - places) =
      places := by
    omega
  rw [List.append_nil, List.length_drop, behind] at read
  refine read.trans ?_
  rw [Numeral.exponent?, Option.map_some, Int.zero_sub]

/-- Digits that begin behind the point, with or without zeros between. -/
theorem unsignedDecimal?_of_zeros (number zeros : Nat) :
    Numeral.unsignedDecimal? ('0' :: '.' :: (List.replicate zeros '0' ++ Nat.toDigits 10 number)) =
      some (number, -((zeros + (Nat.toDigits 10 number).length : Nat) : Int)) := by
  have fraction : (List.replicate zeros '0' ++ Nat.toDigits 10 number).all Char.isDigit := by
    rw [List.all_append, (Numeral.isDigits_toDigits number).2, Bool.and_true, List.all_replicate]
    simp
  have read := Numeral.unsignedDecimal?_of_point (show Numeral.IsDigits ['0'] by decide) fraction
    (.inl rfl)
  have value : Numeral.ofDigits (['0'] ++ (List.replicate zeros '0' ++ Nat.toDigits 10 number)) =
      number := ofDigits_zeros_append number (zeros + 1)
  rw [List.append_nil, value] at read
  refine read.trans ?_
  rw [List.length_append, List.length_replicate, Numeral.exponent?, Option.map_some, Int.zero_sub]

/-- Positional text denotes the decimal, up to zeros at the end of its digits. -/
theorem unsignedDecimal?_positional (fraction : Bool) (decimal : Decimal) :
    ∃ zeros : Nat, Numeral.unsignedDecimal? (decimal.positional fraction) =
      some (decimal.digits * 10 ^ zeros, decimal.exponent - zeros) := by
  rcases decimal with ⟨number, exponent⟩
  match exponent with
  | .ofNat raise =>
      cases fraction with
      | true =>
          have shifted : (-1 : Int) = raise - (raise + 1 : Nat) := by omega
          refine ⟨raise + 1, (unsignedDecimal?_raised_fraction number raise).trans ?_⟩
          rw [shifted]
          rfl
      | false =>
          have read := unsignedDecimal?_raised number raise
          have shifted : (0 : Int) = raise - raise := by omega
          rw [← List.append_nil (Nat.toDigits 10 number ++ List.replicate raise '0'), shifted] at read
          exact ⟨raise, read⟩
  | .negSucc lower =>
      refine ⟨0, ?_⟩
      rw [Nat.pow_zero, Nat.mul_one, Int.natCast_zero, Int.sub_zero, positional]
      simp only
      split
      · next fits => exact unsignedDecimal?_lowered fits
      · next above =>
          have places : -((lower + 1 - (Nat.toDigits 10 number).length +
              (Nat.toDigits 10 number).length : Nat) : Int) = .negSucc lower := by
            omega
          rw [unsignedDecimal?_of_zeros, places]

theorem integer?_exponent (exponent : Int) :
    Numeral.integer? ((if exponent < 0 then '-' else '+') :: Nat.toDigits 10 exponent.natAbs) =
      some exponent := by
  have value := Numeral.integer?_ofInteger exponent
  have isDigits := Numeral.isDigits_toDigits exponent.natAbs
  by_cases negative : exponent < 0
  · rw [Numeral.ofInteger, if_pos negative] at value
    rw [if_pos negative]
    exact value
  · -- A plus splits off and changes nothing.
    rw [Numeral.ofInteger, if_neg negative, List.nil_append, Numeral.integer?,
      Numeral.splitSign_of_isDigits isDigits] at value
    rw [if_neg negative]
    exact value

/-- Text with an exponent denotes the decimal. -/
theorem unsignedDecimal?_scientific (decimal : Decimal) :
    Numeral.unsignedDecimal? decimal.scientific = some (decimal.digits, decimal.exponent) := by
  have isDigits := Numeral.isDigits_toDigits decimal.digits
  have value := Numeral.ofDigits_toDigits decimal.digits
  have leading : decimal.leading =
      decimal.exponent + (Nat.toDigits 10 decimal.digits).length - 1 := rfl
  have ends : Numeral.IsEnding ('e' :: (if decimal.leading < 0 then '-' else '+') ::
      Nat.toDigits 10 decimal.leading.natAbs) := .inr ⟨_, rfl⟩
  have power : Numeral.exponent? ('e' :: (if decimal.leading < 0 then '-' else '+') ::
      Nat.toDigits 10 decimal.leading.natAbs) = some decimal.leading :=
    integer?_exponent decimal.leading
  rw [scientific]
  match known : Nat.toDigits 10 decimal.digits with
  | [] => exact absurd known isDigits.1
  | [only] =>
      rw [known] at isDigits value leading
      have read := Numeral.unsignedDecimal?_of_isDigits isDigits ends
      have place : decimal.leading = decimal.exponent := by simpa using leading
      rw [power, value, Option.map_some] at read
      refine read.trans ?_
      rw [place]
  | first :: second :: rest =>
      have together : [first] ++ (second :: rest) = Nat.toDigits 10 decimal.digits := known.symm
      have read := unsignedDecimal?_of_split together (List.cons_ne_nil first []) ends
      have place : decimal.leading - (second :: rest).length = decimal.exponent := by
        rw [leading, known, List.length_cons]
        omega
      rw [power, Option.map_some, place] at read
      exact read

end Decimal

/-! ## The text of a double -/

namespace Layout

/-- However a decimal is laid out, the text denotes it, up to zeros at the end of its digits. -/
theorem unsignedDecimal?_decimal (layout : Layout) (decimal : Decimal) :
    ∃ zeros : Nat, Numeral.unsignedDecimal? (layout.decimal decimal) =
      some (decimal.digits * 10 ^ zeros, decimal.exponent - zeros) := by
  have scientific : ∃ zeros : Nat, Numeral.unsignedDecimal? decimal.scientific =
      some (decimal.digits * 10 ^ zeros, decimal.exponent - zeros) :=
    ⟨0, by simp [Decimal.unsignedDecimal?_scientific]⟩
  rw [Layout.decimal]
  split
  · exact Decimal.unsignedDecimal?_positional layout.fraction decimal
  · split
    · exact Decimal.unsignedDecimal?_positional layout.fraction decimal
    · exact scientific

/-- The text of a double reads back as this double, in every layout. -/
theorem double?_double (layout : Layout) (double : Double) :
    Numeral.double? (layout.double double) = some double := by
  rcases layout.unsignedDecimal?_decimal (double.shortest layout.tie) with ⟨zeros, read⟩
  apply Numeral.double?_of_unsignedDecimal? read
  have back : Double.ReadsBack double (double.shortest layout.tie) :=
    Double.readsBack_shortest layout.tie double
  rw [Double.ofDecimal?_mul_pow, Int.sub_add_cancel]
  exact back

theorem not_isDigits_decimal {layout : Layout} (fraction : layout.fraction = true)
    (decimal : Decimal) : ¬ Numeral.IsDigits (layout.decimal decimal) := by
  have positional : '.' ∈ decimal.positional layout.fraction := by
    rw [fraction, Decimal.positional]
    split
    · simp
    · simp only
      split <;> simp
  have scientific : 'e' ∈ decimal.scientific := by
    rw [Decimal.scientific]
    simp
  intro isDigits
  have digits := List.all_eq_true.mp isDigits.2
  rw [Layout.decimal] at digits
  split at digits
  · exact absurd (digits '.' positional) (by decide)
  · split at digits
    · exact absurd (digits '.' positional) (by decide)
    · exact absurd (digits 'e' scientific) (by decide)

/-- Where whole numbers get a fraction, no double is written like an integer. -/
theorem integer?_double {layout : Layout} (fraction : layout.fraction = true) (double : Double) :
    Numeral.integer? (layout.double double) = none := by
  rcases layout.unsignedDecimal?_decimal (double.shortest layout.tie) with ⟨zeros, read⟩
  rw [Numeral.integer?, Layout.double, Numeral.splitSign_append double.negative read]
  exact if_neg (not_isDigits_decimal fraction _)

end Layout

end ItemQuery
