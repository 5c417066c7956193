import ItemQuery.Proofs.Unmarshaling

/-!
Which texts of numbers are read as whole numbers.

A text denotes a whole number if it consists of digits, with or without a sign before them
(`Numeral.Denotes`). Unmarshaling gives exactly this number where it fits in 64 bits, with or
without a sign, and never a whole number otherwise (`Marshaler.number_eq_ofInteger_iff`).

A program that has only words of 64 bits reads the text twice, as a number with a sign and then as
one without, and gives up at the first digit that leaves the width (`Numeral.Width.read?`). This
comes to the same (`Marshaler.number_eq_numberInWidths`): digits move a number away from zero, so
that the last sum is the one that lies farthest out.
-/

namespace ItemQuery

namespace Numeral

/-! ## What a text denotes -/

/-- Whether a text is the numeral of a whole number. -/
inductive Denotes : List Char → Int → Prop
  | plain {digits : List Char} (isDigits : IsDigits digits) : Denotes digits (ofDigits digits)
  | plus {digits : List Char} (isDigits : IsDigits digits) :
      Denotes ('+' :: digits) (ofDigits digits)
  | minus {digits : List Char} (isDigits : IsDigits digits) :
      Denotes ('-' :: digits) (-(ofDigits digits : Int))

variable {text digits : List Char} {value : Int}

theorem integer?_eq_some_iff : integer? text = some value ↔ Denotes text value := by
  constructor
  · intro read
    rw [integer?] at read
    split at read
    next negative digits signSplit =>
      rcases Option.ite_none_right_eq_some.mp read with ⟨isDigits, found⟩
      cases Option.some.inj found
      unfold splitSign at signSplit
      split at signSplit
      · cases signSplit
        exact .minus isDigits
      · cases signSplit
        exact .plus isDigits
      · cases signSplit
        exact .plain isDigits
  · intro denotes
    cases denotes with
    | plain isDigits => simp [integer?, splitSign_of_isDigits isDigits, isDigits, applySign]
    | plus isDigits | minus isDigits => simp [integer?, splitSign, isDigits, applySign]

theorem Denotes.unique {other : Int} (denotes : Denotes text value)
    (again : Denotes text other) : value = other := by
  rw [← integer?_eq_some_iff] at denotes again
  exact Option.some.inj (denotes.symm.trans again)

/-! ## Reading in a width -/

/-- The whole numbers that a machine word holds. -/
structure Width where
  least : Int
  greatest : Int
  holdsZero : least ≤ 0 ∧ 0 ≤ greatest

namespace Width

/-- 64 bits of which one is the sign. -/
def signed : Width := ⟨-0x8000000000000000, 0x7fffffffffffffff, by decide⟩

/-- 64 bits without a sign. -/
def unsigned : Width := ⟨0, 0xffffffffffffffff, by decide⟩

def Holds (width : Width) (value : Int) : Prop := width.least ≤ value ∧ value ≤ width.greatest

instance (width : Width) (value : Int) : Decidable (width.Holds value) :=
  inferInstanceAs (Decidable (_ ∧ _))

def check? (width : Width) (value : Int) : Option Int :=
  if width.Holds value then some value else none

/-- Append a digit to a number, away from zero. Both the product and the sum have to fit. -/
def step? (width : Width) (negative : Bool) (sum : Int) (char : Char) : Option Int :=
  if char.isDigit then do
    let shifted ← width.check? (10 * sum)
    width.check? (shifted + applySign negative (char.toNat - 48))
  else none

def digits? (width : Width) (negative : Bool) (digits : List Char) : Option Int :=
  if digits = [] then none else digits.foldlM (width.step? negative) 0

/-- Read a numeral. A minus is a sign only where the width has negative numbers. -/
def read? (width : Width) : List Char → Option Int
  | '-' :: digits => if width.least < 0 then width.digits? true digits else none
  | '+' :: digits => width.digits? false digits
  | digits => width.digits? false digits

variable {width : Width} {negative : Bool}

theorem check?_eq_some_iff {sum : Int} :
    width.check? sum = some value ↔ sum = value ∧ width.Holds value := by
  rw [check?, Option.ite_none_right_eq_some, and_comm, Option.some.injEq]
  constructor
  · rintro ⟨rfl, holds⟩
    exact ⟨rfl, holds⟩
  · rintro ⟨rfl, holds⟩
    exact ⟨rfl, holds⟩

/-- What lies nearer to zero fits as well. -/
theorem Holds.nearer {smaller larger : Nat} (holds : width.Holds (applySign negative larger))
    (nearer : smaller ≤ larger) : width.Holds (applySign negative smaller) := by
  have zero := width.holdsZero
  unfold Holds applySign at *
  cases negative
  · simp only [Bool.false_eq_true, if_false] at *
    omega
  · simp only [if_true] at *
    omega

theorem step?_eq_some_iff {magnitude : Nat} {char : Char} {next : Int} :
    width.step? negative (applySign negative magnitude) char = some next ↔
      char.isDigit ∧ next = applySign negative (10 * magnitude + (char.toNat - 48)) ∧
        width.Holds next := by
  have shifted : 10 * applySign negative magnitude = applySign negative (10 * magnitude) := by
    unfold applySign
    split <;> omega
  have summed : applySign negative (10 * magnitude) + applySign negative (char.toNat - 48) =
      applySign negative (10 * magnitude + (char.toNat - 48)) := by
    unfold applySign
    split <;> omega
  rw [step?, Option.ite_none_right_eq_some]
  simp only [Option.bind_eq_bind, Option.bind_eq_some_iff, check?_eq_some_iff, shifted]
  constructor
  · rintro ⟨digit, _, ⟨rfl, _⟩, same, holds⟩
    exact ⟨digit, by rw [← same, summed], holds⟩
  · rintro ⟨digit, rfl, holds⟩
    exact ⟨digit, _, ⟨rfl, holds.nearer (Nat.le_add_right _ _)⟩, summed, holds⟩

/-- A sum of digits is found exactly where it fits itself. -/
theorem foldlM_step?_eq_some_iff {magnitude : Nat}
    (start : width.Holds (applySign negative magnitude)) :
    digits.foldlM (width.step? negative) (applySign negative magnitude) = some value ↔
      digits.all Char.isDigit ∧ value = applySign negative (Nat.ofDigitChars 10 digits magnitude) ∧
        width.Holds value := by
  induction digits generalizing magnitude with
  | nil =>
      rw [List.foldlM_nil, Nat.ofDigitChars_nil]
      constructor
      · intro read
        cases read
        exact ⟨rfl, rfl, start⟩
      · rintro ⟨_, rfl, _⟩
        rfl
  | cons first rest induction =>
      rw [List.foldlM_cons, List.all_cons, Bool.and_eq_true, Nat.ofDigitChars_cons]
      simp only [Option.bind_eq_bind, Option.bind_eq_some_iff, step?_eq_some_iff]
      constructor
      · rintro ⟨_, ⟨digit, rfl, holds⟩, read⟩
        rcases (induction holds).mp read with ⟨digits, same, within⟩
        exact ⟨⟨digit, digits⟩, same, within⟩
      · rintro ⟨⟨digit, digits⟩, rfl, holds⟩
        -- The sums on the way lie between zero and the last one.
        have farther : 10 * magnitude + (first.toNat - 48) ≤
            Nat.ofDigitChars 10 rest (10 * magnitude + (first.toNat - 48)) := by
          rw [Nat.ofDigitChars_eq_ofDigitChars_zero]
          exact Nat.le_add_right_of_le (Nat.le_mul_of_pos_left _ (Nat.pow_pos (by decide)))
        have next := holds.nearer farther
        exact ⟨_, ⟨digit, rfl, next⟩, (induction next).mpr ⟨digits, rfl, holds⟩⟩

theorem digits?_eq_some_iff : width.digits? negative digits = some value ↔
    IsDigits digits ∧ value = applySign negative (ofDigits digits) ∧ width.Holds value := by
  have zero : applySign negative 0 = 0 := by cases negative <;> rfl
  have start : width.Holds (applySign negative 0) := by
    rw [zero]
    exact width.holdsZero
  have sums := @foldlM_step?_eq_some_iff digits value width negative 0 start
  rw [zero] at sums
  rw [digits?, Option.ite_none_left_eq_some, sums, IsDigits, and_assoc]
  rfl

/-- A width reads the numerals of the numbers that it holds, those with a minus only if it has
negative numbers. -/
theorem read?_eq_some_iff : width.read? text = some value ↔
    Denotes text value ∧ width.Holds value ∧ (width.least < 0 ∨ text.head? ≠ some '-') := by
  constructor
  · intro read
    unfold read? at read
    split at read
    · rcases Option.ite_none_right_eq_some.mp read with ⟨negatives, read⟩
      rcases digits?_eq_some_iff.mp read with ⟨isDigits, rfl, holds⟩
      exact ⟨.minus isDigits, holds, .inl negatives⟩
    · rcases digits?_eq_some_iff.mp read with ⟨isDigits, rfl, holds⟩
      exact ⟨.plus isDigits, holds, .inr (by simp)⟩
    · next noMinus _ =>
        rcases digits?_eq_some_iff.mp read with ⟨isDigits, rfl, holds⟩
        refine ⟨.plain isDigits, holds, .inr ?_⟩
        intro minus
        rcases List.head?_eq_some_iff.mp minus with ⟨rest, rfl⟩
        exact noMinus rest rfl
  · rintro ⟨denotes, holds, sign⟩
    cases denotes with
    | plus isDigits => exact digits?_eq_some_iff.mpr ⟨isDigits, rfl, holds⟩
    | minus isDigits =>
        have negatives : width.least < 0 := sign.resolve_right fun other => other rfl
        rw [read?, if_pos negatives]
        exact digits?_eq_some_iff.mpr ⟨isDigits, rfl, holds⟩
    | plain isDigits =>
        have read : width.digits? false text = some (ofDigits text : Int) :=
          digits?_eq_some_iff.mpr ⟨isDigits, rfl, holds⟩
        unfold read?
        split
        · exact absurd isDigits.2 (by simp)
        · exact absurd isDigits.2 (by simp)
        · exact read

/-- The two widths together read the numerals of all numbers that one of them holds. Numbers that
only the width without sign holds have no minus. -/
theorem or_read?_eq_some_iff :
    (signed.read? text).or (unsigned.read? text) = some value ↔
      Denotes text value ∧ -0x8000000000000000 ≤ value ∧ value < 0x10000000000000000 := by
  have bySign : ∀ {number}, signed.read? text = some number ↔
      Denotes text number ∧ -0x8000000000000000 ≤ number ∧ number ≤ 0x7fffffffffffffff := by
    intro number
    rw [read?_eq_some_iff]
    simp [Holds, signed]
  have without : ∀ {number}, unsigned.read? text = some number ↔
      Denotes text number ∧ (0 ≤ number ∧ number ≤ 0xffffffffffffffff) ∧
        text.head? ≠ some '-' := by
    intro number
    rw [read?_eq_some_iff]
    simp [Holds, unsigned]
  rw [Option.or_eq_some_iff, bySign, without]
  constructor
  · rintro (⟨denotes, range⟩ | ⟨_, denotes, range, _⟩)
    · exact ⟨denotes, by omega⟩
    · exact ⟨denotes, by omega⟩
  · rintro ⟨denotes, least, greatest⟩
    by_cases small : value ≤ 0x7fffffffffffffff
    · exact .inl ⟨denotes, least, small⟩
    · refine .inr ⟨?_, denotes, by omega, ?_⟩
      · rw [Option.eq_none_iff_forall_ne_some]
        intro number read
        rcases bySign.mp read with ⟨again, _, inSign⟩
        have same := denotes.unique again
        omega
      · cases denotes with
        | plain isDigits =>
            intro minus
            rcases List.head?_eq_some_iff.mp minus with ⟨rest, rfl⟩
            exact absurd isDigits.2 (by simp)
        | plus => simp
        | minus => omega

end Width

end Numeral

/-! ## Numbers in JSON -/

theorem Json.Integer.ofInt?_eq_some_iff {value : Int} {integer : Json.Integer} :
    Json.Integer.ofInt? value = some integer ↔ integer.value = value := by
  constructor
  · intro fits
    unfold Json.Integer.ofInt? at fits
    split at fits
    · cases fits
      rfl
    · cases fits
  · rintro rfl
    exact Json.Integer.ofInt?_value integer

namespace Marshaler

/-- What a number is read as that is tried in two widths, and as a double when neither holds it. -/
def numberInWidths (text : String) : Json :=
  match ((Numeral.Width.signed.read? text.toList).or
      (Numeral.Width.unsigned.read? text.toList)).bind Json.Integer.ofInt? with
  | some integer => .ofInteger integer
  | none =>
      match Numeral.double? text.toList with
      | some double => .number (.double double)
      | none => .string text

variable {marshaler : Marshaler} {text : String}

theorem integer_of_widths (text : List Char) :
    ((Numeral.Width.signed.read? text).or (Numeral.Width.unsigned.read? text)).bind
        Json.Integer.ofInt? =
      (Numeral.integer? text).bind Json.Integer.ofInt? := by
  ext integer
  simp only [Option.bind_eq_some_iff, Numeral.Width.or_read?_eq_some_iff,
    Numeral.integer?_eq_some_iff, Json.Integer.ofInt?_eq_some_iff]
  constructor
  · rintro ⟨value, ⟨denotes, _⟩, same⟩
    exact ⟨value, denotes, same⟩
  · rintro ⟨_, denotes, rfl⟩
    exact ⟨integer.value, ⟨denotes, integer.inRange⟩, rfl⟩

theorem number_eq_numberInWidths (unwrapped : marshaler.wrapNumbers = false) (text : String) :
    marshaler.number text = numberInWidths text := by
  rw [number, unwrapped, numberInWidths, integer_of_widths]
  rfl

theorem number_eq_ofInteger_iff (unwrapped : marshaler.wrapNumbers = false)
    {integer : Json.Integer} :
    marshaler.number text = .ofInteger integer ↔ Numeral.Denotes text.toList integer.value := by
  have reads : (Numeral.integer? text.toList).bind Json.Integer.ofInt? = some integer ↔
      Numeral.Denotes text.toList integer.value := by
    simp [Option.bind_eq_some_iff, Numeral.integer?_eq_some_iff, Json.Integer.ofInt?_eq_some_iff]
  rw [← reads, number, unwrapped, if_neg Bool.false_ne_true]
  cases (Numeral.integer? text.toList).bind Json.Integer.ofInt? with
  | some found => simp [Json.ofInteger]
  | none => cases Numeral.double? text.toList <;> simp [Json.ofInteger]

/-- A number that is no whole number of 64 bits is a double, or stays the text that it was. -/
theorem number_cases (unwrapped : marshaler.wrapNumbers = false) (text : String) :
    (∃ integer, marshaler.number text = .ofInteger integer) ∨
      (∃ double, marshaler.number text = .number (.double double)) ∨
      marshaler.number text = .string text := by
  rw [number, unwrapped, if_neg Bool.false_ne_true]
  cases (Numeral.integer? text.toList).bind Json.Integer.ofInt? with
  | some integer => exact .inl ⟨integer, rfl⟩
  | none =>
      cases Numeral.double? text.toList with
      | some double => exact .inr (.inl ⟨double, rfl⟩)
      | none => exact .inr (.inr rfl)

/-- Unless numbers are wrapped, the text of a number is read as a whole number of 64 bits exactly
where it denotes this number, as if it were tried in two widths, and is otherwise a finite double or
the text itself. The members of a set are read alike. A whole number that was made an attribute
value, with or without being marshaled, has a text that denotes it, and comes back. -/
theorem unmarshal_eq_ofInteger_iff_denotes (unwrapped : marshaler.wrapNumbers = false) :
    (∀ (text : String) (integer : Json.Integer),
      marshaler.unmarshal (.number text) = .ofInteger integer ↔
        Numeral.Denotes text.toList integer.value) ∧
    (∀ text : String, (∀ integer : Json.Integer, ¬ Numeral.Denotes text.toList integer.value) →
      (∃ double, marshaler.unmarshal (.number text) = .number (.double double)) ∨
        marshaler.unmarshal (.number text) = .string text) ∧
    (∀ text : String, marshaler.unmarshal (.number text) = numberInWidths text) ∧
    (∀ members : List String, marshaler.unmarshal (.numberSet members) =
      .array (members.map fun text => marshaler.unmarshal (.number text))) ∧
    ∀ integer : Json.Integer,
      marshaler.unmarshal (.ofInteger integer.value) = .ofInteger integer ∧
      ∃ text : String, AttributeValue.marshal (.integer integer.value) = .ok (.number text) ∧
        AttributeValue.ofInteger integer.value = .number text ∧
        Numeral.Denotes text.toList integer.value := by
  have denotes (integer : Json.Integer) :
      Numeral.Denotes (String.ofList (Numeral.ofInteger integer.value)).toList integer.value := by
    rw [String.toList_ofList, ← Numeral.integer?_eq_some_iff]
    exact Numeral.integer?_ofInteger integer.value
  refine ⟨fun text integer => number_eq_ofInteger_iff unwrapped, ?_,
    number_eq_numberInWidths unwrapped, fun members => rfl, ?_⟩
  · intro text noInteger
    refine (number_cases unwrapped text).resolve_left ?_
    rintro ⟨integer, read⟩
    exact noInteger integer ((number_eq_ofInteger_iff unwrapped).mp read)
  · intro integer
    refine ⟨(number_eq_ofInteger_iff unwrapped).mpr (denotes integer), _, ?_, rfl,
      denotes integer⟩
    rw [AttributeValue.marshal, Native.toJson?, Json.Integer.ofInt?_value]
    rfl

/-- The greatest number with a plus and a zero in front, the least one, and the numbers next to them
that no longer fit. A lone sign stays a text. -/
theorem unmarshal_eq_ofInteger_iff_denotes_of_limits :
    unmarshal ⟨false⟩ (.number "+018446744073709551615") =
        .ofInteger ⟨0xffffffffffffffff, by decide⟩ ∧
      unmarshal ⟨false⟩ (.number "-9223372036854775808") =
        .ofInteger ⟨-0x8000000000000000, by decide⟩ ∧
      unmarshal ⟨false⟩ (.number "-0") = .ofInteger ⟨0, by decide⟩ ∧
      (∀ integer, unmarshal ⟨false⟩ (.number "18446744073709551616") ≠ .ofInteger integer) ∧
      (∀ integer, unmarshal ⟨false⟩ (.number "-9223372036854775809") ≠ .ofInteger integer) ∧
      unmarshal ⟨false⟩ (.number "+") = .string "+" := by
  rcases @unmarshal_eq_ofInteger_iff_denotes ⟨false⟩ rfl with ⟨integers, _, widths, _, _⟩
  have beyond {text : String} {value : Int} (denotes : Numeral.Denotes text.toList value)
      (outside : ¬ (-0x8000000000000000 ≤ value ∧ value < 0x10000000000000000))
      (integer : Json.Integer) : unmarshal ⟨false⟩ (.number text) ≠ .ofInteger integer := by
    intro read
    have same := ((integers text integer).mp read).unique denotes
    exact outside (same ▸ integer.inRange)
  refine ⟨(integers _ _).mpr (@Numeral.Denotes.plus "018446744073709551615".toList (by decide)),
    (integers _ _).mpr (@Numeral.Denotes.minus "9223372036854775808".toList (by decide)),
    (integers _ _).mpr (@Numeral.Denotes.minus ['0'] (by decide)), ?_, ?_, ?_⟩
  · exact beyond (@Numeral.Denotes.plain "18446744073709551616".toList (by decide)) (by decide)
  · exact beyond (@Numeral.Denotes.minus "9223372036854775809".toList (by decide)) (by decide)
  · rw [widths]
    decide

end Marshaler

end ItemQuery
