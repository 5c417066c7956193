import Mathlib.Algebra.Group.Nat.Defs
import ItemQuery.Proofs.Counting
import ItemQuery.Proofs.Embedding.LaterDraws

/-!
Tokens that two mints have in common.

The mint of the stem `p` issues `:p11` as its eleventh placeholder, and that of the stem `p1` as its
first. Two mints that count on their own have a token in common exactly when one stem is the other
with such digits behind it as a larger number can begin with (`Mint.exists_reaches_iff`).
`Mint.mayCollide` asks only whether one stem begins with the other, so it misses none of these
pairs, and it also holds of pairs whose tokens never meet, such as `p` and `p0`.
-/

namespace ItemQuery

/-! ## Digits in front of a numeral -/

namespace Numeral

variable {text digits : List Char}

theorem codes_of_isDigit {char : Char} (digit : char.isDigit) :
    48 ≤ char.toNat ∧ char.toNat ≤ 57 :=
  Char.isDigit_iff_toNat.mp digit

theorem digitChar_of_isDigit {char : Char} (digit : char.isDigit) :
    (char.toNat - 48).digitChar = char := by
  have codes := codes_of_isDigit digit
  apply Char.toNat_inj.mp
  rw [Nat.toNat_digitChar_of_lt_ten (by omega)]
  omega

/-- Digits behind the numeral of a number that is not zero make the numeral of a larger number. -/
theorem toDigits_append {number : Nat} (positive : 0 < number) (digits : text.all Char.isDigit) :
    Nat.toDigits 10 number ++ text = Nat.toDigits 10 (Nat.ofDigitChars 10 text number) := by
  induction text generalizing number with
  | nil => rw [List.append_nil, Nat.ofDigitChars_nil]
  | cons first rest induction =>
      rw [List.all_cons, Bool.and_eq_true] at digits
      have small : first.toNat - 48 < 10 := by
        have codes := codes_of_isDigit digits.1
        omega
      have one : Nat.toDigits 10 number ++ [first] =
          Nat.toDigits 10 (10 * number + (first.toNat - 48)) := by
        rw [← Nat.toDigits_append_toDigits (by decide) positive small,
          Nat.toDigits_of_lt_base small, digitChar_of_isDigit digits.1]
      rw [List.append_cons, one, induction (by omega) digits.2, Nat.ofDigitChars_cons]
      rfl

/-- Digits that do not begin with a zero are the numeral of the number that they denote. -/
theorem toDigits_ofDigits (isDigits : IsDigits text) (noZero : text.head? ≠ some '0') :
    Nat.toDigits 10 (ofDigits text) = text := by
  rcases isDigits with ⟨nonempty, digits⟩
  cases text with
  | nil => exact absurd rfl nonempty
  | cons first rest =>
      rw [List.all_cons, Bool.and_eq_true] at digits
      have codes := codes_of_isDigit digits.1
      have notZero : first.toNat ≠ 48 := by
        intro isZero
        exact noZero (congrArg some (Char.toNat_inj.mp isZero))
      have numeral : Nat.toDigits 10 (first.toNat - 48) = [first] := by
        rw [Nat.toDigits_of_lt_base (by omega), digitChar_of_isDigit digits.1]
      have together : Nat.toDigits 10 (first.toNat - 48) ++ rest = _ :=
        toDigits_append (by omega) digits.2
      rw [numeral] at together
      rw [ofDigits, Nat.ofDigitChars_cons, Nat.mul_zero, Nat.zero_add]
      exact together.symm

/-- A number that is not zero has a numeral that does not begin with a zero. -/
theorem head?_toDigits {number : Nat} (positive : 0 < number) :
    (Nat.toDigits 10 number).head? ≠ some '0' := by
  induction number using Nat.strongRecOn with
  | ind number induction =>
      by_cases small : number < 10
      · rw [Nat.toDigits_of_lt_base small, List.head?_cons]
        intro zero
        have isZero := Nat.digitChar_eq_zero.mp (Option.some.inj zero)
        omega
      · rw [Nat.toDigits_of_base_le (by decide) (Nat.le_of_not_lt small),
          List.head?_append_of_ne_nil _ Nat.toDigits_ne_nil]
        exact induction (number / 10) (by omega) (by omega)

theorem ofDigits_append_toDigits (digits : List Char) (number : Nat) :
    ofDigits (digits ++ Nat.toDigits 10 number) =
      10 ^ (Nat.toDigits 10 number).length * ofDigits digits + number := by
  have value := ofDigits_toDigits number
  rw [ofDigits] at value ⊢
  rw [Nat.ofDigitChars_append, Nat.ofDigitChars_eq_ofDigitChars_zero, value]
  rfl

/-- Whether a number of 64 bits can begin with these digits and go on with at least one more, and
with no digits at all in any case. -/
structure IsLead (digits : List Char) : Prop where
  all : digits.all Char.isDigit
  noZero : digits.head? ≠ some '0'
  fits : 10 * ofDigits digits + 1 < 2 ^ 64

theorem isLead_iff : IsLead digits ↔
    ∃ number larger, 0 < number ∧ larger < 2 ^ 64 ∧
      digits ++ Nat.toDigits 10 number = Nat.toDigits 10 larger := by
  constructor
  · intro lead
    -- The least number that begins with the digits goes on with a one.
    have isDigits : IsDigits (digits ++ ['1']) := by
      refine ⟨by simp, ?_⟩
      rw [List.all_append, lead.all]
      rfl
    have noZero : (digits ++ ['1']).head? ≠ some '0' := by
      cases digits with
      | nil => decide
      | cons first rest => exact lead.noZero
    have value : ofDigits (digits ++ ['1']) = 10 * ofDigits digits + 1 :=
      ofDigits_append_toDigits digits 1
    refine ⟨1, ofDigits (digits ++ ['1']), Nat.one_pos, ?_, ?_⟩
    · rw [value]
      exact lead.fits
    · exact (toDigits_ofDigits isDigits noZero).symm
  · rintro ⟨number, larger, positive, fits, together⟩
    have value : larger =
        10 ^ (Nat.toDigits 10 number).length * ofDigits digits + number := by
      rw [← ofDigits_append_toDigits, together, ofDigits_toDigits]
    have allDigits := (isDigits_toDigits larger).2
    rw [← together, List.all_append, Bool.and_eq_true] at allDigits
    refine ⟨allDigits.1, ?_, ?_⟩
    · intro zero
      have largerPositive : 0 < larger := by omega
      apply head?_toDigits largerPositive
      rw [← together, List.head?_append, zero]
      rfl
    · have atLeastTen : 10 ≤ 10 ^ (Nat.toDigits 10 number).length :=
        Nat.le_self_pow (Nat.ne_of_gt Nat.length_toDigits_pos) 10
      have scaled := Nat.mul_le_mul_right (ofDigits digits) atLeastTen
      omega

end Numeral

/-! ## Common tokens -/

namespace Mint

theorem sharesSequence_comm (first second : Mint) :
    first.sharesSequence second = second.sharesSequence first := by
  unfold sharesSequence
  cases first.source <;> cases second.source <;> simp [Bool.beq_comm]

theorem mayCollide_comm (first second : Mint) :
    first.mayCollide second = second.mayCollide first := by
  unfold mayCollide
  rw [sharesSequence_comm]
  cases first.source <;> cases second.source <;> simp [Bool.or_comm]

/-- Whether a mint issues a token before its counter has come to the end of 64 bits. -/
def Reaches (mint : Mint) (token : String) : Prop :=
  ∃ before placeholder after, mint.count before + 1 < 2 ^ 64 ∧
    mint.next.run before = .ok placeholder after ∧ placeholder.token = token

/-- Whether the stem of a mint is that of another with digits behind it that lead on to a number. -/
def Continues (mint other : Mint) : Prop :=
  ∃ digits, Numeral.IsLead digits ∧ mint.stem.toList = other.stem.toList ++ digits

variable {first second mint : Mint} {sequence other : Nat}

theorem reaches_iff (onSequence : mint.source = .sequence sequence) {token : String} :
    mint.Reaches token ↔
      ∃ number, 0 < number ∧ number < 2 ^ 64 ∧ (mint.numbered number).token = token := by
  constructor
  · rintro ⟨before, placeholder, after, fits, issued, named⟩
    rw [count_of_sequence onSequence] at fits
    rw [run_next_of_sequence onSequence] at issued
    cases issued
    exact ⟨before.issued sequence + 1, Nat.succ_pos _, fits, named⟩
  · rintro ⟨number, positive, fits, named⟩
    -- A supply from which one placeholder less has been taken.
    let before : Supply := { Supply.initial toString with issued := fun _ => number - 1 }
    have stands : before.issued sequence + 1 = number := Nat.sub_add_cancel positive
    refine ⟨before, mint.numbered number, before.advance sequence, ?_, ?_, named⟩
    · rw [count_of_sequence onSequence, stands]
      exact fits
    · rw [run_next_of_sequence onSequence, stands]

theorem token_numbered_eq_iff {number count : Nat} :
    (first.numbered number).token = (second.numbered count).token ↔
      first.stem.toList ++ Nat.toDigits 10 number =
        second.stem.toList ++ Nat.toDigits 10 count := by
  simp [Placeholder.token, numbered, ← String.toList_inj, Nat.toString_eq_repr, Nat.toList_repr]

/-- A longer stem that goes on with a lead meets the shorter one. -/
theorem exists_token_eq_of_continues (continues : second.Continues first) :
    ∃ number count, 0 < number ∧ number < 2 ^ 64 ∧ 0 < count ∧ count < 2 ^ 64 ∧
      (first.numbered number).token = (second.numbered count).token := by
  rcases continues with ⟨digits, lead, stem⟩
  rcases Numeral.isLead_iff.mp lead with ⟨count, number, positive, fits, together⟩
  have below : count ≤ number := by
    have value := Numeral.ofDigits_append_toDigits digits count
    rw [together, Numeral.ofDigits_toDigits] at value
    omega
  refine ⟨number, count, by omega, fits, positive, by omega, ?_⟩
  rw [token_numbered_eq_iff, stem, List.append_assoc, together]

/-- Mints on sequences have a token in common exactly when the stem of one continues that of the
other. -/
theorem exists_reaches_iff (onSequence : first.source = .sequence sequence)
    (otherOnSequence : second.source = .sequence other) :
    (∃ token, first.Reaches token ∧ second.Reaches token) ↔
      second.Continues first ∨ first.Continues second := by
  simp only [reaches_iff onSequence, reaches_iff otherOnSequence]
  constructor
  · rintro ⟨token, ⟨number, positive, fits, rfl⟩, count, countPositive, countFits, same⟩
    rw [token_numbered_eq_iff] at same
    rcases List.append_eq_append_iff.mp same with ⟨digits, stem, rest⟩ | ⟨digits, stem, rest⟩
    · exact .inr ⟨digits, Numeral.isLead_iff.mpr ⟨number, count, positive, countFits, rest.symm⟩,
        stem⟩
    · exact .inl ⟨digits, Numeral.isLead_iff.mpr ⟨count, number, countPositive, fits, rest.symm⟩,
        stem⟩
  · rintro (continues | continues)
    · rcases exists_token_eq_of_continues continues with
        ⟨number, count, positive, fits, countPositive, countFits, same⟩
      exact ⟨_, ⟨number, positive, fits, rfl⟩, count, countPositive, countFits, same.symm⟩
    · rcases exists_token_eq_of_continues continues with
        ⟨count, number, countPositive, countFits, positive, fits, same⟩
      exact ⟨_, ⟨number, positive, fits, rfl⟩, count, countPositive, countFits, same⟩

theorem mayCollide_eq_true_iff (onSequence : first.source = .sequence sequence)
    (otherOnSequence : second.source = .sequence other) (separate : sequence ≠ other) :
    first.mayCollide second = true ↔
      first.stem.toList <+: second.stem.toList ∨ second.stem.toList <+: first.stem.toList := by
  simp [mayCollide, sharesSequence, onSequence, otherOnSequence, separate]

theorem mayCollide_self (mint : Mint) : mint.mayCollide mint = false := by
  unfold mayCollide sharesSequence
  cases mint.source <;> simp

/-- Mints with counters of their own never issue the same token if they may not collide. They do so
at some time exactly if the stem of one continues that of the other, and then they may collide,
asked in either direction. A mint does not collide with itself, and whatever a session draws from it
and from its clones differs. -/
theorem exists_reaches_iff_and_mayCollide (onSequence : first.source = .sequence sequence)
    (otherOnSequence : second.source = .sequence other) (separate : sequence ≠ other) :
    first.mayCollide second = second.mayCollide first ∧
    (first.mayCollide second = false →
      ∀ token, first.Reaches token → ∀ issued, second.Reaches issued → token ≠ issued) ∧
    ((∃ token, first.Reaches token ∧ second.Reaches token) ↔
      second.Continues first ∨ first.Continues second) ∧
    (second.Continues first ∨ first.Continues second → first.mayCollide second = true) ∧
    first.mayCollide first = false ∧
    ∀ permitted (stage : Stage), stage.InSession permitted → stage.Has first →
      (stage.names first).Nodup := by
  refine ⟨first.mayCollide_comm second, ?_, exists_reaches_iff onSequence otherOnSequence, ?_,
    first.mayCollide_self, ?_⟩
  · intro cannotCollide token reaches issued otherReaches
    rcases (reaches_iff onSequence).mp reaches with ⟨number, _, _, rfl⟩
    rcases (reaches_iff otherOnSequence).mp otherReaches with ⟨count, _, _, rfl⟩
    have apart : first.sharesSequence second = false := by
      simp [sharesSequence, onSequence, otherOnSequence, separate]
    exact token_ne_of_apart onSequence otherOnSequence apart cannotCollide number count
  · rw [mayCollide_eq_true_iff onSequence otherOnSequence separate]
    rintro (⟨digits, _, stem⟩ | ⟨digits, _, stem⟩)
    · exact .inl ⟨digits, stem.symm⟩
    · exact .inr ⟨digits, stem.symm⟩
  · intro permitted stage session has
    rw [session.numbered.names first has sequence onSequence]
    exact first.nodup_firstNames _

/-- A mint is opened with the default stem and cloned, and each of the two is drawn from. -/
def clonesStage : Stage :=
  (Stage.start fun _ => "").afterActs
    [.call (.openMint .default), .clone (.mint ⟨"p", .sequence 0⟩),
      .call (.discard ⟨"p", .sequence 0⟩), .call (.discard ⟨"p", .sequence 0⟩)]

/-- The stems `p` and `p12` meet in `:p121`, and `p` and `p0` never meet, though they may collide as
well as `p` and `p12`. -/
theorem exists_reaches_iff_and_mayCollide_of_digits :
    (∃ token, Reaches ⟨"p", .sequence 0⟩ token ∧ Reaches ⟨"p12", .sequence 1⟩ token) ∧
      mayCollide ⟨"p", .sequence 0⟩ ⟨"p12", .sequence 1⟩ = true ∧
      (¬ ∃ token, Reaches ⟨"p", .sequence 0⟩ token ∧ Reaches ⟨"p0", .sequence 1⟩ token) ∧
      mayCollide ⟨"p", .sequence 0⟩ ⟨"p0", .sequence 1⟩ = true ∧
      clonesStage.made.length = 4 ∧ (clonesStage.names ⟨"p", .sequence 0⟩).Nodup := by
  have continues : Continues ⟨"p12", .sequence 1⟩ ⟨"p", .sequence 0⟩ :=
    ⟨['1', '2'], ⟨by decide, by decide, by decide⟩, by decide⟩
  have session : clonesStage.InSession fun _ => True :=
    .afterActs _ (.start _) (by simp) (by decide)
  have has : clonesStage.Has ⟨"p", .sequence 0⟩ := ⟨.mint ⟨"p", .sequence 0⟩, by decide, rfl⟩
  rcases @exists_reaches_iff_and_mayCollide ⟨"p", .sequence 0⟩ ⟨"p12", .sequence 1⟩ 0 1 rfl rfl
    (by decide) with ⟨_, _, meets, collide, _, draws⟩
  rcases @exists_reaches_iff_and_mayCollide ⟨"p", .sequence 0⟩ ⟨"p0", .sequence 1⟩ 0 1 rfl rfl
    (by decide) with ⟨_, _, neverMeets, _⟩
  refine ⟨meets.mpr (.inl continues), collide (.inl continues), ?_, by decide, by decide,
    draws _ clonesStage session has⟩
  rw [neverMeets]
  rintro (⟨digits, lead, stem⟩ | ⟨digits, _, stem⟩)
  · cases digits with
    | nil => exact absurd stem (by decide)
    | cons first rest =>
        have whole : ['p'] ++ ['0'] = ['p'] ++ first :: rest := stem
        injection List.append_cancel_left whole with same
        exact lead.noZero (congrArg some same.symm)
  · have lengths : 1 = 2 + digits.length := by simpa using congrArg List.length stem
    omega

end Mint

end ItemQuery
