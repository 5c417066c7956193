import ItemQuery.Predicate
import Mathlib.Data.List.Nodup

/-!
What computations draw.

An issue is a placeholder together with the mint it came from and the value it was drawn for.
`Mint.Issues` says which issues lie between two supplies. A mint issues the placeholders that it can
issue one after the other and leaves none out (`Mint.nth`, `Mint.Issues.placeholders_eq`). Where no
two of them are the same, none is issued twice (`Mint.Issues.nodup`).
-/

namespace ItemQuery

/-! ## Running -/

namespace Draw

@[simp] theorem run_throw (error : QueryError) (supply : Supply) :
    (throw error : Draw α).run supply = .error error supply := rfl

@[simp] theorem run_map (transform : α → β) (action : Draw α) (supply : Supply) :
    (transform <$> action).run supply =
      match action.run supply with
      | .ok value after => .ok (transform value) after
      | .error error after => .error error after := by
  rw [← bind_pure_comp, EStateM.run_bind]
  cases action.run supply <;> rfl

theorem run_map_eq_ok {transform : α → β} {action : Draw α} {supply after : Supply} {value : β} :
    (transform <$> action).run supply = .ok value after ↔
      ∃ made, action.run supply = .ok made after ∧ transform made = value := by
  rw [run_map]
  cases action.run supply with
  | error error middle => simp
  | ok made middle =>
      simp only [EStateM.Result.ok.injEq]
      constructor
      · rintro ⟨equal, rfl⟩
        exact ⟨made, ⟨rfl, rfl⟩, equal⟩
      · rintro ⟨_, ⟨rfl, rfl⟩, equal⟩
        exact ⟨equal, rfl⟩

theorem run_bind_eq_ok {action : Draw α} {next : α → Draw β} {supply after : Supply} {value : β} :
    (action >>= next).run supply = .ok value after ↔
      ∃ first middle, action.run supply = .ok first middle ∧
        (next first).run middle = .ok value after := by
  rw [EStateM.run_bind]
  cases action.run supply with
  | error error middle => simp
  | ok first middle =>
      constructor
      · exact fun finished => ⟨first, middle, rfl, finished⟩
      · rintro ⟨_, _, equal, finished⟩
        injection equal with sameValue sameSupply
        rwa [sameValue, sameSupply]

@[simp] theorem run_ofExcept_eq_ok {result : Except QueryError α} {supply after : Supply}
    {value : α} :
    (ofExcept result).run supply = .ok value after ↔ result = .ok value ∧ supply = after := by
  cases result with
  | error error => simp [ofExcept]
  | ok held =>
      change EStateM.Result.ok held supply = .ok value after ↔ _
      simp

@[simp] theorem run_ofMarshal_eq_ok {result : Except MarshalError α} {supply after : Supply}
    {value : α} :
    (ofMarshal result).run supply = .ok value after ↔ result = .ok value ∧ supply = after := by
  cases result with
  | error error => simp [ofMarshal]
  | ok held =>
      change EStateM.Result.ok held supply = .ok value after ↔ _
      simp

/-- The supply that a computation leaves behind, whether it succeeds or fails. -/
def supplyAfter (action : Draw α) (supply : Supply) : Supply :=
  match action.run supply with
  | .ok _ after => after
  | .error _ after => after

theorem supplyAfter_of_ok {action : Draw α} {supply after : Supply} {value : α}
    (succeeds : action.run supply = .ok value after) : action.supplyAfter supply = after := by
  simp [supplyAfter, succeeds]

@[simp] theorem supplyAfter_ofExcept (result : Except QueryError α) (supply : Supply) :
    (ofExcept result).supplyAfter supply = supply := by
  cases result <;> rfl

@[simp] theorem supplyAfter_map (transform : α → β) (action : Draw α) (supply : Supply) :
    (transform <$> action).supplyAfter supply = action.supplyAfter supply := by
  simp only [supplyAfter, run_map]
  cases action.run supply <;> rfl

/-- The second step of a computation runs where the first left the supply, if it runs at all. -/
theorem supplyAfter_bind (action : Draw α) (next : α → Draw β) (supply : Supply) :
    (action >>= next).supplyAfter supply =
      match action.run supply with
      | .ok value middle => (next value).supplyAfter middle
      | .error _ after => after := by
  simp only [supplyAfter, EStateM.run_bind]
  cases action.run supply <;> rfl

theorem supplyAfter_bind_pure (action : Draw α) (transform : α → β) (supply : Supply) :
    (action >>= fun value => pure (transform value)).supplyAfter supply =
      action.supplyAfter supply := by
  rw [supplyAfter_bind, supplyAfter]
  cases action.run supply <;> rfl

end Draw

/-! ## Issues -/

/-- A placeholder that a mint issued, and the value that it was drawn for, if there was one. -/
structure Issue where
  mint : Mint
  placeholder : Placeholder
  value : Option AttributeValue

/-- Whether a placeholder was drawn for a value under some token. -/
def Issue.Binds (issue : Issue) (binding : String × AttributeValue) : Prop :=
  issue.placeholder.token = binding.1 ∧ issue.value = some binding.2

/-- Whether a binding is the work of one of some issues. -/
def Drawn (issues : List Issue) (binding : String × AttributeValue) : Prop :=
  ∃ issue ∈ issues, issue.Binds binding

theorem Drawn.mono {issues others : List Issue} {binding : String × AttributeValue}
    (drawn : Drawn issues binding) (more : issues ⊆ others) : Drawn others binding := by
  rcases drawn with ⟨issue, member, binds⟩
  exact ⟨issue, more member, binds⟩

/-- Whether a binding is the work of one of some issues of a mint. -/
def DrawnFrom (mint : Mint) (issues : List Issue) (binding : String × AttributeValue) : Prop :=
  ∃ placeholder : Placeholder, placeholder.token = binding.1 ∧
    ⟨mint, placeholder, some binding.2⟩ ∈ issues

/-- Whether a binding is the work of one of some issues of other mints. -/
def DrawnElsewhere (mint : Mint) (issues : List Issue) (binding : String × AttributeValue) :
    Prop :=
  ∃ issue ∈ issues, issue.mint ≠ mint ∧ issue.Binds binding

theorem Drawn.from_of_not_elsewhere {issues : List Issue} {binding : String × AttributeValue}
    (drawn : Drawn issues binding) {mint : Mint}
    (notElsewhere : ¬DrawnElsewhere mint issues binding) : DrawnFrom mint issues binding := by
  rcases drawn with ⟨issue, member, binds⟩
  by_cases ofMint : issue.mint = mint
  · rcases issue with ⟨source, placeholder, value⟩
    rcases binds with ⟨named, rfl⟩
    rw [← ofMint]
    exact ⟨placeholder, named, member⟩
  · exact absurd ⟨issue, member, ofMint, binds⟩ notElsewhere

theorem Placeholder.token_injective {first second : Placeholder}
    (equal : first.token = second.token) : first = second := by
  cases first
  cases second
  simpa [token] using equal

namespace Mint

/-- The placeholder with a number, as a mint on a sequence names it. -/
def numbered (mint : Mint) (number : Nat) : Placeholder := ⟨mint.stem ++ toString number⟩

theorem numbered_injective {mint : Mint} {first second : Nat}
    (equal : mint.numbered first = mint.numbered second) : first = second := by
  have sameDigits : Nat.toDigits 10 first = Nat.toDigits 10 second := by
    simpa [numbered, ← String.toList_inj, Nat.toString_eq_repr, Nat.toList_repr] using equal
  rw [← Numeral.ofDigits_toDigits first, ← Numeral.ofDigits_toDigits second, sameDigits]

theorem run_next_of_sequence {mint : Mint} {sequence : Nat}
    (onSequence : mint.source = .sequence sequence) (supply : Supply) :
    mint.next.run supply =
      .ok (mint.numbered (supply.issued sequence + 1)) (supply.advance sequence) := by
  simp [next, onSequence, numbered]

theorem run_next_of_random {mint : Mint} (atRandom : mint.source = .random) (supply : Supply) :
    mint.next.run supply =
      .ok ⟨mint.stem ++ supply.randomWord supply.randomIssued⟩
        { supply with randomIssued := supply.randomIssued + 1 } := by
  simp [next, atRandom]

/-- How many placeholders have been issued from where a mint takes its own. -/
def count (mint : Mint) (supply : Supply) : Nat :=
  match mint.source with
  | .sequence sequence => supply.issued sequence
  | .random => supply.randomIssued

/-- The placeholder that a mint issues when so many have been issued before. -/
def nth (mint : Mint) (words : Nat → String) (index : Nat) : Placeholder :=
  match mint.source with
  | .sequence _ => mint.numbered (index + 1)
  | .random => ⟨mint.stem ++ words index⟩

theorem nth_of_sequence {mint : Mint} {sequence : Nat}
    (onSequence : mint.source = .sequence sequence) (words : Nat → String) (index : Nat) :
    mint.nth words index = mint.numbered (index + 1) := by
  simp [nth, onSequence]

theorem count_of_sequence {mint : Mint} {sequence : Nat}
    (onSequence : mint.source = .sequence sequence) (supply : Supply) :
    mint.count supply = supply.issued sequence := by
  simp [count, onSequence]

/-- A mint issues no placeholder twice, provided that the random words differ. -/
theorem nth_injective {mint : Mint} {words : Nat → String}
    (differ : mint.source = .random → Function.Injective words) :
    Function.Injective (mint.nth words) := by
  intro first second equal
  cases source : mint.source with
  | sequence sequence =>
      rw [nth_of_sequence source, nth_of_sequence source] at equal
      exact Nat.succ.inj (numbered_injective equal)
  | random =>
      simp only [nth, source, Placeholder.mk.injEq, String.append_right_inj] at equal
      exact differ source equal

theorem run_next_eq (mint : Mint) (supply : Supply) :
    ∃ after, mint.next.run supply = .ok (mint.nth supply.randomWord (mint.count supply)) after ∧
      mint.count after = mint.count supply + 1 ∧ after.randomWord = supply.randomWord := by
  cases source : mint.source with
  | sequence sequence =>
      refine ⟨supply.advance sequence, ?_, ?_, rfl⟩
      · rw [run_next_of_sequence source, nth_of_sequence source, count_of_sequence source]
      · simp [count_of_sequence source, Supply.advance]
  | random =>
      refine ⟨{ supply with randomIssued := supply.randomIssued + 1 }, ?_, ?_, rfl⟩
      · rw [run_next_of_random source]
        simp [nth, count, source]
      · simp [count, source]

theorem exists_run_next (mint : Mint) (supply : Supply) :
    ∃ placeholder after, mint.next.run supply = .ok placeholder after := by
  rcases mint.run_next_eq supply with ⟨after, drawn, _⟩
  exact ⟨_, after, drawn⟩

/-- Between two supplies a mint issued some placeholders, in the order in which they stand. -/
inductive Issues (mint : Mint) : Supply → List Issue → Supply → Prop
  | none (supply : Supply) : Issues mint supply [] supply
  | next {before middle after : Supply} {placeholder : Placeholder} {later : List Issue}
      (value : Option AttributeValue) (drawn : mint.next.run before = .ok placeholder middle)
      (rest : Issues mint middle later after) :
      Issues mint before (⟨mint, placeholder, value⟩ :: later) after

namespace Issues

theorem append {mint : Mint} {before middle after : Supply} {first second : List Issue}
    (earlier : mint.Issues before first middle) (later : mint.Issues middle second after) :
    mint.Issues before (first ++ second) after := by
  induction earlier with
  | none => exact later
  | next value drawn _ induction => exact .next value drawn (induction later)

theorem mint_eq {mint : Mint} {before after : Supply} {issues : List Issue}
    (drawn : mint.Issues before issues after) : ∀ issue ∈ issues, issue.mint = mint := by
  induction drawn with
  | none => simp
  | next value drawn _ induction => simpa using induction

/-- What a mint issues are the placeholders that come next, one after the other. -/
theorem placeholders_eq {mint : Mint} {before after : Supply} {issues : List Issue}
    (drawn : mint.Issues before issues after) :
    mint.count after = mint.count before + issues.length ∧
      issues.map Issue.placeholder =
        (List.range' (mint.count before) issues.length).map (mint.nth before.randomWord) := by
  induction drawn with
  | none => simp
  | @next before middle after placeholder later value drawn rest induction =>
      rcases mint.run_next_eq before with ⟨advanced, first, counted, sameWords⟩
      cases first.symm.trans drawn
      rw [counted, sameWords] at induction
      rcases induction with ⟨further, named⟩
      rw [List.length_cons, List.map_cons, List.range'_succ, List.map_cons, named]
      exact ⟨by omega, rfl⟩

/-- What no single draw changes, no number of draws changes. -/
theorem preserves (holds : Supply → Prop)
    (advance : ∀ supply sequence, holds supply → holds (supply.advance sequence))
    (random : ∀ supply : Supply, holds supply →
      holds { supply with randomIssued := supply.randomIssued + 1 })
    {mint : Mint} {before after : Supply} {issues : List Issue}
    (drawn : mint.Issues before issues after) (start : holds before) : holds after := by
  induction drawn with
  | none => exact start
  | next value drawn _ induction =>
      apply induction
      cases source : mint.source with
      | sequence sequence =>
          rw [run_next_of_sequence source] at drawn
          cases drawn
          exact advance _ sequence start
      | random =>
          rw [run_next_of_random source] at drawn
          cases drawn
          exact random _ start

theorem issued_le {mint : Mint} {before after : Supply} {issues : List Issue}
    (drawn : mint.Issues before issues after) (sequence : Nat) :
    before.issued sequence ≤ after.issued sequence := by
  apply preserves (fun supply => before.issued sequence ≤ supply.issued sequence) _ _ drawn
    (Nat.le_refl _)
  · intro supply other reached
    simp only [Supply.advance]
    split
    · next same =>
        subst same
        exact Nat.le_succ_of_le reached
    · exact reached
  · exact fun supply reached => reached

theorem randomIssued_le {mint : Mint} {before after : Supply} {issues : List Issue}
    (drawn : mint.Issues before issues after) : before.randomIssued ≤ after.randomIssued :=
  preserves (fun supply => before.randomIssued ≤ supply.randomIssued)
    (fun _ _ reached => reached) (fun _ reached => Nat.le_succ_of_le reached) drawn (Nat.le_refl _)

theorem count_le {mint : Mint} {before after : Supply} {issues : List Issue}
    (drawn : mint.Issues before issues after) (other : Mint) :
    other.count before ≤ other.count after := by
  cases source : other.source with
  | sequence sequence =>
      rw [count_of_sequence source, count_of_sequence source]
      exact drawn.issued_le sequence
  | random =>
      simp only [count, source]
      exact drawn.randomIssued_le

theorem randomWord_eq {mint : Mint} {before after : Supply} {issues : List Issue}
    (drawn : mint.Issues before issues after) : after.randomWord = before.randomWord :=
  preserves (fun supply => supply.randomWord = before.randomWord) (fun _ _ same => same)
    (fun _ same => same) drawn rfl

/-- Each issue of a mint is one of those that come next. -/
theorem indexed {mint : Mint} {before after : Supply} {issues : List Issue}
    (drawn : mint.Issues before issues after) :
    ∀ issue ∈ issues, ∃ index, mint.count before ≤ index ∧ index < mint.count after ∧
      issue.placeholder = mint.nth before.randomWord index := by
  intro issue member
  have inOrder := List.mem_map_of_mem (f := Issue.placeholder) member
  rw [drawn.placeholders_eq.2] at inOrder
  rcases List.mem_map.mp inOrder with ⟨index, within, named⟩
  rw [List.mem_range'_1, ← drawn.placeholders_eq.1] at within
  exact ⟨index, within.1, within.2, named.symm⟩

/-- The issues of a mint on a sequence are numbered on from where the sequence stood. -/
theorem numbered {mint : Mint} {sequence : Nat} (onSequence : mint.source = .sequence sequence)
    {before after : Supply} {issues : List Issue} (drawn : mint.Issues before issues after) :
    ∀ issue ∈ issues, ∃ number, before.issued sequence < number ∧
      number ≤ after.issued sequence ∧ issue.placeholder = mint.numbered number := by
  intro issue member
  rcases drawn.indexed issue member with ⟨index, above, below, named⟩
  rw [count_of_sequence onSequence] at above below
  exact ⟨index + 1, by omega, by omega, by rw [named, nth_of_sequence onSequence]⟩

/-- No placeholder is issued twice, unless the mint repeats itself. -/
theorem nodup {mint : Mint} {before after : Supply} {issues : List Issue}
    (injective : Function.Injective (mint.nth before.randomWord))
    (drawn : mint.Issues before issues after) : (issues.map Issue.placeholder).Nodup := by
  rw [drawn.placeholders_eq.2]
  exact (List.nodup_range' 1).map injective

end Issues

end Mint

end ItemQuery
