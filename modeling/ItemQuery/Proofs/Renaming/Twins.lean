import ItemQuery.Proofs.Renaming.Requests

/-!
Mints side by side.

Two mints are twins when, from supplies that are related, they issue placeholders that are the same
but for a naming. What is said here of one draw carries over to all that drafts do: predicates that
twins create are renamed (`Twins.lockstep_create`), and so drafts of the two mints go on to be the
same (`Twins.sideBySide`), up to where a draft takes in a filter from which they are known to part.
-/

namespace ItemQuery

/-! ## Onward computations -/

/-- Whether nothing that was issued in a supply is taken back in a later one. -/
def Supply.Precedes (before after : Supply) : Prop :=
  ∀ mint : Mint, mint.count before ≤ mint.count after

/-- Whether a computation takes back nothing that was issued. -/
def Draw.Onward (action : Draw α) : Prop :=
  ∀ before : Supply, before.Precedes (action.supplyAfter before)

namespace Draw.Onward

theorem pure (value : α) : Onward (Pure.pure value : Draw α) := fun _ _ => Nat.le_refl _

theorem throw (error : QueryError) : Onward (throw error : Draw α) := fun _ _ => Nat.le_refl _

theorem ofMarshal (result : Except MarshalError α) : Onward (Draw.ofMarshal result) := by
  cases result <;> exact fun _ _ => Nat.le_refl _

theorem bind {action : Draw α} {next : α → Draw β} (first : action.Onward)
    (rest : ∀ value, (next value).Onward) : (action >>= next).Onward := by
  intro before mint
  have early := first before mint
  rw [supplyAfter_bind]
  unfold supplyAfter at early
  cases ran : action.run before with
  | ok value middle =>
      rw [ran] at early
      exact Nat.le_trans early (rest value middle mint)
  | error error after =>
      rw [ran] at early
      exact early

end Draw.Onward

theorem Mint.onward_bindAll (mint : Mint) (values : List AttributeValue) :
    (mint.bindAll values).Onward := by
  intro before
  rcases mint.exists_run_bindAll values before with ⟨bound, after, ran, issues, _⟩
  rw [Draw.supplyAfter_of_ok ran]
  exact issues.count_le

/-! ## Twins -/

structure Twins where
  mint : Mint
  other : Mint
  /-- The objects that the runs with the two mints have made so far. -/
  made : Pairs
  naming : Placeholder → Placeholder
  injective : Function.Injective naming
  related : Supply → Supply → Prop
  within : Supply → Prop
  /-- Whether the runs part where a draft takes in the filter of another. -/
  parts : ReadDraft → ReadDraft → Prop
  within_of_precedes {before after : Supply} (earlier : before.Precedes after) :
    within after → within before
  next : Draw.Lockstep related within Draw.Never
    (fun placeholder twin => twin = naming placeholder) mint.next other.next
  collision {draft twin taken takenTwin : ReadDraft}
    (drafts : draft.Paired (Entry.Renamed made naming) mint other twin)
    (operands : taken.Paired (Entry.Renamed made naming) mint other takenTwin) :
    (¬parts draft taken ∧ twin.collision? takenTwin = draft.collision? taken) ∨
      parts draft taken ∧ takenTwin.filter.isEmpty = false ∧
        ∃ token, twin.collision? takenTwin = some token

namespace Twins

variable (twins : Twins)

theorem within_of_onward {action : Draw α} (onward : action.Onward) {supply : Supply}
    (bounded : twins.within (action.supplyAfter supply)) : twins.within supply :=
  twins.within_of_precedes (onward supply) bounded

/-- Whether two computations are in lockstep that draw from the twins. -/
def Lockstep (parts : Supply → Prop) (alike : α → β → Prop) : Draw α → Draw β → Prop :=
  Draw.Lockstep twins.related twins.within parts alike

theorem lockstep_bindAll (values : List AttributeValue) :
    twins.Lockstep Draw.Never (fun bound twin => twin = bound.map (renameFirst twins.naming))
      (twins.mint.bindAll values) (twins.other.bindAll values) := by
  induction values with
  | nil => exact .pure rfl
  | cons value rest induction =>
      unfold Mint.bindAll
      apply twins.next.bind_never
      · intro start held middle _ bounded
        rw [Draw.supplyAfter_bind_pure] at bounded
        exact twins.within_of_onward (twins.other.onward_bindAll rest) bounded
      · rintro placeholder _ rfl
        rw [bind_pure_comp, bind_pure_comp]
        apply induction.map
        rintro bound _ rfl
        rfl

theorem lockstep_create (kind : PredicateKind) (key : String) (operand : Operand)
    (connective : Connective) :
    twins.Lockstep Draw.Never (fun predicate twin => twin = predicate.rename twins.naming)
      (Predicate.create twins.mint kind key operand connective)
      (Predicate.create twins.other kind key operand connective) := by
  unfold Predicate.create
  split
  · exact .throw _
  · rw [bind_pure_comp, bind_pure_comp]
    apply (twins.lockstep_bindAll operand.values).map
    rintro bound _ rfl
    rfl

/-- A draft of one mint beside the renamed one of the other. They take in only what was made beside
each other. -/
def sideBySide : Simulation where
  mint := twins.mint
  other := twins.other
  related := twins.related
  within := twins.within
  alike := Entry.Renamed twins.made twins.naming
  operand taken twin :=
    taken.Paired (Entry.Renamed twins.made twins.naming) twins.mint twins.other twin ∧
      ∃ name, (name, .read taken, .read twin) ∈ twins.made
  parts := twins.parts
  within_of_issues drawn := twins.within_of_precedes drawn.count_le
  create kind key operand connective := by
    apply (twins.lockstep_create kind key operand connective).mono fun _ => Iff.rfl
    rintro predicate _ rfl
    exact .predicate predicate
  group := .group
  capture := by
    rintro taken twin joined ⟨drafts, name, beside⟩
    exact .capture joined beside drafts.filter
  filter_of_operand operands := operands.1.filter
  collision drafts operands := twins.collision drafts operands.1

end Twins

end ItemQuery
