import ItemQuery.Proofs.Provenance
import ItemQuery.Proofs.Updates.Growth

/-!
Drafts of updates and what is in them.

However a draft of an update was put together, its condition holds predicates that its own mint
created, and its assignments hold placeholders that its own mint issued
(`UpdateDraft.Reached.own`). Other calls may have drawn from the same supply in between.
-/

namespace ItemQuery

/-- Whether a mint issues a placeholder from a supply with given words. -/
def Mint.MayIssue (mint : Mint) (words : Nat → String) (placeholder : Placeholder) : Prop :=
  ∃ before after, before.randomWord = words ∧ mint.next.run before = .ok placeholder after

/-- The drafts of updates that steps lead to, whatever supply each step starts from, provided that
all supplies have the same words. -/
inductive UpdateDraft.Reached (words : Nat → String) : UpdateDraft → Prop
  | start (tableName : String) (binder : Binder) : Reached words (.start tableName binder)
  | step {draft grown : UpdateDraft} {before after : Supply} (step : UpdateStep)
      (earlier : Reached words draft) (sameWords : before.randomWord = words)
      (ran : (step.run draft).run before = .ok grown after) : Reached words grown

namespace UpdateDraft

/-- Whether all placeholders of a draft come from its own mint. -/
structure Own (words : Nat → String) (draft : UpdateDraft) : Prop where
  condition : ∀ entry ∈ draft.condition.entries, ∃ predicate, entry = .predicate predicate ∧
    draft.binder.mint.Creates words predicate
  assignments : ∀ assignment ∈ draft.assignments.values,
    draft.binder.mint.MayIssue words assignment.1

theorem mem_values_insert {α : Type} {dictionary : Dictionary α} {name : String} {value held : α}
    (member : held ∈ (dictionary.insert name value).values) :
    held = value ∨ held ∈ dictionary.values := by
  rcases List.mem_map.mp member with ⟨⟨other, _⟩, stored, rfl⟩
  rw [← Dictionary.get?_eq_some_iff, Dictionary.get?_insert] at stored
  split at stored
  · exact .inl (Option.some.inj stored).symm
  · exact .inr (List.mem_map_of_mem (Dictionary.get?_eq_some_iff.mp stored))

namespace Own

variable {words : Nat → String} {draft grown : UpdateDraft} {before after : Supply}

theorem of_same (own : draft.Own words) (binder : grown.binder = draft.binder)
    (condition : grown.condition = draft.condition)
    (assignments : grown.assignments = draft.assignments) : grown.Own words := by
  constructor
  · rw [binder, condition]
    exact own.condition
  · rw [binder, assignments]
    exact own.assignments

theorem insert (own : draft.Own words) {placeholder : Placeholder}
    (issued : draft.binder.mint.MayIssue words placeholder) (name : String)
    (value : AttributeValue) :
    Own words { draft with
      assignments := draft.assignments.insert name (placeholder, value) } where
  condition := own.condition
  assignments := by
    intro assignment member
    rcases mem_values_insert member with rfl | old
    · exact issued
    · exact own.assignments assignment old

theorem assign (own : draft.Own words) (sameWords : before.randomWord = words) {name : String}
    {value : AttributeValue} (ran : (draft.assign name value).run before = .ok grown after) :
    grown.Own words ∧ after.randomWord = words := by
  unfold UpdateDraft.assign at ran
  split at ran
  · next placeholder held found =>
      cases ran
      have inAssignments := List.mem_map_of_mem (f := Prod.snd)
        (Dictionary.get?_eq_some_iff.mp found)
      exact ⟨own.insert (own.assignments _ inAssignments) name value, sameWords⟩
  · rcases Draw.run_bind_eq_ok.mp ran with ⟨placeholder, middle, issued, finished⟩
    cases finished
    have kept := (Mint.Issues.next none issued (.none after)).randomWord_eq
    exact ⟨own.insert ⟨before, after, sameWords, issued⟩ name value, kept.trans sameWords⟩

theorem assignAll : ∀ (assignments : List (String × AttributeValue)) {draft grown : UpdateDraft}
    {before after : Supply}, draft.Own words → before.randomWord = words →
      (draft.assignAll assignments).run before = .ok grown after → grown.Own words
  | [], _, _, _, _, own, _, ran => by
      cases ran
      exact own
  | (name, value) :: rest, _, _, _, _, own, sameWords, ran => by
      rcases Draw.run_bind_eq_ok.mp ran with ⟨assigned, middle, first, finished⟩
      rcases own.assign sameWords first with ⟨assignedOwn, middleWords⟩
      exact assignAll rest assignedOwn middleWords finished

theorem require (own : draft.Own words) (sameWords : before.randomWord = words)
    {connective : Connective} {kind : PredicateKind} {key : String} {operand : Operand}
    (ran : (draft.require connective kind key operand).run before = .ok grown after) :
    grown.Own words := by
  rcases Draw.run_bind_eq_ok.mp ran with ⟨predicate, middle, created, finished⟩
  cases finished
  refine ⟨?_, own.assignments⟩
  intro entry member
  rcases List.mem_append.mp member with old | new
  · exact own.condition entry old
  · exact ⟨predicate, List.mem_singleton.mp new, _, _, _, _, _, _, sameWords, created⟩

theorem step (own : draft.Own words) (sameWords : before.randomWord = words) (step : UpdateStep)
    (ran : (step.run draft).run before = .ok grown after) : grown.Own words := by
  rcases UpdateStep.run_cases ran with ⟨_, prepared, same, assigned⟩ | ⟨_, _, _, required⟩
  · have preparedOwn := own.of_same same.binder same.condition same.assignments
    exact preparedOwn.assignAll step.assigns sameWords assigned
  · exact own.require sameWords required

end Own

theorem Reached.own {words : Nat → String} {draft : UpdateDraft} (reached : draft.Reached words) :
    draft.Own words := by
  induction reached with
  | start tableName binder =>
      constructor
      · intro entry member
        cases member
      · intro assignment member
        cases member
  | step step _ sameWords ran induction => exact induction.step sameWords step ran

end UpdateDraft

end ItemQuery
