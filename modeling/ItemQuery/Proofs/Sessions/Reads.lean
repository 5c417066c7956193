import ItemQuery.Proofs.Extension
import ItemQuery.Proofs.Sessions.Drafts

/-!
The reads of a session.

A read is begun, handed out once more, changed by a step, or is given the filter of another as a
group (`Act.read_of_run`). A step either appends to the key condition of a draft and leaves the
filter alone, or leaves the key condition as it is (`ReadStep.keys_of_run`).
-/

namespace ItemQuery

/-! ## What acts make -/

namespace Act

/-- A read is handed out once more, begun, changed by a step, or given a group. -/
theorem read_of_run {act : Act} {before after : Supply} {grown : ReadDraft}
    (ran : act.action.run before = .ok (.read grown) after) :
    .read grown ∈ act.operands ∨
      (∃ target tableName binder indexName,
        grown = { ReadDraft.start target tableName binder with indexName := indexName }) ∨
      (∃ draft step, act = .call (.step draft step) ∧
        (step.run draft).run before = .ok grown after) ∨
      ∃ draft connective child, act = .call (.group draft connective child) ∧
        grown = draft.nest connective child.filter := by
  cases act with
  | clone held =>
      cases ran
      exact .inl (List.mem_singleton_self _)
  | tableOfEnvironment | change | queue =>
      rcases Draw.run_map_eq_ok.mp ran with ⟨_, _, same⟩
      cases same
  | call asked =>
      cases asked with
      | step draft step =>
          rcases Draw.run_map_eq_ok.mp ran with ⟨made, stepped, same⟩
          cases same
          exact .inr (.inr (.inl ⟨draft, step, rfl, stepped⟩))
      | group draft connective child =>
          cases ran
          exact .inr (.inr (.inr ⟨draft, connective, child, rfl, rfl⟩))
      | scanTable | queryTable | start | branch =>
          cases ran
          exact .inr (.inl ⟨_, _, _, _, rfl⟩)
      | openMint | discard | predicate | named | specified | makeTable | withConfig =>
          rcases Draw.run_map_eq_ok.mp ran with ⟨_, _, same⟩
          cases same
      | keyConditionOf draft =>
          rw [action, Call.action] at ran
          cases target : draft.target with
          | scan => simp [target] at ran
          | query keys forward =>
              rw [target] at ran
              cases ran
      | _ => cases ran
  | _ => cases ran

end Act

/-! ## Keys -/

/-- The key condition, which only a query has. -/
def ReadTarget.keyCondition? : ReadTarget → Option Condition
  | .scan => none
  | .query keyCondition _ => some keyCondition

theorem Object.filter_mem_entries (draft : ReadDraft) :
    draft.filter.toEntry ∈ (Object.read draft).entries := by
  cases target : draft.target <;> simp [entries, target]

theorem Object.keyCondition_mem_entries {draft : ReadDraft} {keys : Condition}
    (isQuery : draft.target.keyCondition? = some keys) :
    keys.toEntry ∈ (Object.read draft).entries := by
  cases target : draft.target with
  | scan => simp [target, ReadTarget.keyCondition?] at isQuery
  | query held forward =>
      rw [target] at isQuery
      cases isQuery
      simp [entries, target]

/-- A test on the key of an item. -/
structure KeyTest where
  kind : PredicateKind
  key : String
  value : AttributeValue

/-- The tests that a step asks for on the draft that it is run on. Those on the branch of a group
do not count. -/
def ReadStep.keyTests : ReadStep → List KeyTest
  | .keyCondition kind key value => [⟨kind, key, value⟩]
  | _ => []

namespace ReadDraft

variable {draft grown : ReadDraft} {before after : Supply}

/-- A key condition is grown by a predicate of one of the kinds that can be part of it. -/
theorem of_run_keyCondition {kind : PredicateKind} {key : String} {value : AttributeValue}
    (ran : (draft.keyCondition kind key value).run before = .ok grown after) :
    ∃ condition forward predicate, draft.target = .query condition forward ∧
      kind.isKeyCondition = true ∧
      (draft.binder.predicate kind key (.scalar value) .and).run before = .ok predicate after ∧
      grown = { draft with target := .query (condition.push (.predicate predicate)) forward } := by
  unfold keyCondition at ran
  split at ran
  · next condition forward target =>
      split at ran
      · next isKey =>
          rcases Draw.run_bind_eq_ok.mp ran with ⟨predicate, middle, created, finished⟩
          cases finished
          exact ⟨condition, forward, predicate, target, isKey, created, rfl⟩
      · cases ran
  · cases ran

theorem keyCondition?_of_descending (descends : draft.descending = .ok grown) :
    grown.target.keyCondition? = draft.target.keyCondition? := by
  unfold descending at descends
  split at descends
  · next target =>
      cases descends
      rw [target]
      rfl
  · cases descends

theorem Extends.target {connectives : List Connective}
    (extension : draft.Extends connectives grown) : grown.target = draft.target := by
  rcases extension with ⟨_, _, rfl⟩
  rfl

end ReadDraft

/-- A step that asks for a test on the key leaves the filter alone, and any other step the key
condition. -/
theorem ReadStep.keys_of_run {step : ReadStep} {draft grown : ReadDraft} {before after : Supply}
    (ran : (step.run draft).run before = .ok grown after) :
    (∃ kind key value, step = .keyCondition kind key value ∧ grown.filter = draft.filter ∧
        (draft.keyCondition kind key value).run before = .ok grown after) ∨
      step.keyTests = [] ∧ grown.target.keyCondition? = draft.target.keyCondition? := by
  have sameKeys : ∀ extension : Extension, (extension.run draft).run before = .ok grown after →
      grown.target.keyCondition? = draft.target.keyCondition? := fun extension ran => by
    rw [(Extension.extends_of_run ran).target]
  cases step with
  | keyCondition kind key value =>
      rcases ReadDraft.of_run_keyCondition ran with ⟨_, _, _, _, _, _, rfl⟩
      exact .inl ⟨kind, key, value, rfl, rfl, ran⟩
  | restrict connective kind key operand =>
      exact .inr ⟨rfl, sameKeys (.restrict connective kind key operand) ran⟩
  | call verbName key operand => exact .inr ⟨rfl, sameKeys (.call verbName key operand) ran⟩
  | apply specification => exact .inr ⟨rfl, sameKeys (.apply specification) ran⟩
  | applyAll specifications => exact .inr ⟨rfl, sameKeys (.applyAll specifications) ran⟩
  | embed other connective => exact .inr ⟨rfl, sameKeys (.embed other connective) ran⟩
  | nest condition connective => exact .inr ⟨rfl, sameKeys (.nest connective condition) ran⟩
  | group connective steps => exact .inr ⟨rfl, sameKeys (.group connective (runScript steps)) ran⟩
  | descending =>
      have descends := (Draw.run_ofExcept_eq_ok.mp ran).1
      exact .inr ⟨rfl, ReadDraft.keyCondition?_of_descending descends⟩
  | fail error => cases ran
  | _ =>
      cases ran
      exact .inr ⟨rfl, rfl⟩

end ItemQuery
