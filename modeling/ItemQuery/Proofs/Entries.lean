import ItemQuery.Proofs.Run

/-!
Sorts of entries.

Calls put entries together in few ways: a predicate is created, a connective is changed, entries are
gathered in a group, and a fragment is captured from an entry. A sort of entries that is closed
under these is kept by all calls (`Call.all_of_run`).
-/

namespace ItemQuery

/-- Whether all entries of an object are of some sort. -/
def Object.All (sort : Entry → Prop) (object : Object) : Prop :=
  ∀ entry ∈ object.entries, sort entry

/-- A sort of entries that does not depend on connectives, and that a group is of exactly if its
entries are. -/
structure Entry.Closed (sort : Entry → Prop) : Prop where
  group : ∀ joined entries, sort (.group joined entries) ↔ ∀ entry ∈ entries, sort entry
  withConnective : ∀ entry joined, sort entry → sort (entry.withConnective joined)

namespace Object

variable {sort : Entry → Prop} {condition : Condition} {draft : ReadDraft}

theorem all_ofEntry {entry : Entry} : (ofEntry entry).All sort ↔ sort entry := by
  cases entry <;> simp [All, ofEntry, entries, Condition.toEntry]

variable (closed : Entry.Closed sort)
include closed

theorem all_condition : (Object.condition condition).All sort ↔
    ∀ entry ∈ condition.entries, sort entry := by
  simp [All, entries, Condition.toEntry, closed.group]

theorem all_read : (Object.read draft).All sort ↔
    (∀ entry ∈ draft.target.entries, sort entry) ∧ ∀ entry ∈ draft.filter.entries, sort entry := by
  cases target : draft.target <;>
    simp [All, entries, target, ReadTarget.entries, Condition.toEntry, closed.group]

theorem all_pushAll {added : List Entry} (all : (Object.condition condition).All sort)
    (allAdded : ∀ entry ∈ added, sort entry) :
    (Object.condition (condition.pushAll added)).All sort := by
  rw [all_condition closed] at all ⊢
  exact List.forall_mem_append.mpr ⟨all, allAdded⟩

theorem all_start (target : ReadTarget) (tableName : String) (binder : Binder) :
    (Object.read (.start target tableName binder)).All sort := by
  cases target <;> simp [all_read closed, ReadDraft.start, ReadTarget.blank, ReadTarget.entries,
    Condition.empty]

theorem all_nest (all : (Object.read draft).All sort)
    (nested : (Object.condition condition).All sort) (joined : Connective) :
    (Object.read (draft.nest joined condition)).All sort := by
  rw [all_condition closed] at nested
  unfold ReadDraft.nest
  split
  · exact all
  · rw [all_read closed] at all ⊢
    refine ⟨all.1, List.forall_mem_append.mpr ⟨all.2, ?_⟩⟩
    intro entry member
    rw [List.mem_singleton.mp member]
    exact (closed.group joined condition.entries).mpr nested

end Object

/-! ## Calls -/

namespace Call

/-- The predicate that a call is made for, as a computation, and the binder that makes it. -/
def creates? : Call → Option (Binder × Draw Predicate)
  | .predicate binder kind key operand connective =>
      some (binder, binder.predicate kind key operand connective)
  | .named binder kindName key operand connective =>
      some (binder, binder.named kindName key operand connective)
  | .specified binder specification => some (binder, binder.specified specification)
  | _ => none

/-- What calls do to objects whose entries are all of a closed sort, but for the predicates that are
created, the fragments that are captured and the steps of drafts. -/
theorem all_of_run {sort : Entry → Prop} (closed : Entry.Closed sort) {call : Call}
    {before after : Supply} {object : Object}
    (created : ∀ binder action predicate middle, call.creates? = some (binder, action) →
      action.run before = .ok predicate middle → sort (.predicate predicate))
    (captured : ∀ source joined, .ofEntry source ∈ call.operands → sort source →
      sort (.fragment (source.capture joined)))
    (stepped : ∀ draft step grown middle, call = .step draft step →
      (step.run draft).run before = .ok grown middle → (Object.read draft).All sort →
        (Object.read grown).All sort)
    (known : ∀ operand ∈ call.operands, operand.All sort)
    (ran : call.action.run before = .ok object after) : object.All sort := by
  cases call with
  | predicate | named | specified =>
      rcases Draw.run_map_eq_ok.mp ran with ⟨predicate, made, rfl⟩
      exact Object.all_ofEntry.mpr (created _ _ _ _ rfl made)
  | step draft taken =>
      rcases Draw.run_map_eq_ok.mp ran with ⟨grown, made, rfl⟩
      exact stepped draft taken grown after rfl made (known (.read draft) (by simp [operands]))
  | group draft connective child =>
      rcases Draw.run_map_eq_ok.mp ran with ⟨grown, nested, rfl⟩
      cases nested
      apply Object.all_nest closed (known (.read draft) (by simp [operands]))
      rw [Object.all_condition closed]
      exact ((Object.all_read closed).mp (known (.read child) (by simp [operands]))).2
  | rejoin predicate connective =>
      cases ran
      have all := known (.predicate predicate) (by simp [operands])
      rw [← Object.ofEntry, Object.all_ofEntry] at all ⊢
      exact closed.withConnective _ connective all
  | push condition entry =>
      cases ran
      have new := Object.all_ofEntry.mp (known (.ofEntry entry) (by simp [operands]))
      apply Object.all_pushAll closed (known (.condition condition) (by simp [operands]))
      simpa using new
  | add condition connective entry =>
      cases ran
      have new := Object.all_ofEntry.mp (known (.ofEntry entry) (by simp [operands]))
      apply Object.all_pushAll closed (known (.condition condition) (by simp [operands]))
      simpa using closed.withConnective entry connective new
  | pushAll condition entries =>
      cases ran
      apply Object.all_pushAll closed (known (.condition condition) (by simp [operands]))
      intro entry member
      apply Object.all_ofEntry.mp
      exact known (.ofEntry entry) (by simp [operands, List.mem_map_of_mem member])
  | withConnective condition connective =>
      cases ran
      have all := known (.condition condition) (by simp [operands])
      rw [Object.all_condition closed] at all ⊢
      exact all
  | filterOf draft =>
      cases ran
      apply (Object.all_condition closed).mpr
      exact ((Object.all_read closed).mp (known (.read draft) (by simp [operands]))).2
  | keyConditionOf draft =>
      have keys := ((Object.all_read closed).mp (known (.read draft) (by simp [operands]))).1
      cases target : draft.target with
      | scan => simp [action, target] at ran
      | query keyCondition forward =>
          simp only [action, target] at ran
          cases ran
          rw [target] at keys
          exact (Object.all_condition closed).mpr keys
  | capture source connective =>
      cases ran
      have isOperand : Object.ofEntry source ∈ operands (.capture source connective) := by
        simp [operands]
      have new := captured source connective isOperand
        (Object.all_ofEntry.mp (known (.ofEntry source) isOperand))
      simpa [Object.All, Object.entries] using new
  | start target tableName binder =>
      cases ran
      exact Object.all_start closed target tableName binder
  | branch draft =>
      cases ran
      exact Object.all_start closed draft.target draft.tableName draft.binder
  | scanTable table =>
      cases ran
      exact Object.all_start closed .scan table.name table.binder
  | queryTable table =>
      cases ran
      exact Object.all_start closed (.query .empty none) table.name table.binder
  | emptyCondition =>
      cases ran
      simp [Object.all_condition closed, Condition.empty]
  | mintOf | makeBinder | binderOf | withIndex =>
      cases ran
      simp [Object.All, Object.entries]
  | openMint | discard | makeTable | withConfig =>
      rcases Draw.run_map_eq_ok.mp ran with ⟨_, _, rfl⟩
      simp [Object.All, Object.entries]

end Call

end ItemQuery
