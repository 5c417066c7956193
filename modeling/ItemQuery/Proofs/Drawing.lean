import ItemQuery.Workspace
import ItemQuery.ReadDraft.Script
import ItemQuery.Proofs.Predicate

/-!
What a script draws and what it takes in.

The issues of a step are listed with the values that they are drawn for, also where the step fails
later on and its predicates are lost. The operands of a step are the drafts and conditions that it
takes in, at any depth of its groups.
-/

namespace ItemQuery

/-! ## Issues -/

/-- The issues of a computation that makes a predicate, one for each value of the predicate. -/
def Mint.issuesOfRun (mint : Mint) (action : Draw Predicate) (supply : Supply) : List Issue :=
  match action.run supply with
  | .ok predicate _ => mint.issuesOf predicate.bound
  | .error _ _ => []

/-- The issues of predicates that are given as data, up to the first that fails. -/
def Binder.issuesOfAll (binder : Binder) : List Specification → Supply → List Issue
  | [], _ => []
  | specification :: rest, supply =>
      let action := binder.specified specification
      binder.mint.issuesOfRun action supply ++
        match action.run supply with
        | .ok _ middle => issuesOfAll binder rest middle
        | .error _ _ => []

mutual
/-- The placeholders that a step draws on a draft, with the values that they are drawn for. -/
def ReadStep.issues : ReadStep → ReadDraft → Supply → List Issue
  | .restrict connective kind key operand, draft, supply =>
      draft.binder.mint.issuesOfRun (draft.binder.predicate kind key operand connective) supply
  | .call verbName key operand, draft, supply =>
      match Verb.ofName verbName with
      | .ok verb => draft.binder.mint.issuesOfRun
          (draft.binder.predicate verb.kind key operand verb.connective) supply
      | .error _ => []
  | .apply specification, draft, supply =>
      draft.binder.mint.issuesOfRun (draft.binder.specified specification) supply
  | .applyAll specifications, draft, supply => draft.binder.issuesOfAll specifications supply
  | .group _ steps, draft, supply => scriptIssues steps draft.branch supply
  | .keyCondition kind key value, draft, supply =>
      match draft.target with
      | .query _ _ =>
          if kind.isKeyCondition then draft.binder.mint.issuesOfRun
            (draft.binder.predicate kind key (.scalar value) .and) supply
          else []
      | .scan => []
  | _, _, _ => []

def scriptIssues : List ReadStep → ReadDraft → Supply → List Issue
  | [], _, _ => []
  | step :: rest, draft, supply =>
      step.issues draft supply ++
        match (step.run draft).run supply with
        | .ok changed middle => scriptIssues rest changed middle
        | .error _ _ => []
end

/-! ## Operands -/

/-- The bindings that an object brings along when a draft takes it in: those of a condition, or of
the filter of another draft. -/
def Object.given : Object → List (String × AttributeValue)
  | .condition held => held.tokenValues
  | .read draft => draft.filter.bindings.entries
  | _ => []

mutual
/-- The objects that a step takes in. -/
def ReadStep.operands : ReadStep → List Object
  | .embed other _ => [.read other]
  | .nest condition _ => [.condition condition]
  | .group _ steps => scriptOperands steps
  | _ => []

def scriptOperands : List ReadStep → List Object
  | [] => []
  | step :: rest => step.operands ++ scriptOperands rest
end

def ReadStep.given (step : ReadStep) : List (String × AttributeValue) :=
  step.operands.flatMap Object.given

/-! ## One predicate -/

namespace Mint

variable {mint : Mint}

theorem issuesOfRun_of_ok {action : Draw Predicate} {before after : Supply} {predicate : Predicate}
    (made : action.run before = .ok predicate after) :
    mint.issuesOfRun action before = mint.issuesOf predicate.bound := by
  simp [issuesOfRun, made]

theorem drawn_issuesOf (predicate : Predicate) :
    ∀ binding ∈ predicate.tokenValues, Drawn (mint.issuesOf predicate.bound) binding := by
  intro binding member
  rcases List.mem_map.mp member with ⟨entry, bound, rfl⟩
  exact ⟨⟨mint, entry.1, some entry.2⟩, List.mem_map_of_mem bound, rfl, rfl⟩

/-- Whether a computation of a predicate draws exactly the placeholders of that predicate. -/
def DrawsFor (mint : Mint) (action : Draw Predicate) : Prop :=
  ∀ before, mint.Issues before (mint.issuesOfRun action before) (action.supplyAfter before)

theorem drawsFor_throw (error : QueryError) : mint.DrawsFor (throw error) :=
  fun before => .none before

theorem drawsFor_create (kind : PredicateKind) (key : String) (operand : Operand)
    (connective : Connective) :
    mint.DrawsFor (Predicate.create mint kind key operand connective) := by
  intro before
  cases mismatch : operand.mismatch? kind with
  | some mismatch =>
      have failed := @Predicate.run_create_of_mismatch mint kind key operand connective before _
        mismatch
      simp only [issuesOfRun, Draw.supplyAfter, failed]
      exact .none before
  | none =>
      rcases @Predicate.exists_run_create mint kind key operand connective before mismatch with
        ⟨bound, after, made, issues, _⟩
      rw [issuesOfRun_of_ok made, Draw.supplyAfter_of_ok made]
      exact issues

end Mint

namespace Binder

theorem drawsFor_named (binder : Binder) (kindName key : String) (operand : Operand)
    (connective : Connective) :
    binder.mint.DrawsFor (binder.named kindName key operand connective) := by
  unfold named
  split
  · exact Mint.drawsFor_create _ key operand connective
  · exact Mint.drawsFor_throw _

theorem drawsFor_specified (binder : Binder) (specification : Specification) :
    binder.mint.DrawsFor (binder.specified specification) :=
  binder.drawsFor_named _ _ _ _

end Binder

namespace Binder

theorem issuesOfAll_run : ∀ (specifications : List Specification) (draft : ReadDraft)
    (before : Supply), draft.binder.mint.Issues before
      (draft.binder.issuesOfAll specifications before)
      ((draft.applyAll specifications).supplyAfter before)
  | [], _, before => .none before
  | specification :: rest, draft, before => by
      have drawn := draft.binder.drawsFor_specified specification before
      rw [ReadDraft.applyAll, Draw.supplyAfter_bind, ReadDraft.apply]
      unfold issuesOfAll
      cases made : (draft.binder.specified specification).run before with
      | error error middle =>
          simp only [Draw.supplyAfter, made] at drawn
          simpa only [EStateM.run_bind, made, List.append_nil] using drawn
      | ok predicate middle =>
          rw [Draw.supplyAfter_of_ok made] at drawn
          simp only [EStateM.run_bind, made, EStateM.run_pure]
          exact drawn.append (issuesOfAll_run rest (draft.push (.predicate predicate)) middle)

end Binder

end ItemQuery
