import ItemQuery.Proofs.Updates.Growth

/-!
What a step of an update draws.

A step draws a placeholder for each attribute that it assigns for the first time and for each value
of a predicate that it requires, all from the mint of the draft (`UpdateStep.issues_run`). It reads
all of its operands before it draws, so a step that fails has drawn nothing
(`UpdateStep.supply_eq_of_error`).
-/

namespace ItemQuery

theorem Dictionary.nodup_names {α : Type} (dictionary : Dictionary α) :
    (dictionary.entries.map Prod.fst).Nodup := by
  rw [List.nodup_iff_pairwise_ne, List.pairwise_map]
  exact dictionary.ordered.imp fun before => String.ne_of_lt before

/-! ## Failures -/

/-- Whether a computation that fails leaves the supply as it was. -/
def Draw.KeepsOnFailure (action : Draw α) : Prop :=
  ∀ before error after, action.run before = .error error after → after = before

namespace Draw.KeepsOnFailure

theorem pure (value : α) : KeepsOnFailure (Pure.pure value : Draw α) := nofun

theorem ofMarshal (result : Except MarshalError α) : KeepsOnFailure (Draw.ofMarshal result) := by
  intro before error after failed
  cases result <;> cases failed
  rfl

theorem bind_ofMarshal (result : Except MarshalError α) {next : α → Draw β}
    (later : ∀ value, (next value).KeepsOnFailure) :
    KeepsOnFailure (Draw.ofMarshal result >>= next) := by
  intro before error after failed
  cases result with
  | error => exact ofMarshal (.error _) before error after failed
  | ok value => exact later value before error after failed

theorem bind_pure {action : Draw α} (keeps : action.KeepsOnFailure) (transform : α → β) :
    KeepsOnFailure (action >>= fun value => Pure.pure (transform value)) := by
  intro before error after failed
  rw [EStateM.run_bind] at failed
  cases ran : action.run before with
  | ok value middle =>
      rw [ran] at failed
      cases failed
  | error found middle =>
      rw [ran] at failed
      cases failed
      exact keeps before _ _ ran

end Draw.KeepsOnFailure

theorem Predicate.keepsOnFailure_create (mint : Mint) (kind : PredicateKind) (key : String)
    (operand : Operand) (connective : Connective) :
    (create mint kind key operand connective).KeepsOnFailure := by
  intro before error after failed
  cases mismatch : operand.mismatch? kind with
  | some found =>
      rw [run_create_of_mismatch mismatch] at failed
      cases failed
      rfl
  | none =>
      rcases @exists_run_create mint kind key operand connective before mismatch with
        ⟨_, _, created, _⟩
      cases created.symm.trans failed

namespace UpdateDraft

variable {draft grown : UpdateDraft} {before after : Supply} {name : String}
  {value : AttributeValue}

/-! ## Assignments -/

/-- The placeholder that is drawn when a value is assigned, if the attribute has none yet. -/
def issuesOfAssign (draft : UpdateDraft) (name : String) (value : AttributeValue)
    (supply : Supply) : List Issue :=
  match draft.assignments.get? name, draft.binder.mint.next.run supply with
  | none, .ok placeholder _ => [⟨draft.binder.mint, placeholder, some value⟩]
  | _, _ => []

/-- The placeholders that are drawn when values are assigned one after the other. -/
def issuesOfAssigns (draft : UpdateDraft) : List (String × AttributeValue) → Supply → List Issue
  | [], _ => []
  | (name, value) :: rest, supply =>
      draft.issuesOfAssign name value supply ++
        match (draft.assign name value).run supply with
        | .ok assigned middle => issuesOfAssigns assigned rest middle
        | .error _ _ => []

theorem exists_run_assign (draft : UpdateDraft) (name : String) (value : AttributeValue)
    (before : Supply) :
    ∃ grown after, (draft.assign name value).run before = .ok grown after ∧
      draft.binder.mint.Issues before (draft.issuesOfAssign name value before) after := by
  unfold assign issuesOfAssign
  cases draft.assignments.get? name with
  | some held => exact ⟨_, before, rfl, .none before⟩
  | none =>
      rcases draft.binder.mint.exists_run_next before with ⟨placeholder, after, drawn⟩
      simp only [EStateM.run_bind, drawn, EStateM.run_pure]
      exact ⟨_, after, rfl, .next (some value) drawn (.none after)⟩

theorem exists_run_assignAll : ∀ (assignments : List (String × AttributeValue))
    (draft : UpdateDraft) (before : Supply),
    ∃ grown after, (draft.assignAll assignments).run before = .ok grown after ∧
      draft.binder.mint.Issues before (draft.issuesOfAssigns assignments before) after
  | [], draft, before => ⟨draft, before, rfl, .none before⟩
  | (name, value) :: rest, draft, before => by
      rcases draft.exists_run_assign name value before with ⟨assigned, middle, first, issues⟩
      rcases exists_run_assignAll rest assigned middle with ⟨grown, after, later, more⟩
      rw [(grew_assign first).binder] at more
      refine ⟨grown, after, Draw.run_bind_eq_ok.mpr ⟨assigned, middle, first, later⟩, ?_⟩
      simp only [issuesOfAssigns, first]
      exact issues.append more

theorem keepsOnFailure_assign (draft : UpdateDraft) (name : String) (value : AttributeValue) :
    (draft.assign name value).KeepsOnFailure := by
  intro before error after failed
  rcases draft.exists_run_assign name value before with ⟨_, _, succeeds, _⟩
  cases succeeds.symm.trans failed

theorem keepsOnFailure_assignAll (draft : UpdateDraft)
    (assignments : List (String × AttributeValue)) :
    (draft.assignAll assignments).KeepsOnFailure := by
  intro before error after failed
  rcases exists_run_assignAll assignments draft before with ⟨_, _, succeeds, _⟩
  cases succeeds.symm.trans failed

theorem keepsOnFailure_setAll (draft : UpdateDraft) (native : Native) :
    (draft.setAll native).KeepsOnFailure :=
  .bind_ofMarshal _ fun _ => draft.keepsOnFailure_assignAll _

theorem keepsOnFailure_require (draft : UpdateDraft) (connective : Connective)
    (kind : PredicateKind) (key : String) (operand : Operand) :
    (draft.require connective kind key operand).KeepsOnFailure :=
  (Predicate.keepsOnFailure_create _ kind key operand connective).bind_pure _

/-- The same is drawn for drafts with the same mint and the same assignments. -/
theorem issuesOfAssigns_congr : ∀ (assignments : List (String × AttributeValue))
    {draft other : UpdateDraft} (supply : Supply), other.binder = draft.binder →
      other.assignments = draft.assignments →
        other.issuesOfAssigns assignments supply = draft.issuesOfAssigns assignments supply
  | [], _, _, _, _, _ => rfl
  | (name, value) :: rest, draft, other, supply, sameBinder, sameAssignments => by
      rw [issuesOfAssigns, issuesOfAssigns, issuesOfAssign, issuesOfAssign, sameBinder,
        sameAssignments]
      congr 1
      unfold assign
      rw [sameBinder, sameAssignments]
      cases draft.assignments.get? name with
      | some assignment => exact issuesOfAssigns_congr rest supply rfl rfl
      | none =>
          rcases draft.binder.mint.exists_run_next supply with ⟨placeholder, middle, drawn⟩
          simp only [EStateM.run_bind, drawn, EStateM.run_pure]
          exact issuesOfAssigns_congr rest middle rfl rfl

/-- The attributes among some that have no value yet. -/
def newNames (draft : UpdateDraft) (names : List String) : List String :=
  names.filter fun name => (draft.assignments.get? name).isNone

theorem length_issuesOfAssign (draft : UpdateDraft) (name : String) (value : AttributeValue)
    (supply : Supply) :
    (draft.issuesOfAssign name value supply).length = (draft.newNames [name]).length := by
  rcases draft.binder.mint.exists_run_next supply with ⟨placeholder, after, drawn⟩
  unfold issuesOfAssign newNames
  cases found : draft.assignments.get? name <;> simp [drawn, found]

theorem newNames_of_assign (ran : (draft.assign name value).run before = .ok grown after)
    {names : List String} (others : name ∉ names) :
    grown.newNames names = draft.newNames names := by
  rcases assign_cases ran with ⟨placeholder, rfl, _⟩
  apply List.filter_congr
  intro other member
  have different : other ≠ name := fun same => others (same ▸ member)
  simp [Dictionary.get?_insert, different]

/-- Where no attribute is assigned twice, one placeholder is drawn for each that is new. -/
theorem length_issuesOfAssigns : ∀ (assignments : List (String × AttributeValue))
    (draft : UpdateDraft) (supply : Supply), (assignments.map Prod.fst).Nodup →
      (draft.issuesOfAssigns assignments supply).length =
        (draft.newNames (assignments.map Prod.fst)).length
  | [], _, _, _ => rfl
  | (name, value) :: rest, draft, supply, distinct => by
      rw [List.map_cons, List.nodup_cons] at distinct
      rcases draft.exists_run_assign name value supply with ⟨assigned, middle, first, _⟩
      have head := draft.length_issuesOfAssign name value supply
      have tail := length_issuesOfAssigns rest assigned middle distinct.2
      rw [newNames_of_assign first distinct.1] at tail
      simp only [issuesOfAssigns, first, List.length_append, head, tail, List.map_cons]
      rw [← List.length_append, newNames, newNames, newNames, ← List.filter_append]
      rfl

end UpdateDraft

/-! ## Steps -/

namespace UpdateStep

variable {draft : UpdateDraft} {before after : Supply}

theorem nodup_assigns (step : UpdateStep) : (step.assigns.map Prod.fst).Nodup := by
  cases step with
  | set name native =>
      simp only [assigns]
      cases AttributeValue.marshal native with
      | error error => exact List.nodup_nil
      | ok value => exact List.nodup_singleton name
  | assign name value => exact List.nodup_singleton name
  | setAll native | setKeyed key native =>
      simp only [assigns]
      cases Item.marshal native with
      | error error => exact List.nodup_nil
      | ok item => exact item.nodup_names
  | diff key first second =>
      simp only [assigns]
      cases Item.marshal first <;> cases Item.marshal second
      case ok.ok old new => exact (UpdateDraft.changes old new).nodup_names
      all_goals exact List.nodup_nil
  | _ => exact List.nodup_nil

/-- The placeholders that a step draws, in the order in which it does. -/
def issues (step : UpdateStep) (draft : UpdateDraft) (supply : Supply) : List Issue :=
  match (step.run draft).run supply with
  | .ok _ _ =>
      draft.issuesOfAssigns step.assigns supply ++ step.requires.flatMap fun required =>
        draft.binder.mint.issuesOfRun (draft.binder.predicate required.kind required.key
          required.operand required.connective) supply
  | .error _ _ => []

theorem keepsOnFailure_run (step : UpdateStep) (draft : UpdateDraft) :
    (step.run draft).KeepsOnFailure := by
  cases step with
  | keyOf native => exact .ofMarshal _
  | key | attributeNames | returnValues => exact .pure _
  | set name native => exact .bind_ofMarshal _ fun value => draft.keepsOnFailure_assign name value
  | assign name value => exact draft.keepsOnFailure_assign name value
  | setAll values => exact draft.keepsOnFailure_setAll values
  | setKeyed native values =>
      exact .bind_ofMarshal _ fun keyed => keyed.keepsOnFailure_setAll values
  | diff native first second =>
      apply Draw.KeepsOnFailure.bind_ofMarshal
      intro old
      apply Draw.KeepsOnFailure.bind_ofMarshal
      intro new
      apply Draw.KeepsOnFailure.bind_ofMarshal
      exact fun keyed => keyed.keepsOnFailure_assignAll _
  | require connective kind key operand =>
      exact draft.keepsOnFailure_require connective kind key operand

theorem issues_run (step : UpdateStep) (draft : UpdateDraft) (before : Supply) :
    draft.binder.mint.Issues before (step.issues draft before)
      ((step.run draft).supplyAfter before) := by
  unfold issues Draw.supplyAfter
  cases ran : (step.run draft).run before with
  | error error after =>
      rw [keepsOnFailure_run step draft before error after ran]
      exact .none before
  | ok grown after =>
      rcases run_cases ran with ⟨noneRequired, prepared, same, assigned⟩ |
        ⟨required, isRequired, noneAssigned, ran⟩
      · rcases UpdateDraft.exists_run_assignAll step.assigns prepared before with
          ⟨_, _, again, drawn⟩
        cases assigned.symm.trans again
        rw [UpdateDraft.issuesOfAssigns_congr _ before same.binder same.assignments,
          same.binder] at drawn
        simpa [noneRequired] using drawn
      · have drawn := @Mint.drawsFor_create draft.binder.mint required.kind required.key
          required.operand required.connective before
        have after_eq := Draw.supplyAfter_of_ok ran
        rw [UpdateDraft.require, Draw.supplyAfter_bind_pure] at after_eq
        rw [← after_eq]
        simpa [isRequired, noneAssigned, UpdateDraft.issuesOfAssigns, Binder.predicate] using drawn

end UpdateStep

end ItemQuery
