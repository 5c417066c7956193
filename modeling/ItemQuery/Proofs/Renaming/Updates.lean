import ItemQuery.Proofs.Renaming.Twins

/-!
Drafts of updates of two mints side by side.

An update takes in no filter, so nothing can go differently: whatever a step does to a draft of one
of two twins it does to that of the other (`UpdateDraft.Renamed.lockstep_run`).
-/

namespace ItemQuery

/-! ## Onward steps -/

theorem Mint.onward_next (mint : Mint) : mint.next.Onward := by
  intro before
  rcases mint.exists_run_next before with ⟨placeholder, after, ran⟩
  rw [Draw.supplyAfter_of_ok ran]
  exact (Mint.Issues.next none ran (.none after)).count_le

namespace UpdateDraft

theorem onward_assign (draft : UpdateDraft) (name : String) (value : AttributeValue) :
    (draft.assign name value).Onward := by
  unfold assign
  split
  · exact .pure _
  · exact draft.binder.mint.onward_next.bind fun _ => .pure _

theorem onward_assignAll : ∀ (assignments : List (String × AttributeValue)) (draft : UpdateDraft),
    (draft.assignAll assignments).Onward
  | [], draft => .pure draft
  | (name, value) :: rest, draft =>
      (draft.onward_assign name value).bind fun assigned => onward_assignAll rest assigned

theorem onward_setAll (draft : UpdateDraft) (native : Native) : (draft.setAll native).Onward :=
  (Draw.Onward.ofMarshal _).bind fun item => onward_assignAll item.entries draft

end UpdateDraft

theorem Predicate.onward_create (mint : Mint) (kind : PredicateKind) (key : String)
    (operand : Operand) (connective : Connective) :
    (create mint kind key operand connective).Onward := by
  unfold create
  split
  · exact .throw _
  · exact (mint.onward_bindAll operand.values).bind fun _ => .pure _

theorem UpdateStep.onward_run (step : UpdateStep) (draft : UpdateDraft) :
    (step.run draft).Onward := by
  cases step with
  | keyOf native => exact .ofMarshal _
  | set name native => exact (Draw.Onward.ofMarshal _).bind (draft.onward_assign name)
  | assign name value => exact draft.onward_assign name value
  | setAll values => exact draft.onward_setAll values
  | setKeyed key values =>
      exact (Draw.Onward.ofMarshal _).bind fun keyed => keyed.onward_setAll values
  | diff key before after =>
      exact (Draw.Onward.ofMarshal _).bind fun old => (Draw.Onward.ofMarshal _).bind fun new =>
        (Draw.Onward.ofMarshal _).bind fun keyed => keyed.onward_assignAll _
  | require connective kind key operand =>
      exact (Predicate.onward_create _ kind key operand connective).bind fun _ => .pure _
  | key | attributeNames | returnValues => exact .pure _

/-! ## Side by side -/

namespace UpdateDraft.Renamed

variable {twins : Twins}

/-- Whether two computations of drafts of updates are in lockstep. -/
def Lockstep (twins : Twins) : Draw UpdateDraft → Draw UpdateDraft → Prop :=
  twins.Lockstep Draw.Never (UpdateDraft.Renamed twins.made twins.naming twins.mint twins.other)

variable {made : Pairs} {naming : Placeholder → Placeholder} {first second : UpdateDraft}
  {mint other : Mint}

theorem insert (renamed : first.Renamed made naming mint other second) (name : String)
    (assignment : Placeholder × AttributeValue) :
    UpdateDraft.Renamed made naming mint other
      { first with assignments := first.assignments.insert name assignment }
      { second with
        assignments := second.assignments.insert name (renameFirst naming assignment) } where
  mint := renamed.mint
  other := renamed.other
  marshaler := renamed.marshaler
  assignments := by rw [Dictionary.map_insert, renamed.assignments]
  condition := renamed.condition
  rest := congrArg (fun draft : UpdateDraft =>
    { draft with assignments := first.assignments.insert name assignment }) renamed.rest

theorem keyed (renamed : first.Renamed made naming mint other second) (item : Item) :
    UpdateDraft.Renamed made naming mint other { first with key := item }
      { second with key := item } :=
  { renamed with
    rest := congrArg (fun draft : UpdateDraft => { draft with key := item }) renamed.rest }

theorem lockstep_keyOf
    (renamed : first.Renamed twins.made twins.naming twins.mint twins.other second)
    (native : Native) :
    Lockstep twins (.ofMarshal (first.keyOf native)) (.ofMarshal (second.keyOf native)) := by
  unfold UpdateDraft.keyOf
  cases Item.marshal native with
  | error error => exact .throw (.marshal error)
  | ok item => exact .pure (renamed.keyed item)

theorem lockstep_assign
    (renamed : first.Renamed twins.made twins.naming twins.mint twins.other second)
    (name : String) (value : AttributeValue) :
    Lockstep twins (first.assign name value) (second.assign name value) := by
  unfold UpdateDraft.assign
  rw [renamed.assignments, Dictionary.get?_map]
  cases first.assignments.get? name with
  | some assignment =>
      rw [← renamed.assignments]
      exact .pure (renamed.insert name (assignment.1, value))
  | none =>
      rw [Option.map_none, renamed.mint, renamed.other, bind_pure_comp, bind_pure_comp]
      apply twins.next.map
      rintro placeholder _ rfl
      rw [← renamed.assignments]
      exact renamed.insert name (placeholder, value)

theorem lockstep_assignAll : ∀ (assignments : List (String × AttributeValue))
    {first second : UpdateDraft},
      first.Renamed twins.made twins.naming twins.mint twins.other second →
      Lockstep twins (first.assignAll assignments) (second.assignAll assignments)
  | [], _, _, renamed => .pure renamed
  | (name, value) :: rest, _, _, renamed => by
      apply (lockstep_assign renamed name value).bind_never
      · intro start held middle _ bounded
        exact twins.within_of_onward (held.onward_assignAll rest) bounded
      · intro assigned twin same
        exact lockstep_assignAll rest same

theorem lockstep_setAll
    (renamed : first.Renamed twins.made twins.naming twins.mint twins.other second)
    (native : Native) :
    Lockstep twins (first.setAll native) (second.setAll native) := by
  unfold UpdateDraft.setAll
  cases Item.marshal native with
  | error error => exact .throw (.marshal error)
  | ok item => exact lockstep_assignAll item.entries renamed

/-- Whatever a step does to a draft it does to a renamed one. -/
theorem lockstep_run (step : UpdateStep)
    (renamed : first.Renamed twins.made twins.naming twins.mint twins.other second) :
    Lockstep twins (step.run first) (step.run second) := by
  cases step with
  | keyOf native => exact renamed.lockstep_keyOf native
  | key item => exact .pure (renamed.keyed item)
  | set name native =>
      simp only [UpdateStep.run, UpdateDraft.set]
      cases AttributeValue.marshal native with
      | error error => exact .throw (.marshal error)
      | ok value => exact lockstep_assign renamed name value
  | assign name value => exact lockstep_assign renamed name value
  | setAll values => exact lockstep_setAll renamed values
  | setKeyed key values =>
      apply (renamed.lockstep_keyOf key).bind_never
      · intro start held middle _ bounded
        exact twins.within_of_onward (held.onward_setAll values) bounded
      · intro keyed twin same
        exact lockstep_setAll same values
  | diff key before after =>
      simp only [UpdateStep.run, UpdateDraft.diff]
      cases Item.marshal before with
      | error error => exact .throw (.marshal error)
      | ok old =>
          cases Item.marshal after with
          | error error => exact .throw (.marshal error)
          | ok new =>
              apply (renamed.lockstep_keyOf key).bind_never
              · intro start held middle _ bounded
                exact twins.within_of_onward (held.onward_assignAll _) bounded
              · intro keyed twin same
                exact lockstep_assignAll _ same
  | require connective kind key operand =>
      simp only [UpdateStep.run, UpdateDraft.require, Binder.predicate]
      rw [renamed.mint, renamed.other, bind_pure_comp, bind_pure_comp]
      apply (twins.lockstep_create kind key operand connective).map
      rintro predicate _ rfl
      exact { renamed with
        condition := Condition.Paired.push renamed.condition (.predicate predicate)
        rest := congrArg (fun draft : UpdateDraft =>
          { draft with condition := first.condition.push (.predicate predicate) }) renamed.rest }
  | attributeNames names =>
      exact .pure { renamed with rest := congrArg (fun draft : UpdateDraft =>
        { draft with attributeNames := names }) renamed.rest }
  | returnValues wanted =>
      exact .pure { renamed with rest := congrArg (fun draft : UpdateDraft =>
        { draft with returnValues := some wanted }) renamed.rest }

end UpdateDraft.Renamed

end ItemQuery
