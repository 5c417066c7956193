import ItemQuery.Proofs.Renaming
import ItemQuery.Proofs.Fields
import ItemQuery.UpdateDraft

/-!
Requests that differ in their placeholders only.

Two drafts of two runs whose entries and assignments are renamed compile to inputs whose values are
the same under the renamed tokens, and which are equal in everything else but their expressions
(`ReadDraft.Paired.renamed_toInput`, `UpdateDraft.Renamed.toInput`). The text of an expression is
that of the condition which the draft has for it, and the text beside it that of the same condition
renamed, predicate by predicate and through the fragments.
-/

namespace ItemQuery

/-! ## Inputs -/

namespace Object

/-- The input that an object compiles to. -/
def input? : Object → Option Input
  | .read draft => some draft.toInput
  | .update draft => some draft.toInput
  | .batch draft => some draft.toInput
  | _ => none

/-- The condition that an object writes into a field of its input. -/
def condition? : Object → String → Option Condition
  | .read draft, "FilterExpression" => some draft.filter
  | .read draft, "KeyConditionExpression" =>
      match draft.target with
      | .scan => none
      | .query keyCondition _ => some keyCondition
  | .update draft, "ConditionExpression" => some draft.condition
  | _, _ => none

end Object

/-- The text that assigns to attributes what placeholders stand for. -/
def assignmentsText (assignments : Dictionary (Placeholder × AttributeValue)) : String :=
  "SET " ++ String.intercalate ", "
    (assignments.entries.map fun entry => entry.1 ++ " = " ++ entry.2.1.token)

/-- Whether two objects write two texts into a field that are the same but for the tokens: those of
a condition and the renamed one, or those of assignments and the renamed ones. -/
inductive TextRenamed (made : Pairs) (naming : Placeholder → Placeholder) :
    Object → Object → String → String → String → Prop
  | condition {object twin : Object} {field : String} {own other : Condition}
      (held : object.condition? field = some own) (alsoHeld : twin.condition? field = some other)
      {expression : Expression} (behind : expression.Behind made naming own.toEntry other.toEntry) :
      TextRenamed made naming object twin field expression.phrase.text
        (expression.phrase.rename naming).text
  | assignments {draft twin : UpdateDraft}
      (renamed : twin.assignments = draft.assignments.map (renameFirst naming)) :
      TextRenamed made naming (.update draft) (.update twin) "UpdateExpression"
        (assignmentsText draft.assignments) (assignmentsText twin.assignments)

/-- An input without its expressions and the values under their tokens. -/
def Input.bare : Input → Input
  | .scan input => .scan { input with filterExpression := none, attributeValues := .empty }
  | .query input =>
      .query { input with
        keyConditionExpression := none, filterExpression := none, attributeValues := .empty }
  | .update input =>
      .update { input with
        updateExpression := none, conditionExpression := none, attributeValues := .empty }
  | .batch input => .batch input

/-- Whether two inputs are those of two objects, and are the same but for placeholders. -/
structure Input.Renamed (made : Pairs) (naming : Placeholder → Placeholder) (object twin : Object)
    (first second : Input) : Prop where
  own : object.input? = some first
  other : twin.input? = some second
  expressions {field : String} (isExpression : field ∈ expressionFields) :
    Option.Rel (TextRenamed made naming object twin field) (first.expression? field)
      (second.expression? field)
  values : Bindings.Renamed naming first.attributeValues second.attributeValues
  rest : second.bare = first.bare

/-! ## Drafts of reads -/

variable {made more : Pairs} {naming : Placeholder → Placeholder} {mint other : Mint}

theorem Condition.Renamed.render? {condition renamedCondition : Condition} {object twin : Object}
    {field : String} (renamed : condition.Renamed made naming renamedCondition)
    (held : object.condition? field = some condition)
    (alsoHeld : twin.condition? field = some renamedCondition) :
    Option.Rel (TextRenamed made naming object twin field) condition.render?
      renamedCondition.render? := by
  unfold Condition.render?
  rw [Condition.Paired.isEmpty renamed]
  split
  · exact .none
  · rcases renamed.toEntry with ⟨expression, behind⟩
    rw [Condition.render, behind.render, Condition.render, behind.render_twin]
    exact .some (.condition held alsoHeld behind)

theorem ReadDraft.Paired.renamed_toInput (injective : Function.Injective naming)
    {first second : ReadDraft}
    (paired : first.Paired (Entry.Renamed made naming) mint other second) :
    Input.Renamed made naming (.read first) (.read second) first.toInput second.toInput where
  own := rfl
  other := rfl
  expressions := by
    have filters : Option.Rel
        (TextRenamed made naming (.read first) (.read second) "FilterExpression")
        first.filter.render? second.filter.render? :=
      Condition.Renamed.render? paired.filter rfl rfl
    have targets := paired.target
    intro field isExpression
    simp only [expressionFields, List.mem_cons, List.not_mem_nil, or_false] at isExpression
    unfold ReadDraft.toInput
    cases target : first.target <;> cases held : second.target <;> rw [target, held] at targets <;>
      cases targets
    case scan.scan.scan =>
      rcases isExpression with rfl | rfl | rfl | rfl
      case inr.inl => exact filters
      all_goals exact .none
    case query.query.query condition forward twin keys =>
      rcases isExpression with rfl | rfl | rfl | rfl
      case inl =>
        apply Condition.Renamed.render? keys
        · simp only [Object.condition?, target]
        · simp only [Object.condition?, held]
      case inr.inl => exact filters
      all_goals exact .none
  values := by
    rw [ReadDraft.attributeValues_toInput, ReadDraft.attributeValues_toInput]
    exact paired.renamed_boundValues injective
  rest := by
    have targets := paired.target
    have rest := paired.rest
    rcases first with ⟨_, _, _, target⟩
    rcases second with ⟨_, _, _, held⟩
    cases rest
    cases targets <;> rfl

/-! ## Drafts of updates -/

/-- Whether two drafts of updates of different mints are the same but for their placeholders. -/
structure UpdateDraft.Renamed (made : Pairs) (naming : Placeholder → Placeholder)
    (mint other : Mint) (first second : UpdateDraft) : Prop where
  mint : first.binder.mint = mint
  other : second.binder.mint = other
  marshaler : second.binder.marshaler = first.binder.marshaler
  assignments : second.assignments = first.assignments.map (renameFirst naming)
  condition : first.condition.Renamed made naming second.condition
  rest : { second with
    binder := first.binder, assignments := first.assignments, condition := first.condition } = first

namespace UpdateDraft.Renamed

variable {first second : UpdateDraft}

theorem mono (moreMade : made ⊆ more) (renamed : first.Renamed made naming mint other second) :
    first.Renamed more naming mint other second :=
  { renamed with condition := renamed.condition.imp (Entry.Renamed.mono moreMade) }

theorem updateExpression? (renamed : first.Renamed made naming mint other second) :
    Option.Rel (TextRenamed made naming (.update first) (.update second) "UpdateExpression")
      first.updateExpression? second.updateExpression? := by
  have sameIsEmpty : second.assignments.isEmpty = first.assignments.isEmpty := by
    rw [renamed.assignments, Dictionary.isEmpty, Dictionary.isEmpty, Dictionary.map,
      List.isEmpty_map]
  unfold UpdateDraft.updateExpression?
  rw [sameIsEmpty]
  split
  · exact .none
  · exact .some (.assignments renamed.assignments)

theorem values (injective : Function.Injective naming)
    (renamed : first.Renamed made naming mint other second) :
    Bindings.Renamed naming (Dictionary.ofList first.tokenValues)
      (Dictionary.ofList second.tokenValues) := by
  have sameAssignments : second.assignments.values =
      first.assignments.values.map (renameFirst naming) := by
    rw [renamed.assignments]
    simp [Dictionary.values, Dictionary.map]
  unfold UpdateDraft.tokenValues
  rw [sameAssignments]
  exact (Bindings.Renamed.ofBound injective first.assignments.values).append
    (renamed.condition.bindings injective)

theorem toInput (injective : Function.Injective naming)
    (renamed : first.Renamed made naming mint other second) :
    Input.Renamed made naming (.update first) (.update second) first.toInput second.toInput where
  own := rfl
  other := rfl
  expressions := by
    have conditions : Option.Rel
        (TextRenamed made naming (.update first) (.update second) "ConditionExpression")
        first.condition.render? second.condition.render? :=
      Condition.Renamed.render? renamed.condition rfl rfl
    intro field isExpression
    simp only [expressionFields, List.mem_cons, List.not_mem_nil, or_false] at isExpression
    rcases isExpression with rfl | rfl | rfl | rfl
    · exact .none
    · exact .none
    · exact renamed.updateExpression?
    · exact conditions
  values := renamed.values injective
  rest := by
    have rest := renamed.rest
    rcases first with ⟨_, _, _, _, _⟩
    rcases second with ⟨_, _, _, _, _⟩
    cases rest
    rfl

end UpdateDraft.Renamed

end ItemQuery
