import Mathlib.Data.List.Nodup
import ItemQuery.Proofs.Bindings

/-!
What a compiled request carries.

The fields of an input have different names, so each of them is found in the request as it was put
there (`Json.get?_fieldsOf`). Of the values under the tokens it is left out if there are none.
-/

namespace ItemQuery

namespace Json

variable {fields : List (String × Option Json)}

theorem mem_of_get?_fieldsOf {name : String} {json : Json}
    (found : (fieldsOf fields).get? name = some json) : (name, some json) ∈ fields := by
  have member := Dictionary.mem_of_get?_ofList found
  rcases List.mem_filterMap.mp member with ⟨⟨other, value⟩, inFields, kept⟩
  rcases Option.map_eq_some_iff.mp kept with ⟨_, rfl, equal⟩
  cases equal
  exact inFields

theorem get?_fieldsOf (distinct : (fields.map Prod.fst).Nodup) {name : String}
    {value : Option Json} (member : (name, value) ∈ fields) :
    (fieldsOf fields).get? name = value := by
  have only : ∀ json, (fieldsOf fields).get? name = some json → value = some json := by
    intro json found
    have same := List.inj_on_of_nodup_map distinct member (mem_of_get?_fieldsOf found) rfl
    exact congrArg Prod.snd same
  cases found : (fieldsOf fields).get? name with
  | some json => exact (only json found).symm
  | none =>
      cases value with
      | none => rfl
      | some json =>
          have kept : (name, json) ∈ fields.filterMap fun field => field.2.map (field.1, ·) :=
            List.mem_filterMap.mpr ⟨_, member, rfl⟩
          rcases Dictionary.exists_get?_ofList kept with ⟨last, stored⟩
          unfold fieldsOf at found
          rw [found] at stored
          cases stored

theorem get?_fieldsOf_eq_none {name : String} (absent : name ∉ fields.map Prod.fst) :
    (fieldsOf fields).get? name = none := by
  rw [Option.eq_none_iff_forall_ne_some]
  intro json found
  exact absent (List.mem_map_of_mem (mem_of_get?_fieldsOf found))

/-- A collected field is left out exactly when it is empty. -/
theorem collected_eq_none {α : Type} {write : α → Json} {dictionary : Dictionary α} :
    collected write dictionary = none ↔ dictionary = .empty := by
  unfold collected Dictionary.isEmpty
  rcases dictionary with ⟨entries, ordered⟩
  cases entries <;> simp [Dictionary.empty]

end Json

theorem itemToJson_eq_none {item : Item} : itemToJson item = none ↔ item = .empty :=
  Json.collected_eq_none

/-! ## Expressions and values -/

/-- The fields that hold expressions. -/
def expressionFields : List String :=
  ["KeyConditionExpression", "FilterExpression", "UpdateExpression", "ConditionExpression"]

/-- The expression that an input has for a field. -/
def Input.expression? : Input → String → Option String
  | .scan input, "FilterExpression" => input.filterExpression
  | .query input, "KeyConditionExpression" => input.keyConditionExpression
  | .query input, "FilterExpression" => input.filterExpression
  | .update input, "UpdateExpression" => input.updateExpression
  | .update input, "ConditionExpression" => input.conditionExpression
  | _, _ => none

namespace Request

/-- A request without overrides carries the fields of its input. -/
theorem get?_ofInput (input : Input) (field : String) :
    (ofInput input .empty).get? field = input.fields.get? field := rfl

theorem get?_expression (input : Input) {field : String}
    (isExpression : field ∈ expressionFields) :
    (ofInput input .empty).get? field = (input.expression? field).map .string := by
  rw [get?_ofInput]
  simp only [expressionFields, List.mem_cons, List.not_mem_nil, or_false] at isExpression
  cases input with
  | scan input =>
      rcases isExpression with rfl | rfl | rfl | rfl
      case inr.inl => exact Json.get?_fieldsOf (by simp) (by simp [Input.expression?])
      all_goals exact Json.get?_fieldsOf_eq_none (by simp)
  | query input =>
      rcases isExpression with rfl | rfl | rfl | rfl
      case inl | inr.inl => exact Json.get?_fieldsOf (by simp) (by simp [Input.expression?])
      all_goals exact Json.get?_fieldsOf_eq_none (by simp)
  | update input =>
      rcases isExpression with rfl | rfl | rfl | rfl
      case inl | inr.inl => exact Json.get?_fieldsOf_eq_none (by simp)
      all_goals exact Json.get?_fieldsOf (by simp) (by simp [Input.expression?])
  | batch input =>
      apply Json.get?_fieldsOf_eq_none
      rcases isExpression with rfl | rfl | rfl | rfl <;> simp

theorem get?_attributeValues (input : Input) :
    (ofInput input .empty).get? "ExpressionAttributeValues" =
      itemToJson input.attributeValues := by
  rw [get?_ofInput]
  cases input with
  | scan | query | update => exact Json.get?_fieldsOf (by simp) (by simp [Input.attributeValues])
  | batch => exact Json.get?_fieldsOf_eq_none (by simp)

end Request

namespace ReadDraft

theorem get?_filterExpression (draft : ReadDraft) :
    (draft.compile .empty).get? "FilterExpression" = draft.filter.render?.map .string := by
  unfold compile
  rw [Request.get?_expression _ (by decide)]
  unfold toInput
  cases draft.target <;> rfl

theorem get?_boundValues (draft : ReadDraft) :
    (draft.compile .empty).get? "ExpressionAttributeValues" = itemToJson draft.boundValues := by
  unfold compile
  rw [Request.get?_attributeValues, attributeValues_toInput]

end ReadDraft

end ItemQuery
