import ItemQuery.ReadDraft

/-!
Scripts: what is done to the draft of a read, as data.

A step is one operation with its operands. A group holds a script of its own, which is run on a
branch; when one of its steps fails the group fails with the same error, and what the steps before
it drew stays drawn.
-/

namespace ItemQuery

inductive ReadStep
  | restrict (connective : Connective) (kind : PredicateKind) (key : String) (operand : Operand)
  | call (verbName key : String) (operand : Operand)
  | apply (specification : Specification)
  | applyAll (specifications : List Specification)
  | embed (other : ReadDraft) (connective : Connective)
  | nest (condition : Condition) (connective : Connective)
  | group (connective : Connective) (steps : List ReadStep)
  | keyCondition (kind : PredicateKind) (key : String) (value : AttributeValue)
  | descending
  | attributeNames (names : Dictionary String)
  | index (name : String)
  | projection (expression : String)
  | limit (limit : Int32)
  | select (select : Select)
  | consistentRead (consistent : Bool)
  | startKey (key : Item)
  /-- Do nothing but fail: a step whose operands could not be read. -/
  | fail (error : QueryError)

mutual
def ReadStep.run : ReadStep → ReadDraft → Draw ReadDraft
  | .restrict connective kind key operand, draft => draft.restrict connective kind key operand
  | .call verbName key operand, draft => draft.call verbName key operand
  | .apply specification, draft => draft.apply specification
  | .applyAll specifications, draft => draft.applyAll specifications
  | .embed other connective, draft => .ofExcept (draft.embed other connective)
  | .nest condition connective, draft => pure (draft.nest connective condition)
  | .group connective steps, draft => draft.group connective (runScript steps)
  | .keyCondition kind key value, draft => draft.keyCondition kind key value
  | .descending, draft => .ofExcept draft.descending
  | .attributeNames names, draft => pure { draft with attributeNames := names }
  | .index name, draft => pure { draft with indexName := some name }
  | .projection expression, draft => pure { draft with projection := some expression }
  | .limit limit, draft => pure { draft with limit := some limit }
  | .select select, draft => pure { draft with select := some select }
  | .consistentRead consistent, draft => pure { draft with consistentRead := some consistent }
  | .startKey key, draft => pure { draft with startKey := key }
  | .fail error, _ => throw error

def runScript : List ReadStep → ReadDraft → Draw ReadDraft
  | [], draft => pure draft
  | step :: rest, draft => do
      let changed ← step.run draft
      runScript rest changed
end

end ItemQuery
