import ItemQuery.Binder
import ItemQuery.Request

/-!
Drafts of updates: assignments to attributes of one item, and the condition under which they happen.

An attribute keeps the placeholder that was drawn when it was first assigned; assigning it again
changes only the value. The assignments are written in the order of the attribute names.
-/

namespace ItemQuery

structure UpdateDraft where
  tableName : String
  binder : Binder
  key : Item
  assignments : Dictionary (Placeholder × AttributeValue)
  condition : Condition
  attributeNames : Dictionary String
  returnValues : Option ReturnValue
deriving DecidableEq

namespace UpdateDraft

/-- A draft about which nothing has been said but its table. -/
def start (tableName : String) (binder : Binder) : UpdateDraft where
  tableName
  binder
  key := .empty
  assignments := .empty
  condition := .empty
  attributeNames := .empty
  returnValues := none

/-! ## Assignments -/

/-- Assign a value to an attribute. -/
def assign (draft : UpdateDraft) (name : String) (value : AttributeValue) : Draw UpdateDraft :=
  match draft.assignments.get? name with
  | some (placeholder, _) =>
      pure { draft with assignments := draft.assignments.insert name (placeholder, value) }
  | none => do
      let placeholder ← draft.binder.mint.next
      return { draft with assignments := draft.assignments.insert name (placeholder, value) }

/-- Assign values to several attributes, one after the other. -/
def assignAll (draft : UpdateDraft) : List (String × AttributeValue) → Draw UpdateDraft
  | [] => pure draft
  | (name, value) :: rest => do
      let assigned ← draft.assign name value
      assignAll assigned rest

def set (draft : UpdateDraft) (name : String) (native : Native) : Draw UpdateDraft := do
  let value ← Draw.ofMarshal (AttributeValue.marshal native)
  draft.assign name value

/-- Assign every attribute of a native map, in the order of their names. -/
def setAll (draft : UpdateDraft) (native : Native) : Draw UpdateDraft := do
  let item ← Draw.ofMarshal (Item.marshal native)
  draft.assignAll item.entries

/-! ## The item -/

/-- Name the item by a native map. -/
def keyOf (draft : UpdateDraft) (native : Native) : Except MarshalError UpdateDraft := do
  let key ← Item.marshal native
  return { draft with key }

/-- Name the item and assign every attribute of a native map. -/
def setKeyed (draft : UpdateDraft) (key values : Native) : Draw UpdateDraft := do
  let keyed ← Draw.ofMarshal (draft.keyOf key)
  keyed.setAll values

/-- The attributes of `after` that `before` does not have with the same value. -/
def changes (before after : Item) : Item :=
  after.filter fun name value => before.get? name ≠ some value

/-- Name the item and assign what has changed between two native maps. -/
def diff (draft : UpdateDraft) (key before after : Native) : Draw UpdateDraft := do
  let before ← Draw.ofMarshal (Item.marshal before)
  let after ← Draw.ofMarshal (Item.marshal after)
  let keyed ← Draw.ofMarshal (draft.keyOf key)
  keyed.assignAll (changes before after).entries

/-- Append a predicate to the condition of the update. -/
def require (draft : UpdateDraft) (connective : Connective) (kind : PredicateKind) (key : String)
    (operand : Operand) : Draw UpdateDraft := do
  let predicate ← draft.binder.predicate kind key operand connective
  return { draft with condition := draft.condition.push (.predicate predicate) }

/-! ## Compiling -/

def clause (assignment : String × Placeholder × AttributeValue) : String :=
  assignment.1 ++ " = " ++ assignment.2.1.token

/-- The text of the assignments, none if there are none. -/
def updateExpression? (draft : UpdateDraft) : Option String :=
  if draft.assignments.isEmpty then none
  else some ("SET " ++ String.intercalate ", " (draft.assignments.entries.map clause))

/-- The values of the assignments, in the order of the attribute names, and then those of the
condition. -/
def tokenValues (draft : UpdateDraft) : List (String × AttributeValue) :=
  (draft.assignments.values.map fun assignment => (assignment.1.token, assignment.2)) ++
    draft.condition.tokenValues

def toUpdateInput (draft : UpdateDraft) : UpdateInput where
  tableName := draft.tableName
  key := draft.key
  updateExpression := draft.updateExpression?
  conditionExpression := draft.condition.render?
  attributeNames := draft.attributeNames
  attributeValues := Dictionary.ofList draft.tokenValues
  returnValues := draft.returnValues

def toInput (draft : UpdateDraft) : Input := .update draft.toUpdateInput

def compile (draft : UpdateDraft) (overrides : Dictionary Json) : Request :=
  .ofInput draft.toInput overrides

end UpdateDraft

/-! ## Steps -/

/-- What can be done to the draft of an update, as data. -/
inductive UpdateStep
  | keyOf (key : Native)
  | key (key : Item)
  | set (name : String) (value : Native)
  | assign (name : String) (value : AttributeValue)
  | setAll (values : Native)
  | setKeyed (key values : Native)
  | diff (key before after : Native)
  | require (connective : Connective) (kind : PredicateKind) (key : String) (operand : Operand)
  | attributeNames (names : Dictionary String)
  | returnValues (returnValues : ReturnValue)

def UpdateStep.run : UpdateStep → UpdateDraft → Draw UpdateDraft
  | .keyOf native, draft => .ofMarshal (draft.keyOf native)
  | .key item, draft => pure { draft with key := item }
  | .set name native, draft => draft.set name native
  | .assign name value, draft => draft.assign name value
  | .setAll values, draft => draft.setAll values
  | .setKeyed native values, draft => draft.setKeyed native values
  | .diff native before after, draft => draft.diff native before after
  | .require connective kind name operand, draft => draft.require connective kind name operand
  | .attributeNames names, draft => pure { draft with attributeNames := names }
  | .returnValues wanted, draft => pure { draft with returnValues := some wanted }

end ItemQuery
