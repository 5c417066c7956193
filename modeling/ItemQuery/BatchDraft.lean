import ItemQuery.Request

/-!
Drafts of batches: writes that are queued for several tables.

Writes go to the current table. The tables stand in the order in which they received their first
write, and the writes of a table in the order in which they were queued.
-/

namespace ItemQuery

structure BatchDraft where
  current : String
  tables : List (String × List WriteRequest)
deriving DecidableEq

namespace BatchDraft

/-- A draft with nothing queued. -/
def start (tableName : String) : BatchDraft := ⟨tableName, []⟩

/-- Queue a write behind those of a table, or as the first one of a new table. -/
def enqueue (tableName : String) (write : WriteRequest) :
    List (String × List WriteRequest) → List (String × List WriteRequest)
  | [] => [(tableName, [write])]
  | (other, writes) :: rest =>
      if other = tableName then (other, writes ++ [write]) :: rest
      else (other, writes) :: enqueue tableName write rest

def push (draft : BatchDraft) (write : WriteRequest) : BatchDraft :=
  { draft with tables := enqueue draft.current write draft.tables }

/-- Make another table the current one. -/
def switchTo (draft : BatchDraft) (tableName : String) : BatchDraft :=
  { draft with current := tableName }

def putItem (draft : BatchDraft) (item : Item) : BatchDraft := draft.push (.ofPut item)

def deleteKey (draft : BatchDraft) (key : Item) : BatchDraft := draft.push (.ofDelete key)

def put (draft : BatchDraft) (native : Native) : Except MarshalError BatchDraft := do
  let item ← Item.marshal native
  return draft.putItem item

def delete (draft : BatchDraft) (native : Native) : Except MarshalError BatchDraft := do
  let key ← Item.marshal native
  return draft.deleteKey key

/-- The number of writes that are queued. -/
def size (draft : BatchDraft) : Nat := (draft.tables.flatMap Prod.snd).length

def isEmpty (draft : BatchDraft) : Bool := draft.tables.isEmpty

def tableNames (draft : BatchDraft) : List String := draft.tables.map Prod.fst

/-- The writes that are queued for a table. -/
def writes (draft : BatchDraft) (tableName : String) : List WriteRequest :=
  (Dictionary.find? tableName draft.tables).getD []

def toBatchInput (draft : BatchDraft) : BatchInput := ⟨Dictionary.ofList draft.tables⟩

def toInput (draft : BatchDraft) : Input := .batch draft.toBatchInput

def compile (draft : BatchDraft) (overrides : Dictionary Json) : Request :=
  .ofInput draft.toInput overrides

end BatchDraft

/-! ## Steps -/

/-- What can be done to the draft of a batch, as data. -/
inductive BatchStep
  | switchTo (tableName : String)
  | put (item : Native)
  | delete (key : Native)
  | putItem (item : Item)
  | deleteKey (key : Item)

def BatchStep.run : BatchStep → BatchDraft → Except MarshalError BatchDraft
  | .switchTo tableName, draft => .ok (draft.switchTo tableName)
  | .put item, draft => draft.put item
  | .delete key, draft => draft.delete key
  | .putItem item, draft => .ok (draft.putItem item)
  | .deleteKey key, draft => .ok (draft.deleteKey key)

end ItemQuery
