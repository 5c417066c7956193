import ItemQuery.Input.Read

/-!
The inputs of the two writing operations, `UpdateItem` and `BatchWriteItem`, and their JSON form.
-/

namespace ItemQuery

/-- What an update returns of the item. -/
inductive ReturnValue
  | none
  | allOld
  | updatedOld
  | allNew
  | updatedNew
deriving DecidableEq

namespace ReturnValue

def text : ReturnValue → String
  | .none => "NONE"
  | .allOld => "ALL_OLD"
  | .updatedOld => "UPDATED_OLD"
  | .allNew => "ALL_NEW"
  | .updatedNew => "UPDATED_NEW"

def all : List ReturnValue := [.none, .allOld, .updatedOld, .allNew, .updatedNew]

def ofText? (text : String) : Option ReturnValue := all.find? fun value => value.text = text

theorem ofText?_text (value : ReturnValue) : ofText? value.text = some value := by
  cases value <;> decide

def toJson (value : ReturnValue) : Json := .string value.text

def ofJson? : Json → Option ReturnValue := Json.alternative? ofText?

end ReturnValue

/-! ## Update -/

structure UpdateInput where
  tableName : String
  key : Item
  updateExpression : Option String
  conditionExpression : Option String
  attributeNames : Dictionary String
  attributeValues : Bindings
  returnValues : Option ReturnValue
deriving DecidableEq

namespace UpdateInput

def fieldNames : List String :=
  ["TableName", "Key", "UpdateExpression", "ConditionExpression", "ExpressionAttributeNames",
    "ExpressionAttributeValues", "ReturnValues"]

/-- The key is written even if it is empty. -/
def fields (input : UpdateInput) : Dictionary Json :=
  Json.fieldsOf
    [("TableName", some (.string input.tableName)),
      ("Key", some input.key.toWire),
      ("UpdateExpression", input.updateExpression.map .string),
      ("ConditionExpression", input.conditionExpression.map .string),
      ("ExpressionAttributeNames", namesToJson input.attributeNames),
      ("ExpressionAttributeValues", itemToJson input.attributeValues),
      ("ReturnValues", input.returnValues.map ReturnValue.toJson)]

def ofJson? (json : Json) : Option UpdateInput := do
  let record ← Json.Record.ofJson? fieldNames json
  let tableName ← record.required? "TableName" Json.string?
  let key ← record.required? "Key" Item.ofWire?
  let updateExpression ← record.optional? "UpdateExpression" Json.string?
  let conditionExpression ← record.optional? "ConditionExpression" Json.string?
  let attributeNames ← record.collected? "ExpressionAttributeNames" namesOfJson? .empty
  let attributeValues ← record.collected? "ExpressionAttributeValues" Item.ofWire? .empty
  let returnValues ← record.optional? "ReturnValues" ReturnValue.ofJson?
  some { tableName, key, updateExpression, conditionExpression, attributeNames, attributeValues,
         returnValues }

end UpdateInput

/-! ## Batches of writes -/

/-- One write of a batch. This library makes writes that either store an item or delete the item
with a key; the JSON form also has writes with both parts or with neither. -/
structure WriteRequest where
  put : Option Item
  delete : Option Item
deriving DecidableEq

namespace WriteRequest

def ofPut (item : Item) : WriteRequest := ⟨some item, none⟩

def ofDelete (key : Item) : WriteRequest := ⟨none, some key⟩

def fieldNames : List String := ["PutRequest", "DeleteRequest"]

/-- The object whose one field is an item. -/
def itemRecord (name : String) (item : Item) : Json := .object [(name, item.toWire)]

def itemOfRecord? (name : String) (json : Json) : Option Item := do
  let record ← Json.Record.ofJson? [name] json
  record.required? name Item.ofWire?

def toJson (write : WriteRequest) : Json :=
  .ofDictionary (Json.fieldsOf
    [("PutRequest", write.put.map (itemRecord "Item")),
      ("DeleteRequest", write.delete.map (itemRecord "Key"))])

def ofJson? (json : Json) : Option WriteRequest := do
  let record ← Json.Record.ofJson? fieldNames json
  let put ← record.optional? "PutRequest" (itemOfRecord? "Item")
  let delete ← record.optional? "DeleteRequest" (itemOfRecord? "Key")
  some ⟨put, delete⟩

end WriteRequest

structure BatchInput where
  requestItems : Dictionary (List WriteRequest)
deriving DecidableEq

namespace BatchInput

def fieldNames : List String := ["RequestItems"]

def writesToJson (writes : List WriteRequest) : Json := .array (writes.map WriteRequest.toJson)

def writesOfJson? : Json → Option (List WriteRequest) := Json.list? WriteRequest.ofJson?

def fields (input : BatchInput) : Dictionary Json :=
  Json.fieldsOf [("RequestItems", some (.ofDictionary (input.requestItems.map writesToJson)))]

def ofJson? (json : Json) : Option BatchInput := do
  let record ← Json.Record.ofJson? fieldNames json
  let requestItems ← record.required? "RequestItems" (Json.dictionary? writesOfJson?)
  some ⟨requestItems⟩

end BatchInput

end ItemQuery
