import ItemQuery.AttributeValue.Wire
import ItemQuery.Json.Record

/-!
The inputs of the two reading operations, `Scan` and `Query`, and their JSON form.

A field that is absent and a dictionary that is empty are left out of the JSON form.
-/

namespace ItemQuery

/-- Which attributes a read returns. -/
inductive Select
  | allAttributes
  | allProjectedAttributes
  | specificAttributes
  | count
deriving DecidableEq

namespace Select

def text : Select → String
  | .allAttributes => "ALL_ATTRIBUTES"
  | .allProjectedAttributes => "ALL_PROJECTED_ATTRIBUTES"
  | .specificAttributes => "SPECIFIC_ATTRIBUTES"
  | .count => "COUNT"

def all : List Select := [.allAttributes, .allProjectedAttributes, .specificAttributes, .count]

def ofText? (text : String) : Option Select := all.find? fun select => select.text = text

theorem ofText?_text (select : Select) : ofText? select.text = some select := by
  cases select <;> decide

def toJson (select : Select) : Json := .string select.text

def ofJson? : Json → Option Select := Json.alternative? ofText?

end Select

/-! ## Fields -/

/-- A whole number of 32 bits, as which limits travel. -/
def limitToJson (limit : Int32) : Json :=
  .ofInteger ⟨limit.toInt, by have := limit.le_toInt; have := limit.toInt_lt; omega⟩

def limitOfJson? (json : Json) : Option Int32 :=
  (json.boundedInteger? (-0x80000000) 0x7fffffff).map Int32.ofInt

def namesToJson : Dictionary String → Option Json := Json.collected .string

def namesOfJson? : Json → Option (Dictionary String) := Json.dictionary? Json.string?

def itemToJson : Item → Option Json := Json.collected AttributeValue.toWire

/-! ## Scan -/

structure ScanInput where
  tableName : String
  indexName : Option String
  filterExpression : Option String
  projectionExpression : Option String
  attributeNames : Dictionary String
  attributeValues : Bindings
  limit : Option Int32
  exclusiveStartKey : Item
  select : Option Select
  consistentRead : Option Bool
deriving DecidableEq

namespace ScanInput

def fieldNames : List String :=
  ["TableName", "IndexName", "FilterExpression", "ProjectionExpression",
    "ExpressionAttributeNames", "ExpressionAttributeValues", "Limit", "ExclusiveStartKey",
    "Select", "ConsistentRead"]

def fields (input : ScanInput) : Dictionary Json :=
  Json.fieldsOf
    [("TableName", some (.string input.tableName)),
      ("IndexName", input.indexName.map .string),
      ("FilterExpression", input.filterExpression.map .string),
      ("ProjectionExpression", input.projectionExpression.map .string),
      ("ExpressionAttributeNames", namesToJson input.attributeNames),
      ("ExpressionAttributeValues", itemToJson input.attributeValues),
      ("Limit", input.limit.map limitToJson),
      ("ExclusiveStartKey", itemToJson input.exclusiveStartKey),
      ("Select", input.select.map Select.toJson),
      ("ConsistentRead", input.consistentRead.map .bool)]

def ofJson? (json : Json) : Option ScanInput := do
  let record ← Json.Record.ofJson? fieldNames json
  let tableName ← record.required? "TableName" Json.string?
  let indexName ← record.optional? "IndexName" Json.string?
  let filterExpression ← record.optional? "FilterExpression" Json.string?
  let projectionExpression ← record.optional? "ProjectionExpression" Json.string?
  let attributeNames ← record.collected? "ExpressionAttributeNames" namesOfJson? .empty
  let attributeValues ← record.collected? "ExpressionAttributeValues" Item.ofWire? .empty
  let limit ← record.optional? "Limit" limitOfJson?
  let exclusiveStartKey ← record.collected? "ExclusiveStartKey" Item.ofWire? .empty
  let select ← record.optional? "Select" Select.ofJson?
  let consistentRead ← record.optional? "ConsistentRead" Json.bool?
  some { tableName, indexName, filterExpression, projectionExpression, attributeNames,
         attributeValues, limit, exclusiveStartKey, select, consistentRead }

end ScanInput

/-! ## Query -/

structure QueryInput where
  tableName : String
  indexName : Option String
  keyConditionExpression : Option String
  filterExpression : Option String
  projectionExpression : Option String
  attributeNames : Dictionary String
  attributeValues : Bindings
  scanIndexForward : Option Bool
  limit : Option Int32
  exclusiveStartKey : Item
  select : Option Select
  consistentRead : Option Bool
deriving DecidableEq

namespace QueryInput

def fieldNames : List String :=
  ["TableName", "IndexName", "KeyConditionExpression", "FilterExpression",
    "ProjectionExpression", "ExpressionAttributeNames", "ExpressionAttributeValues",
    "ScanIndexForward", "Limit", "ExclusiveStartKey", "Select", "ConsistentRead"]

def fields (input : QueryInput) : Dictionary Json :=
  Json.fieldsOf
    [("TableName", some (.string input.tableName)),
      ("IndexName", input.indexName.map .string),
      ("KeyConditionExpression", input.keyConditionExpression.map .string),
      ("FilterExpression", input.filterExpression.map .string),
      ("ProjectionExpression", input.projectionExpression.map .string),
      ("ExpressionAttributeNames", namesToJson input.attributeNames),
      ("ExpressionAttributeValues", itemToJson input.attributeValues),
      ("ScanIndexForward", input.scanIndexForward.map .bool),
      ("Limit", input.limit.map limitToJson),
      ("ExclusiveStartKey", itemToJson input.exclusiveStartKey),
      ("Select", input.select.map Select.toJson),
      ("ConsistentRead", input.consistentRead.map .bool)]

def ofJson? (json : Json) : Option QueryInput := do
  let record ← Json.Record.ofJson? fieldNames json
  let tableName ← record.required? "TableName" Json.string?
  let indexName ← record.optional? "IndexName" Json.string?
  let keyConditionExpression ← record.optional? "KeyConditionExpression" Json.string?
  let filterExpression ← record.optional? "FilterExpression" Json.string?
  let projectionExpression ← record.optional? "ProjectionExpression" Json.string?
  let attributeNames ← record.collected? "ExpressionAttributeNames" namesOfJson? .empty
  let attributeValues ← record.collected? "ExpressionAttributeValues" Item.ofWire? .empty
  let scanIndexForward ← record.optional? "ScanIndexForward" Json.bool?
  let limit ← record.optional? "Limit" limitOfJson?
  let exclusiveStartKey ← record.collected? "ExclusiveStartKey" Item.ofWire? .empty
  let select ← record.optional? "Select" Select.ofJson?
  let consistentRead ← record.optional? "ConsistentRead" Json.bool?
  some { tableName, indexName, keyConditionExpression, filterExpression, projectionExpression,
         attributeNames, attributeValues, scanIndexForward, limit, exclusiveStartKey, select,
         consistentRead }

end QueryInput

end ItemQuery
