import ItemQuery.Input.Write
import ItemQuery.Error

/-!
Compiled requests: an operation and the body that is sent to it.

A body is the JSON form of an input with some of its fields replaced by the caller. It is a snapshot:
what happens to the draft afterwards does not reach it.
-/

namespace ItemQuery

inductive Operation
  | scan
  | query
  | updateItem
  | batchWriteItem
deriving DecidableEq

namespace Operation

def text : Operation → String
  | .scan => "Scan"
  | .query => "Query"
  | .updateItem => "UpdateItem"
  | .batchWriteItem => "BatchWriteItem"

/-- The name under which the store knows the operation. -/
def target (operation : Operation) : String := "DynamoDB_20120810." ++ operation.text

end Operation

/-- The input of one of the operations. -/
inductive Input
  | scan (input : ScanInput)
  | query (input : QueryInput)
  | update (input : UpdateInput)
  | batch (input : BatchInput)
deriving DecidableEq

namespace Input

def operation : Input → Operation
  | .scan _ => .scan
  | .query _ => .query
  | .update _ => .updateItem
  | .batch _ => .batchWriteItem

def fields : Input → Dictionary Json
  | .scan input => input.fields
  | .query input => input.fields
  | .update input => input.fields
  | .batch input => input.fields

def toJson (input : Input) : Json := .ofDictionary input.fields

/-- Read a value as the input of an operation. -/
def ofJson? (operation : Operation) (json : Json) : Option Input :=
  match operation with
  | .scan => (ScanInput.ofJson? json).map .scan
  | .query => (QueryInput.ofJson? json).map .query
  | .updateItem => (UpdateInput.ofJson? json).map .update
  | .batchWriteItem => (BatchInput.ofJson? json).map .batch

end Input

structure Request where
  operation : Operation
  body : Dictionary Json
deriving DecidableEq

namespace Request

/-- The request of an input. Each override takes the place of the field of its name, and joins the
body where there is no such field. -/
def ofInput (input : Input) (overrides : Dictionary Json) : Request :=
  ⟨input.operation, input.fields.extend overrides⟩

def toJson (request : Request) : Json := .ofDictionary request.body

/-- Whether two requests ask the same operation for the same, numbers compared by value. -/
def equals (first second : Request) : Bool :=
  first.operation = second.operation && first.toJson.equals second.toJson

def get? (request : Request) (field : String) : Option Json := request.body.get? field

/-- A field that holds a string. -/
def text? (request : Request) (field : String) : Option String :=
  (request.get? field).bind Json.string?

def tableName? (request : Request) : Option String := request.text? "TableName"

def indexName? (request : Request) : Option String := request.text? "IndexName"

def filterExpression? (request : Request) : Option String := request.text? "FilterExpression"

def keyConditionExpression? (request : Request) : Option String :=
  request.text? "KeyConditionExpression"

def updateExpression? (request : Request) : Option String := request.text? "UpdateExpression"

/-- Read the body as the input of an operation. -/
def toInput (request : Request) (operation : Operation) : Except QueryError Input :=
  match Input.ofJson? operation request.toJson with
  | some input => .ok input
  | none => .error .notAnInput

end Request

end ItemQuery
