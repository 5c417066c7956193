import ItemQuery.Json

/-!
Records: values with named fields, as they are read from JSON and written to it.

A record is written as an object. It is read from an object, whose other members are ignored, or
from an array that lists the fields in their order and has no more elements than there are fields.
A field is of one of three sorts.

* A *required* field must be there.
* An *optional* field may be null, and an object may leave it out.
* A *collected* field is empty where it is left out, but it may not be null.

An array that ends early leaves out its last fields, which only collected fields allow.
-/

namespace ItemQuery
namespace Json

/-- Where the fields of a record are found. -/
inductive Record
  | named (members : List (String × Json))
  | listed (members : List (String × Json))

namespace Record

/-- The fields of a value that is to be read as a record with these field names. -/
def ofJson? (fieldNames : List String) : Json → Option Record
  | .object members => some (.named members)
  | .array elements =>
      if elements.length ≤ fieldNames.length then some (.listed (fieldNames.zip elements)) else none
  | _ => none

def find? (record : Record) (name : String) : Option Json :=
  match record with
  | .named members => Dictionary.find? name members
  | .listed members => Dictionary.find? name members

def required? (record : Record) (name : String) (read? : Json → Option α) : Option α :=
  (record.find? name).bind read?

def optional? (record : Record) (name : String) (read? : Json → Option α) : Option (Option α) :=
  match record.find? name, record with
  | some .null, _ => some none
  | some json, _ => (read? json).map some
  | none, .named _ => some none
  | none, .listed _ => none

def collected? (record : Record) (name : String) (read? : Json → Option α) (absent : α) :
    Option α :=
  match record.find? name with
  | some json => read? json
  | none => some absent

end Record

/-- The members of a record: the fields that are there. -/
def fieldsOf (fields : List (String × Option Json)) : Dictionary Json :=
  Dictionary.ofList (fields.filterMap fun field => field.2.map (field.1, ·))

/-- A dictionary as a collected field, which is left out when it is empty. -/
def collected (write : α → Json) (dictionary : Dictionary α) : Option Json :=
  if dictionary.isEmpty then none else some (ofDictionary (dictionary.map write))

/-- One of a list of named alternatives: its name, or an object whose one member has that name and
holds null. -/
def alternative? (read? : String → Option α) : Json → Option α
  | .string name => read? name
  | .object [(name, .null)] => read? name
  | _ => none

/-- A whole number between two bounds, both included. -/
def boundedInteger? (least greatest : Int) (json : Json) : Option Int :=
  json.integer?.filter fun value => decide (least ≤ value ∧ value ≤ greatest)

end Json
end ItemQuery
