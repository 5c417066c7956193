import ItemQuery.AttributeValue

/-!
The wire form of attribute values.

On the wire a value is an object with one member, whose name is the tag of the type and whose value
is the payload. Bytes travel as Base64. Reading is strict: one member, a tag spelt exactly, a payload
of exactly the right kind.
-/

namespace ItemQuery
namespace AttributeValue

def bytesToBase64 (bytes : List UInt8) : Json := .string (String.ofList (Base64.encode bytes))

/-- The object whose one member is a tag with its payload. -/
def tagged (tag : TypeTag) (payload : Json) : Json := .object [(tag.text, payload)]

mutual
def toWire : AttributeValue → Json
  | .string text => tagged .s (.string text)
  | .number text => tagged .n (.string text)
  | .binary bytes => tagged .b (bytesToBase64 bytes)
  | .stringSet members => tagged .ss (.array (members.map .string))
  | .numberSet members => tagged .ns (.array (members.map .string))
  | .binarySet members => tagged .bs (.array (members.map bytesToBase64))
  | .bool value => tagged .bool (.bool value)
  | .null value => tagged .null (.bool value)
  | .list elements => tagged .l (.array (elementsToWire elements))
  | .map entries => tagged .m (.object (entriesToWire entries))

def elementsToWire : List AttributeValue → List Json
  | [] => []
  | element :: rest => element.toWire :: elementsToWire rest

def entriesToWire : List (String × AttributeValue) → List (String × Json)
  | [] => []
  | (name, value) :: rest => (name, value.toWire) :: entriesToWire rest
end

def bytesOfBase64? (json : Json) : Option (List UInt8) :=
  json.string?.bind fun text => Base64.decode? text.toList

mutual
def ofWire? : Json → Option AttributeValue
  | .object [(name, .array elements)] =>
      match TypeTag.ofText? name with
      | some .ss => (elements.mapM Json.string?).map .stringSet
      | some .ns => (elements.mapM Json.string?).map .numberSet
      | some .bs => (elements.mapM bytesOfBase64?).map .binarySet
      | some .l => (elementsOfWire? elements).map .list
      | _ => none
  | .object [(name, .object members)] =>
      match TypeTag.ofText? name with
      | some .m => (entriesOfWire? members).map .map
      | _ => none
  | .object [(name, .string text)] =>
      match TypeTag.ofText? name with
      | some .s => some (.string text)
      | some .n => some (.number text)
      | some .b => (Base64.decode? text.toList).map .binary
      | _ => none
  | .object [(name, .bool value)] =>
      match TypeTag.ofText? name with
      | some .bool => some (.bool value)
      | some .null => some (.null value)
      | _ => none
  | _ => none

def elementsOfWire? : List Json → Option (List AttributeValue)
  | [] => some []
  | element :: rest => do
      let value ← ofWire? element
      let values ← elementsOfWire? rest
      some (value :: values)

def entriesOfWire? : List (String × Json) → Option (List (String × AttributeValue))
  | [] => some []
  | (name, member) :: rest => do
      let value ← ofWire? member
      let entries ← entriesOfWire? rest
      some ((name, value) :: entries)
end

end AttributeValue

namespace Item

/-- An item on the wire is an object from attribute names to values. -/
def toWire (item : Item) : Json := .ofDictionary (item.map AttributeValue.toWire)

def ofWire? : Json → Option Item := Json.dictionary? AttributeValue.ofWire?

end Item

end ItemQuery
