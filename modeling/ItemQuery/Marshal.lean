import ItemQuery.AttributeValue.Wire
import ItemQuery.Numeral

/-!
Marshaling: native values to attribute values and back.

A native value is lowered to JSON first, which can fail, and the JSON is then mapped onto the types
of the store, which cannot. Unmarshaling is total: the text of a number becomes an integer when it
is a whole numeral of the 64-bit range, otherwise the nearest finite double when it is a decimal
numeral, and otherwise stays a text. With wrapped numbers every number stays a text.
-/

namespace ItemQuery

/-! ## Native values -/

/-- A value as a program holds it, before it is lowered to JSON. -/
inductive Native
  | json (json : Json)
  | double (value : Double.Extended)
  | integer (value : Int)
  | char (value : Char)
  | unit
  | absent
  | present (value : Native)
  | bytes (bytes : List UInt8)
  | sequence (elements : List Native)
  | map (entries : List (Native × Native))

/-- What can be wrong with a value that is to be marshaled, or with the type it is to be read as. -/
inductive MarshalError
  | notSerializable
  | notDeserializable
  | notAMap (found : Json.Kind)
  | nonFinite (value : Double.Extended)
deriving DecidableEq

def MarshalError.message : MarshalError → String
  | .notSerializable => "failed to serialize value"
  | .notDeserializable => "failed to deserialize value"
  | .notAMap found => "expected a map of attributes, found " ++ found.text
  | .nonFinite value => "number " ++ AttributeValue.textOfDouble value ++ " is not finite"

namespace Native

def ofByte (byte : UInt8) : Json :=
  .ofInteger ⟨byte.toNat, by have := byte.toNat_lt; omega⟩

/-- The member name that a key of a map becomes: strings and characters are their own names, truth
values, whole numbers of any size and finite doubles are written out, and nothing else can be a
key. -/
def keyText? : Native → Option String
  | .json (.string text) => some text
  | .json (.bool value) => some (toString value)
  | .json (.number value) => some (String.ofList value.text)
  | .double (.finite real) => some (String.ofList (Json.Number.double real).text)
  | .integer value => some (String.ofList (Numeral.ofInteger value))
  | .char value => some (String.singleton value)
  | _ => none

mutual
/-- The JSON of a native value; none for a whole number beyond 64 bits or a key that cannot be one.
A double that is not finite becomes null. -/
def toJson? : Native → Option Json
  | .json lowered => some lowered
  | .double (.finite real) => some (.number (.double real))
  | .double _ => some .null
  | .integer value => (Json.Integer.ofInt? value).map Json.ofInteger
  | .char value => some (.string (String.singleton value))
  | .unit => some .null
  | .absent => some .null
  | .present value => toJson? value
  | .bytes content => some (.array (content.map ofByte))
  | .sequence elements => (elementsToJson? elements).map .array
  | .map entries => (entriesToJson? entries).map fun members =>
      .ofDictionary (Dictionary.ofList members)

def elementsToJson? : List Native → Option (List Json)
  | [] => some []
  | element :: rest => do
      let lowered ← toJson? element
      let others ← elementsToJson? rest
      some (lowered :: others)

def entriesToJson? : List (Native × Native) → Option (List (String × Json))
  | [] => some []
  | (key, value) :: rest => do
      let name ← keyText? key
      let lowered ← toJson? value
      let others ← entriesToJson? rest
      some ((name, lowered) :: others)
end

end Native

/-! ## To attribute values -/

namespace AttributeValue

mutual
/-- The attribute value of a JSON value: a number by its text, everything else by its kind. -/
def ofJson : Json → AttributeValue
  | .null => .null true
  | .bool value => .bool value
  | .number value => .number (String.ofList value.text)
  | .string text => .string text
  | .array elements => .list (elementsOfJson elements)
  | .object members => .map (entriesOfJson members)

def elementsOfJson : List Json → List AttributeValue
  | [] => []
  | element :: rest => ofJson element :: elementsOfJson rest

def entriesOfJson : List (String × Json) → List (String × AttributeValue)
  | [] => []
  | (name, member) :: rest => (name, ofJson member) :: entriesOfJson rest
end

def marshal (native : Native) : Except MarshalError AttributeValue :=
  match native.toJson? with
  | some json => .ok (ofJson json)
  | none => .error .notSerializable

/-- A finite double as the text of a number; the store has no other ones. -/
def ofDouble : Double.Extended → Except MarshalError AttributeValue
  | .finite double => .ok (ofAnyDouble (.finite double))
  | value => .error (.nonFinite value)

end AttributeValue

namespace Item

/-- The attributes of a native value, which must be a map once it is lowered. -/
def marshal (native : Native) : Except MarshalError Item :=
  match native.toJson? with
  | some (.object members) => .ok (Dictionary.ofList (AttributeValue.entriesOfJson members))
  | some other => .error (.notAMap other.kind)
  | none => .error .notSerializable

end Item

/-! ## Back to JSON -/

/-- How attribute values are unmarshaled. -/
structure Marshaler where
  /-- Whether the text of a number is kept as a string. -/
  wrapNumbers : Bool
deriving DecidableEq

namespace Marshaler

def number (marshaler : Marshaler) (text : String) : Json :=
  if marshaler.wrapNumbers then .string text
  else
    match (Numeral.integer? text.toList).bind Json.Integer.ofInt? with
    | some integer => .ofInteger integer
    | none =>
        match Numeral.double? text.toList with
        | some double => .number (.double double)
        | none => .string text

mutual
def unmarshal (marshaler : Marshaler) : AttributeValue → Json
  | .string text => .string text
  | .number text => marshaler.number text
  | .binary bytes => AttributeValue.bytesToBase64 bytes
  | .stringSet members => .array (members.map .string)
  | .numberSet members => .array (members.map marshaler.number)
  | .binarySet members => .array (members.map AttributeValue.bytesToBase64)
  | .bool value => .bool value
  | .null _ => .null
  | .list elements => .array (unmarshalElements marshaler elements)
  | .map entries => .object (unmarshalEntries marshaler entries)

def unmarshalElements (marshaler : Marshaler) : List AttributeValue → List Json
  | [] => []
  | element :: rest => unmarshal marshaler element :: unmarshalElements marshaler rest

def unmarshalEntries (marshaler : Marshaler) :
    List (String × AttributeValue) → List (String × Json)
  | [] => []
  | (name, value) :: rest => (name, unmarshal marshaler value) :: unmarshalEntries marshaler rest
end

def unmarshalItem (marshaler : Marshaler) (item : Item) : Json :=
  .ofDictionary (item.map marshaler.unmarshal)

/-- Unmarshal an item and read the result as a type. -/
def unmarshalInto (marshaler : Marshaler) (read? : Json → Option α) (item : Item) :
    Except MarshalError α :=
  match read? (marshaler.unmarshalItem item) with
  | some value => .ok value
  | none => .error .notDeserializable

end Marshaler

end ItemQuery
