import ItemQuery.Proofs.Marshaling
import ItemQuery.Proofs.Rounding.Numerals

/-!
Unmarshaling undoes marshaling.

What was JSON comes back as it was, numbers included, as the text of a number reads back as this
number (`Marshaler.number_text`); with wrapped numbers the text itself stands in its place. For an
item this holds of the object as a whole and so of each attribute.
-/

namespace ItemQuery

namespace Json

/-! ## Numbers in a JSON value -/

mutual
/-- Put something else in the place of every number, and leave everything else as it is. -/
def mapNumbers (transform : Number → Json) : Json → Json
  | .null => .null
  | .bool value => .bool value
  | .number value => transform value
  | .string value => .string value
  | .array elements => .array (mapNumbersOfAll transform elements)
  | .object members => .object (mapNumbersOfMembers transform members)

def mapNumbersOfAll (transform : Number → Json) : List Json → List Json
  | [] => []
  | element :: rest => element.mapNumbers transform :: mapNumbersOfAll transform rest

def mapNumbersOfMembers (transform : Number → Json) : List (String × Json) → List (String × Json)
  | [] => []
  | (name, value) :: rest =>
      (name, value.mapNumbers transform) :: mapNumbersOfMembers transform rest
end

mutual
theorem mapNumbers_number : ∀ json : Json, json.mapNumbers .number = json
  | .null | .bool _ | .number _ | .string _ => rfl
  | .array elements => by rw [mapNumbers, mapNumbersOfAll_number elements]
  | .object members => by rw [mapNumbers, mapNumbersOfMembers_number members]

theorem mapNumbersOfAll_number : ∀ elements : List Json,
    mapNumbersOfAll .number elements = elements
  | [] => rfl
  | element :: rest => by
      rw [mapNumbersOfAll, mapNumbers_number element, mapNumbersOfAll_number rest]

theorem mapNumbersOfMembers_number : ∀ members : List (String × Json),
    mapNumbersOfMembers .number members = members
  | [] => rfl
  | (name, value) :: rest => by
      rw [mapNumbersOfMembers, mapNumbers_number value, mapNumbersOfMembers_number rest]
end

/-- The value with the text of each number in the place of the number. -/
def numbersAsTexts (json : Json) : Json :=
  json.mapNumbers fun number => .string (text (.number number))

end Json

/-! ## Numbers -/

theorem Json.Integer.ofInt?_value (integer : Json.Integer) :
    Json.Integer.ofInt? integer.value = some integer :=
  dif_pos integer.inRange

namespace Marshaler

theorem number_text (marshaler : Marshaler) (number : Json.Number) :
    marshaler.number (String.ofList number.text) =
      if marshaler.wrapNumbers then .string (Json.text (.number number)) else .number number := by
  rw [Marshaler.number]
  split
  · rfl
  · cases number with
    | integer integer =>
        rw [String.toList_ofList, Json.Number.text, Numeral.integer?_ofInteger]
        simp [Json.Integer.ofInt?_value, Json.ofInteger]
    | double double =>
        have fraction : Json.layout.fraction = true := rfl
        rw [String.toList_ofList, Json.Number.text, Layout.integer?_double fraction,
          Layout.double?_double]
        rfl

mutual
theorem unmarshal_ofJson (marshaler : Marshaler) : ∀ json : Json,
    marshaler.unmarshal (.ofJson json) =
      json.mapNumbers fun number => marshaler.number (String.ofList number.text)
  | .null | .bool _ | .number _ | .string _ => rfl
  | .array elements => by
      rw [AttributeValue.ofJson, unmarshal, unmarshalElements_elementsOfJson marshaler elements,
        Json.mapNumbers]
  | .object members => by
      rw [AttributeValue.ofJson, unmarshal, unmarshalEntries_entriesOfJson marshaler members,
        Json.mapNumbers]

theorem unmarshalElements_elementsOfJson (marshaler : Marshaler) : ∀ elements : List Json,
    marshaler.unmarshalElements (AttributeValue.elementsOfJson elements) =
      Json.mapNumbersOfAll (fun number => marshaler.number (String.ofList number.text)) elements
  | [] => rfl
  | element :: rest => by
      rw [AttributeValue.elementsOfJson, unmarshalElements, unmarshal_ofJson marshaler element,
        unmarshalElements_elementsOfJson marshaler rest, Json.mapNumbersOfAll]

theorem unmarshalEntries_entriesOfJson (marshaler : Marshaler) : ∀ members : List (String × Json),
    marshaler.unmarshalEntries (AttributeValue.entriesOfJson members) =
      Json.mapNumbersOfMembers (fun number => marshaler.number (String.ofList number.text)) members
  | [] => rfl
  | (name, value) :: rest => by
      rw [AttributeValue.entriesOfJson, unmarshalEntries, unmarshal_ofJson marshaler value,
        unmarshalEntries_entriesOfJson marshaler rest, Json.mapNumbersOfMembers]
end

/-- A JSON value comes back as it was, or with texts in the places of its numbers. -/
theorem unmarshal_ofJson_eq (marshaler : Marshaler) (json : Json) :
    marshaler.unmarshal (.ofJson json) =
      if marshaler.wrapNumbers then json.numbersAsTexts else json := by
  rw [unmarshal_ofJson]
  simp only [number_text]
  split
  · rfl
  · exact Json.mapNumbers_number json

/-! ## Items -/

theorem unmarshalEntries_eq_map (marshaler : Marshaler) (entries : List (String × AttributeValue)) :
    marshaler.unmarshalEntries entries =
      entries.map fun entry => (entry.1, marshaler.unmarshal entry.2) := by
  induction entries with
  | nil => rfl
  | cons entry rest induction => rw [unmarshalEntries, induction, List.map_cons]

theorem unmarshalItem_eq (marshaler : Marshaler) (item : Item) :
    marshaler.unmarshalItem item = marshaler.unmarshal (.map item.entries) := by
  rw [unmarshal, unmarshalEntries_eq_map]
  rfl

theorem member?_unmarshalItem (marshaler : Marshaler) (item : Item) (name : String) :
    (marshaler.unmarshalItem item).member? name = (item.get? name).map marshaler.unmarshal :=
  Dictionary.get?_map marshaler.unmarshal item name

/-- An item has under each name what the object has there from which it was marshaled. -/
theorem get?_of_marshal_eq_ok {native : Native} (ordered : native.Ordered) {item : Item}
    {json : Json} (marshaled : Item.marshal native = .ok item)
    (lowered : native.toJson? = some json) (name : String) :
    item.get? name = (json.member? name).map .ofJson := by
  rcases Item.marshal_eq_ok_iff.mp marshaled with ⟨members, object, rfl⟩
  cases lowered.symm.trans object
  have same := Dictionary.ofList_entries
    (Dictionary.map AttributeValue.ofJson ⟨members, ordered.members object⟩)
  rw [AttributeValue.entriesOfJson_eq_map]
  exact (congrArg (Dictionary.get? · name) same).trans (Dictionary.get?_map _ _ name)

/-- All JSON comes back from the attribute value that it becomes. What is marshaled as an item is
what is marshaled as a map, with the same attributes, and each of them comes back. -/
theorem unmarshal_marshal (marshaler : Marshaler) :
    (∀ json : Json, marshaler.unmarshal (.ofJson json) =
      if marshaler.wrapNumbers then json.numbersAsTexts else json) ∧
    (∀ native : Native, (∃ item, Item.marshal native = .ok item) ↔
      ∃ entries, AttributeValue.marshal native = .ok (.map entries)) ∧
    ∀ native : Native, native.Ordered → ∀ item : Item,
      (Item.marshal native = .ok item ↔
        AttributeValue.marshal native = .ok (.map item.entries)) ∧
      ∀ json : Json, Item.marshal native = .ok item → native.toJson? = some json →
        (marshaler.unmarshalItem item =
          if marshaler.wrapNumbers then json.numbersAsTexts else json) ∧
        ∀ name, item.get? name = (json.member? name).map .ofJson ∧
          (marshaler.unmarshalItem item).member? name =
            (item.get? name).map marshaler.unmarshal := by
  refine ⟨marshaler.unmarshal_ofJson_eq, ?_, ?_⟩
  · intro native
    simp only [Item.marshal_eq_ok_iff, AttributeValue.marshal_eq_ok_iff,
      AttributeValue.ofJson_eq_map_iff]
    constructor
    · rintro ⟨item, members, lowered, _⟩
      exact ⟨AttributeValue.entriesOfJson members, .object members, lowered, members, rfl, rfl⟩
    · rintro ⟨entries, json, lowered, members, rfl, _⟩
      exact ⟨_, members, lowered, rfl⟩
  · intro native ordered item
    refine ⟨Item.marshal_eq_ok_iff_of_ordered ordered, ?_⟩
    intro json marshaled lowered
    have value := (Item.marshal_eq_ok_iff_of_ordered ordered).mp marshaled
    rcases AttributeValue.marshal_eq_ok_iff.mp value with ⟨other, known, same⟩
    cases lowered.symm.trans known
    refine ⟨?_, ?_⟩
    · rw [unmarshalItem_eq, ← same, unmarshal_ofJson_eq]
    · intro name
      exact ⟨get?_of_marshal_eq_ok ordered marshaled lowered name,
        marshaler.member?_unmarshalItem item name⟩

/-- The integers at both ends of the 64-bit range, and a double that is a whole number. -/
def limits : Native :=
  .map [(.char 'u', .integer 0xffffffffffffffff), (.char 'i', .integer (-0x8000000000000000)),
    (.char 'd', .double (.finite ⟨false, 0x3ff0000000000000, by decide⟩))]

theorem unmarshal_marshal_limits :
    ∃ item json, Item.marshal limits = .ok item ∧ limits.toJson? = some json ∧
      AttributeValue.marshal limits = .ok (.map item.entries) ∧
      (Marshaler.mk false).unmarshalItem item = json := by
  refine ⟨_, _, rfl, rfl, ?_⟩
  rcases unmarshal_marshal ⟨false⟩ with ⟨_, _, items⟩
  rcases items limits trivial _ with ⟨asMap, back⟩
  exact ⟨asMap.mp rfl, (back _ rfl rfl).1⟩

end Marshaler

end ItemQuery
