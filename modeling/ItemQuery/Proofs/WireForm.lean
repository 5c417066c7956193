import ItemQuery.Proofs.Fields

/-!
The wire form loses nothing.

Whatever this library writes into a field, it reads back as it was: an attribute value
(`AttributeValue.ofWire?_toWire`), an item, a dictionary of names, one of a list of named
alternatives, and a limit.
-/

namespace ItemQuery

namespace Json

variable {α : Type}

theorem mapM_map_write {β : Type} {read? : β → Option α} {write : α → β}
    (readBack : ∀ value, read? (write value) = some value) (values : List α) :
    (values.map write).mapM read? = some values := by
  induction values with
  | nil => rfl
  | cons value rest induction =>
      rw [List.map_cons, List.mapM_cons, readBack, induction]
      rfl

theorem list?_array_map {read? : Json → Option α} {write : α → Json}
    (readBack : ∀ value, read? (write value) = some value) (values : List α) :
    list? read? (.array (values.map write)) = some values :=
  mapM_map_write readBack values

theorem dictionary?_ofDictionary_map {read? : Json → Option α} {write : α → Json}
    (readBack : ∀ value, read? (write value) = some value) (dictionary : Dictionary α) :
    dictionary? read? (ofDictionary (dictionary.map write)) = some dictionary := by
  have entries : (dictionary.map write).entries.mapM
      (fun member => (read? member.2).map (member.1, ·)) = some dictionary.entries :=
    mapM_map_write (fun entry => by rw [readBack]; rfl) dictionary.entries
  simp only [dictionary?, ofDictionary, entries, Option.map_some, Dictionary.ofList_entries]

end Json

/-! ## Attribute values -/

namespace AttributeValue

theorem bytesOfBase64?_bytesToBase64 (bytes : List UInt8) :
    bytesOfBase64? (bytesToBase64 bytes) = some bytes := by
  simp [bytesOfBase64?, bytesToBase64, Json.string?, Base64.decode?_encode]

theorem mapM_string? (texts : List String) :
    (texts.map Json.string).mapM Json.string? = some texts :=
  have readBack : ∀ text, Json.string? (.string text) = some text := fun _ => rfl
  Json.mapM_map_write readBack texts

mutual
/-- A value is read from the wire as it was written. -/
theorem ofWire?_toWire : ∀ value : AttributeValue, ofWire? value.toWire = some value
  | .string _ | .number _ | .bool _ | .null _ => rfl
  | .binary bytes => by
      simp [toWire, tagged, ofWire?, bytesToBase64, TypeTag.ofText?_text, Base64.decode?_encode]
  | .stringSet members => by
      simp only [toWire, tagged, ofWire?, TypeTag.ofText?_text, mapM_string?, Option.map_some]
  | .numberSet members => by
      simp only [toWire, tagged, ofWire?, TypeTag.ofText?_text, mapM_string?, Option.map_some]
  | .binarySet members => by
      have readBack : (members.map bytesToBase64).mapM bytesOfBase64? = some members :=
        Json.mapM_map_write bytesOfBase64?_bytesToBase64 members
      simp only [toWire, tagged, ofWire?, TypeTag.ofText?_text, readBack, Option.map_some]
  | .list elements => by
      simp [toWire, tagged, ofWire?, TypeTag.ofText?_text, elementsOfWire?_elementsToWire elements]
  | .map entries => by
      simp [toWire, tagged, ofWire?, TypeTag.ofText?_text, entriesOfWire?_entriesToWire entries]

theorem elementsOfWire?_elementsToWire : ∀ elements : List AttributeValue,
    elementsOfWire? (elementsToWire elements) = some elements
  | [] => rfl
  | element :: rest => by
      simp [elementsToWire, elementsOfWire?, ofWire?_toWire element,
        elementsOfWire?_elementsToWire rest]

theorem entriesOfWire?_entriesToWire : ∀ entries : List (String × AttributeValue),
    entriesOfWire? (entriesToWire entries) = some entries
  | [] => rfl
  | (name, value) :: rest => by
      simp [entriesToWire, entriesOfWire?, ofWire?_toWire value,
        entriesOfWire?_entriesToWire rest]
end

end AttributeValue

theorem Item.ofWire?_toWire (item : Item) : Item.ofWire? item.toWire = some item :=
  Json.dictionary?_ofDictionary_map AttributeValue.ofWire?_toWire item

/-! ## Fields -/

theorem Select.ofJson?_toJson (select : Select) : Select.ofJson? select.toJson = some select :=
  Select.ofText?_text select

theorem ReturnValue.ofJson?_toJson (value : ReturnValue) :
    ReturnValue.ofJson? value.toJson = some value :=
  ReturnValue.ofText?_text value

theorem limitOfJson?_limitToJson (limit : Int32) :
    limitOfJson? (limitToJson limit) = some limit := by
  have least := limit.le_toInt
  have greatest := limit.toInt_lt
  have inRange : -0x80000000 ≤ limit.toInt ∧ limit.toInt ≤ 0x7fffffff := by omega
  have kept : (limitToJson limit).boundedInteger? (-0x80000000) 0x7fffffff = some limit.toInt := by
    simp [Json.boundedInteger?, limitToJson, Json.integer?, Json.ofInteger, Option.filter, inRange]
  rw [limitOfJson?, kept, Option.map_some, Int32.ofInt_toInt]

end ItemQuery
