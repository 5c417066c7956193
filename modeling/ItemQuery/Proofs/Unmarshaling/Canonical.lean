import ItemQuery.Proofs.Unmarshaling

/-!
Attribute values that come back when they are unmarshaled and marshaled again.

JSON has no bytes, no sets and only one null, so that values of these types come back as values of
other types. A number comes back only if it is read as a number whose text it is. Every other value
comes back if its parts do, at any depth (`AttributeValue.ofJson_unmarshal_eq_self_iff`), and with
unwrapped numbers those that do are what marshaling makes.
-/

namespace ItemQuery

namespace AttributeValue

/-! ## Parts -/

/-- The occurrence of a value in another, at any depth. Every value occurs in itself. -/
inductive Occurs : AttributeValue → AttributeValue → Prop
  | here {value : AttributeValue} : Occurs value value
  | element {part element : AttributeValue} {elements : List AttributeValue}
      (member : element ∈ elements) (inside : Occurs part element) : Occurs part (.list elements)
  | entry {part value : AttributeValue} {name : String} {entries : List (String × AttributeValue)}
      (member : (name, value) ∈ entries) (inside : Occurs part value) : Occurs part (.map entries)

/-- Whether JSON lacks the type of a value, or the value itself, as with the second null. -/
def IsForeign : AttributeValue → Prop
  | .binary _ | .stringSet _ | .numberSet _ | .binarySet _ => True
  | .null value => value = false
  | _ => False

/-- Whether marshaling gives the text of a number back to what the text is read as. -/
def KeepsNumber (marshaler : Marshaler) (text : String) : Prop :=
  ∃ number : Json.Number, marshaler.number text = .number number ∧
    String.ofList number.text = text

/-- Whether a value comes back provided that its parts do. -/
def Stays (marshaler : Marshaler) (value : AttributeValue) : Prop :=
  ¬ value.IsForeign ∧ ∀ text, value = .number text → KeepsNumber marshaler text

/-- Whether a value and all that occurs in it comes back. -/
def Canonical (marshaler : Marshaler) (value : AttributeValue) : Prop :=
  ∀ part : AttributeValue, Occurs part value → part.Stays marshaler

variable {marshaler : Marshaler} {value : AttributeValue}

theorem canonical_list_iff {elements : List AttributeValue} :
    (list elements).Canonical marshaler ↔ ∀ element ∈ elements, element.Canonical marshaler := by
  constructor
  · intro canonical element member part inside
    exact canonical part (.element member inside)
  · intro canonical part occurs
    cases occurs with
    | here => exact ⟨id, nofun⟩
    | element member inside => exact canonical _ member part inside

theorem canonical_map_iff {entries : List (String × AttributeValue)} :
    (map entries).Canonical marshaler ↔ ∀ entry ∈ entries, entry.2.Canonical marshaler := by
  constructor
  · intro canonical entry member part inside
    exact canonical part (.entry member inside)
  · intro canonical part occurs
    cases occurs with
    | here => exact ⟨id, nofun⟩
    | entry member inside => exact canonical _ member part inside

/-- Whether a value is of a type that has no parts. -/
def IsAtom : AttributeValue → Prop
  | .list _ | .map _ => False
  | _ => True

theorem canonical_iff_of_isAtom (value : AttributeValue) (isAtom : value.IsAtom) :
    value.Canonical marshaler ↔ value.Stays marshaler := by
  constructor
  · exact fun canonical => canonical value .here
  · intro stays part occurs
    cases occurs with
    | here => exact stays
    | element | entry => cases isAtom

/-! ## Values that come back -/

theorem ofJson_eq_number_iff {json : Json} {text : String} :
    ofJson json = .number text ↔
      ∃ number : Json.Number, json = .number number ∧ String.ofList number.text = text := by
  cases json <;> simp [ofJson]

mutual
theorem ofJson_unmarshal_eq_self_iff (marshaler : Marshaler) : ∀ value : AttributeValue,
    ofJson (marshaler.unmarshal value) = value ↔ value.Canonical marshaler
  | .string text =>
      iff_of_true rfl ((canonical_iff_of_isAtom (string text) trivial).mpr ⟨id, nofun⟩)
  | .bool value =>
      iff_of_true rfl ((canonical_iff_of_isAtom (bool value) trivial).mpr ⟨id, nofun⟩)
  | .binary _ | .stringSet _ | .numberSet _ | .binarySet _ =>
      iff_of_false nofun fun canonical => (canonical _ .here).1 trivial
  | .null value => by
      rw [canonical_iff_of_isAtom (null value) trivial]
      cases value with
      | true => exact iff_of_true rfl ⟨nofun, nofun⟩
      | false => exact iff_of_false nofun fun stays => stays.1 rfl
  | .number text => by
      rw [canonical_iff_of_isAtom (number text) trivial, Marshaler.unmarshal, ofJson_eq_number_iff]
      constructor
      · intro keeps
        exact ⟨id, fun _ same => (number.inj same) ▸ keeps⟩
      · exact fun stays => stays.2 text rfl
  | .list elements => by
      rw [Marshaler.unmarshal, ofJson, list.injEq, canonical_list_iff]
      exact elementsOfJson_unmarshalElements_iff marshaler elements
  | .map entries => by
      rw [Marshaler.unmarshal, ofJson, map.injEq, canonical_map_iff]
      exact entriesOfJson_unmarshalEntries_iff marshaler entries

theorem elementsOfJson_unmarshalElements_iff (marshaler : Marshaler) :
    ∀ elements : List AttributeValue,
      elementsOfJson (marshaler.unmarshalElements elements) = elements ↔
        ∀ element ∈ elements, element.Canonical marshaler
  | [] => by simp [Marshaler.unmarshalElements, elementsOfJson]
  | element :: rest => by
      rw [Marshaler.unmarshalElements, elementsOfJson, List.cons.injEq, List.forall_mem_cons,
        ofJson_unmarshal_eq_self_iff marshaler element,
        elementsOfJson_unmarshalElements_iff marshaler rest]

theorem entriesOfJson_unmarshalEntries_iff (marshaler : Marshaler) :
    ∀ entries : List (String × AttributeValue),
      entriesOfJson (marshaler.unmarshalEntries entries) = entries ↔
        ∀ entry ∈ entries, entry.2.Canonical marshaler
  | [] => by simp [Marshaler.unmarshalEntries, entriesOfJson]
  | (name, value) :: rest => by
      rw [Marshaler.unmarshalEntries, entriesOfJson, List.cons.injEq, List.forall_mem_cons,
        Prod.mk.injEq, ofJson_unmarshal_eq_self_iff marshaler value,
        entriesOfJson_unmarshalEntries_iff marshaler rest]
      simp
end

theorem not_keepsNumber (wrapped : marshaler.wrapNumbers = true) (text : String) :
    ¬ KeepsNumber marshaler text := by
  rintro ⟨number, read, _⟩
  rw [Marshaler.number, wrapped, if_pos rfl] at read
  cases read

/-- With wrapped numbers a value comes back exactly if no number occurs in it nor anything that JSON
lacks. Without, a number may occur if it is read as a JSON number whose text it is, and what comes
back is then what marshaling makes of JSON. -/
theorem ofJson_unmarshal_eq_iff (value : AttributeValue) :
    (ofJson (Marshaler.unmarshal ⟨false⟩ value) = value ↔
      ∀ part : AttributeValue, Occurs part value → ¬ part.IsForeign ∧
        ∀ text, part = .number text → ∃ number : Json.Number,
          Marshaler.unmarshal ⟨false⟩ part = .number number ∧
            String.ofList number.text = text) ∧
    (ofJson (Marshaler.unmarshal ⟨true⟩ value) = value ↔
      ∀ part : AttributeValue, Occurs part value → ¬ part.IsForeign ∧
        ∀ text, part ≠ .number text) ∧
    (ofJson (Marshaler.unmarshal ⟨false⟩ value) = value ↔ ∃ json, ofJson json = value) := by
  refine ⟨?_, ?_, ?_⟩
  · rw [ofJson_unmarshal_eq_self_iff]
    refine forall₂_congr fun part _ => and_congr_right fun _ => forall_congr' fun text => ?_
    apply imp_congr_right
    rintro rfl
    rfl
  · rw [ofJson_unmarshal_eq_self_iff]
    refine forall₂_congr fun part _ => and_congr_right fun _ => forall_congr' fun text => ?_
    exact imp_congr_right fun _ => iff_of_false (not_keepsNumber rfl text) id
  · constructor
    · exact fun same => ⟨_, same⟩
    · rintro ⟨json, rfl⟩
      rw [Marshaler.unmarshal_ofJson_eq]
      rfl

end AttributeValue

end ItemQuery
