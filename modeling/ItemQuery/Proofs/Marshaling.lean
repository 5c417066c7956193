import ItemQuery.Proofs.Bindings
import ItemQuery.Marshal

/-!
What marshaling makes.

A native value is marshaled exactly when it has a JSON form, and as an item exactly when that form
is an object (`AttributeValue.marshal_eq_ok_iff`, `Item.marshal_eq_ok_iff`). Where the members of
the object are in order, as they are in all JSON that a program holds, the item has the entries of
the map as which the value is marshaled (`Item.marshal_eq_ok_iff_of_ordered`).
-/

namespace ItemQuery

theorem MarshalError.bind_eq_ok_iff {first : Except MarshalError α}
    {next : α → Except MarshalError β} {result : β} :
    (first >>= next) = .ok result ↔ ∃ value, first = .ok value ∧ next value = .ok result := by
  cases first with
  | error error => simp [bind, Except.bind]
  | ok value => simp [bind, Except.bind]

/-! ## Values -/

namespace AttributeValue

theorem marshal_eq_ok_iff {native : Native} {value : AttributeValue} :
    marshal native = .ok value ↔ ∃ json, native.toJson? = some json ∧ ofJson json = value := by
  rw [marshal]
  cases native.toJson? with
  | none => simp
  | some json => simp

theorem entriesOfJson_eq_map (members : List (String × Json)) :
    entriesOfJson members = members.map fun member => (member.1, ofJson member.2) := by
  induction members with
  | nil => rfl
  | cons member rest induction => rw [entriesOfJson, induction, List.map_cons]

theorem ofJson_eq_map_iff {json : Json} {entries : List (String × AttributeValue)} :
    ofJson json = .map entries ↔
      ∃ members, json = .object members ∧ entriesOfJson members = entries := by
  cases json <;> simp [ofJson]

end AttributeValue

/-! ## Items -/

theorem Item.marshal_eq_ok_iff {native : Native} {item : Item} :
    Item.marshal native = .ok item ↔ ∃ members, native.toJson? = some (.object members) ∧
      Dictionary.ofList (AttributeValue.entriesOfJson members) = item := by
  rw [Item.marshal]
  cases native.toJson? with
  | none => simp
  | some json => cases json <;> simp

/-- Whether a native value that is a JSON object has its members in the order of their names. What
becomes an object only when it is lowered has them so in any case. -/
def Native.Ordered : Native → Prop
  | .json (.object members) => members.Pairwise fun first second => first.1 < second.1
  | .present value => value.Ordered
  | _ => True

theorem Native.Ordered.members : ∀ {native : Native} {members : List (String × Json)},
    native.Ordered → native.toJson? = some (.object members) →
      members.Pairwise fun first second => first.1 < second.1
  | .json held, members, ordered, lowered => by
      cases lowered
      exact ordered
  | .present value, members, ordered, lowered => by
      have inner : value.Ordered := ordered
      rw [toJson?] at lowered
      exact inner.members lowered
  | .map entries, members, ordered, lowered => by
      rw [toJson?] at lowered
      rcases Option.map_eq_some_iff.mp lowered with ⟨named, _, same⟩
      cases same
      exact (Dictionary.ofList named).ordered
  | .integer value, members, ordered, lowered => by
      rw [toJson?] at lowered
      rcases Option.map_eq_some_iff.mp lowered with ⟨integer, _, same⟩
      cases same
  | .sequence elements, members, ordered, lowered => by
      rw [toJson?] at lowered
      rcases Option.map_eq_some_iff.mp lowered with ⟨others, _, same⟩
      cases same
  | .double (.finite _), _, _, lowered | .double .nan, _, _, lowered
  | .double (.infinite _), _, _, lowered | .char _, _, _, lowered | .unit, _, _, lowered
  | .absent, _, _, lowered | .bytes _, _, _, lowered => by
      cases lowered

/-- A value is marshaled as an item exactly when it is marshaled as a map, and with its entries. -/
theorem Item.marshal_eq_ok_iff_of_ordered {native : Native} (ordered : native.Ordered)
    {item : Item} :
    Item.marshal native = .ok item ↔ AttributeValue.marshal native = .ok (.map item.entries) := by
  have entries {members : List (String × Json)}
      (lowered : native.toJson? = some (.object members)) :
      (Dictionary.ofList (AttributeValue.entriesOfJson members)).entries =
        AttributeValue.entriesOfJson members := by
    apply Dictionary.entries_ofList
    rw [AttributeValue.entriesOfJson_eq_map, List.pairwise_map]
    exact ordered.members lowered
  rw [Item.marshal_eq_ok_iff, AttributeValue.marshal_eq_ok_iff]
  simp only [AttributeValue.ofJson_eq_map_iff]
  constructor
  · rintro ⟨members, lowered, rfl⟩
    exact ⟨.object members, lowered, members, rfl, (entries lowered).symm⟩
  · rintro ⟨json, lowered, members, rfl, same⟩
    refine ⟨members, lowered, ?_⟩
    rw [same]
    exact Dictionary.ofList_entries item

end ItemQuery
