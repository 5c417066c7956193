import Mathlib.Data.List.Perm.Subperm
import ItemQuery.Proofs.Marshaling
import ItemQuery.Proofs.Updates.Growth
import ItemQuery.Proofs.WireForm.NormalForm

/-!
Attribute values whose maps have no order.

Two maps without an order are the same if they have as many entries and each entry of one is found
in the other (`AttributeValue.Alike`). A map that this library makes itself has its entries in the
order of their names, and so has every map inside it (`Item.ordered_of_marshal`). Among such values
the comparison that looks at the order as well says nothing else
(`AttributeValue.alike_iff_eq`).
-/

namespace ItemQuery

/-- Lists of entries in the order of their names are the same if one has all entries of the other
and is no longer than it. -/
theorem Dictionary.eq_of_subset {α : Type u} {first second : List (String × α)}
    (firstOrdered : first.Pairwise fun entry later => entry.1 < later.1)
    (secondOrdered : second.Pairwise fun entry later => entry.1 < later.1)
    (subset : first ⊆ second) (sameLength : first.length = second.length) : first = second := by
  have distinct : first.Nodup := Dictionary.nodup_entries ⟨first, firstOrdered⟩
  have perm : first.Perm second :=
    (List.subperm_of_subset distinct subset).perm_of_length_le (Nat.le_of_eq sameLength.symm)
  refine perm.eq_of_pairwise ?_ firstOrdered secondOrdered
  intro entry later _ _ before after
  exact absurd (String.lt_trans before after) (String.lt_irrefl _)

namespace AttributeValue

/-! ## Equality -/

mutual
/-- Whether two values are the same when maps are compared without regard to the order of their
entries. -/
def Alike : AttributeValue → AttributeValue → Prop
  | .list first, .list second => ElementsAlike first second
  | .map first, .map second => first.length = second.length ∧ EntriesAlike first second
  | first, second => first = second

def ElementsAlike : List AttributeValue → List AttributeValue → Prop
  | [], [] => True
  | first :: rest, second :: others => Alike first second ∧ ElementsAlike rest others
  | _, _ => False

/-- Whether each entry of a map has its like under the same name in another one. -/
def EntriesAlike : List (String × AttributeValue) → List (String × AttributeValue) → Prop
  | [], _ => True
  | (name, value) :: rest, others =>
      (∃ held, Dictionary.find? name others = some held ∧ Alike value held) ∧
        EntriesAlike rest others
end

mutual
/-- Whether the entries of every map in a value are in the order of their names. -/
def Ordered : AttributeValue → Prop
  | .list elements => ElementsOrdered elements
  | .map entries =>
      (entries.Pairwise fun first second => first.1 < second.1) ∧ EntriesOrdered entries
  | _ => True

def ElementsOrdered : List AttributeValue → Prop
  | [] => True
  | first :: rest => first.Ordered ∧ ElementsOrdered rest

def EntriesOrdered : List (String × AttributeValue) → Prop
  | [] => True
  | (_, value) :: rest => value.Ordered ∧ EntriesOrdered rest
end

theorem entriesOrdered_iff {entries : List (String × AttributeValue)} :
    EntriesOrdered entries ↔ ∀ entry ∈ entries, entry.2.Ordered := by
  induction entries with
  | nil => simp [EntriesOrdered]
  | cons first rest induction => rw [EntriesOrdered, induction, List.forall_mem_cons]

mutual
theorem alike_iff_eq : ∀ {first second : AttributeValue}, first.Ordered → second.Ordered →
    (first.Alike second ↔ first = second)
  | .list first, second, firstOrdered, secondOrdered => by
      cases second with
      | list second =>
          rw [Alike, elementsAlike_iff_eq firstOrdered secondOrdered, list.injEq]
      | _ => simp [Alike]
  | .map first, second, ⟨increasing, firstOrdered⟩, secondOrdered => by
      cases second with
      | map second =>
          rcases secondOrdered with ⟨othersIncreasing, secondOrdered⟩
          rw [Alike, entriesAlike_iff_subset firstOrdered othersIncreasing secondOrdered,
            map.injEq]
          constructor
          · rintro ⟨sameLength, subset⟩
            exact Dictionary.eq_of_subset increasing othersIncreasing subset sameLength
          · rintro rfl
            exact ⟨rfl, List.Subset.refl first⟩
      | _ => simp [Alike]
  | .string _, second, _, _ | .number _, second, _, _ | .binary _, second, _, _
  | .stringSet _, second, _, _ | .numberSet _, second, _, _ | .binarySet _, second, _, _
  | .bool _, second, _, _ | .null _, second, _, _ => by simp [Alike]

theorem elementsAlike_iff_eq : ∀ {first second : List AttributeValue},
    ElementsOrdered first → ElementsOrdered second →
      (ElementsAlike first second ↔ first = second)
  | [], second, _, _ => by cases second <;> simp [ElementsAlike]
  | head :: rest, second, ⟨headOrdered, restOrdered⟩, secondOrdered => by
      cases second with
      | nil => simp [ElementsAlike]
      | cons other others =>
          rw [ElementsAlike, alike_iff_eq headOrdered secondOrdered.1,
            elementsAlike_iff_eq restOrdered secondOrdered.2, List.cons.injEq]

/-- Entries have their likes among others in order exactly when they are among them. -/
theorem entriesAlike_iff_subset : ∀ {first second : List (String × AttributeValue)},
    EntriesOrdered first → (second.Pairwise fun entry later => entry.1 < later.1) →
      EntriesOrdered second → (EntriesAlike first second ↔ first ⊆ second)
  | [], _, _, _, _ => by simp [EntriesAlike]
  | (name, value) :: rest, second, ⟨valueOrdered, restOrdered⟩, increasing, secondOrdered => by
      have found (held : AttributeValue) :
          Dictionary.find? name second = some held ∧ value.Alike held ↔
            (name, held) ∈ second ∧ value = held := by
        rw [Dictionary.find?_eq_some_iff increasing]
        apply and_congr_right
        intro member
        exact alike_iff_eq valueOrdered (entriesOrdered_iff.mp secondOrdered _ member)
      simp only [EntriesAlike, found, exists_eq_right',
        entriesAlike_iff_subset restOrdered increasing secondOrdered, List.cons_subset]
end

/-! ## What marshaling makes -/

mutual
theorem ordered_ofJson : ∀ {json : Json}, json.Ordered → (ofJson json).Ordered
  | .array elements, ordered => elementsOrdered_ofJson ordered
  | .object members, ⟨increasing, ordered⟩ => by
      refine ⟨?_, entriesOrdered_ofJson ordered⟩
      rw [entriesOfJson_eq_map, List.pairwise_map]
      exact increasing
  | .null, _ | .bool _, _ | .number _, _ | .string _, _ => trivial

theorem elementsOrdered_ofJson : ∀ {elements : List Json},
    Json.ElementsOrdered elements → ElementsOrdered (elementsOfJson elements)
  | [], _ => trivial
  | _ :: _, ⟨first, rest⟩ => ⟨ordered_ofJson first, elementsOrdered_ofJson rest⟩

theorem entriesOrdered_ofJson : ∀ {members : List (String × Json)},
    Json.MembersOrdered members → EntriesOrdered (entriesOfJson members)
  | [], _ => trivial
  | _ :: _, ⟨first, rest⟩ => ⟨ordered_ofJson first, entriesOrdered_ofJson rest⟩
end

end AttributeValue

namespace Native

mutual
/-- Whether all JSON that a native value holds, at any depth, has its members in order. -/
def InOrder : Native → Prop
  | .json held => held.Ordered
  | .present value => value.InOrder
  | .sequence elements => AllInOrder elements
  | .map entries => ValuesInOrder entries
  | _ => True

def AllInOrder : List Native → Prop
  | [] => True
  | element :: rest => element.InOrder ∧ AllInOrder rest

def ValuesInOrder : List (Native × Native) → Prop
  | [] => True
  | (_, value) :: rest => value.InOrder ∧ ValuesInOrder rest
end

mutual
theorem ordered_of_toJson? : ∀ {native : Native} {json : Json}, native.InOrder →
    native.toJson? = some json → json.Ordered
  | .json held, _, inOrder, lowered => by
      cases lowered
      exact inOrder
  | .present value, _, inOrder, lowered => by
      rw [toJson?] at lowered
      have inner : value.InOrder := inOrder
      exact ordered_of_toJson? inner lowered
  | .integer value, _, _, lowered => by
      rw [toJson?] at lowered
      rcases Option.map_eq_some_iff.mp lowered with ⟨integer, _, rfl⟩
      trivial
  | .bytes content, _, _, lowered => by
      cases lowered
      rw [Json.ordered_array_iff, List.forall_mem_map]
      intro byte _
      trivial
  | .sequence elements, _, inOrder, lowered => by
      rw [toJson?] at lowered
      rcases Option.map_eq_some_iff.mp lowered with ⟨others, isOthers, rfl⟩
      exact elementsOrdered_of_toJson? inOrder isOthers
  | .map entries, _, inOrder, lowered => by
      rw [toJson?] at lowered
      rcases Option.map_eq_some_iff.mp lowered with ⟨members, isMembers, rfl⟩
      have ordered := Json.membersOrdered_iff.mp (membersOrdered_of_toJson? inOrder isMembers)
      refine Json.ordered_object_iff.mpr ⟨(Dictionary.ofList members).ordered, ?_⟩
      intro member present
      exact ordered member
        (Dictionary.mem_of_get?_ofList (Dictionary.get?_eq_some_iff.mpr present))
  | .double (.finite _), _, _, lowered | .double .nan, _, _, lowered
  | .double (.infinite _), _, _, lowered | .char _, _, _, lowered | .unit, _, _, lowered
  | .absent, _, _, lowered => by
      cases lowered
      trivial

theorem elementsOrdered_of_toJson? : ∀ {elements : List Native} {others : List Json},
    AllInOrder elements → elementsToJson? elements = some others → Json.ElementsOrdered others
  | [], _, _, lowered => by
      cases lowered
      trivial
  | element :: rest, others, ⟨elementInOrder, restInOrder⟩, lowered => by
      simp only [elementsToJson?, Option.bind_eq_bind, Option.bind_eq_some_iff] at lowered
      rcases lowered with ⟨first, isFirst, more, isMore, same⟩
      cases same
      exact ⟨ordered_of_toJson? elementInOrder isFirst,
        elementsOrdered_of_toJson? restInOrder isMore⟩

theorem membersOrdered_of_toJson? : ∀ {entries : List (Native × Native)}
    {members : List (String × Json)}, ValuesInOrder entries →
      entriesToJson? entries = some members → Json.MembersOrdered members
  | [], _, _, lowered => by
      cases lowered
      trivial
  | (key, value) :: rest, members, ⟨valueInOrder, restInOrder⟩, lowered => by
      simp only [entriesToJson?, Option.bind_eq_bind, Option.bind_eq_some_iff] at lowered
      rcases lowered with ⟨name, _, first, isFirst, more, isMore, same⟩
      cases same
      exact ⟨ordered_of_toJson? valueInOrder isFirst, membersOrdered_of_toJson? restInOrder isMore⟩
end

end Native

/-- The attributes of a marshaled item hold only maps in order. -/
theorem Item.ordered_of_marshal {native : Native} {item : Item} (inOrder : native.InOrder)
    (marshaled : Item.marshal native = .ok item) {name : String} {value : AttributeValue}
    (found : item.get? name = some value) : value.Ordered := by
  rcases Item.marshal_eq_ok_iff.mp marshaled with ⟨members, lowered, rfl⟩
  have member := Dictionary.mem_of_get?_ofList found
  rw [AttributeValue.entriesOfJson_eq_map] at member
  rcases List.mem_map.mp member with ⟨⟨_, json⟩, inMembers, same⟩
  cases same
  have ordered := Json.ordered_object_iff.mp (Native.ordered_of_toJson? inOrder lowered)
  exact AttributeValue.ordered_ofJson (ordered.2 _ inMembers)

end ItemQuery
