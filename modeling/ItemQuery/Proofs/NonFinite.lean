import ItemQuery.Proofs.Batches
import ItemQuery.Proofs.Updates.Growth

/-!
What becomes of doubles that are not finite.

A single double is refused by `AttributeValue.ofDouble` where it is not finite. Marshaling lowers a
native value to JSON first, where such a double is null already, and so never meets it: it does with
a value just what it does with the value that has nothing in the place of each such double
(`Native.toJson?_nulled`). Whether it fails depends on whole numbers and keys alone
(`Native.isSome_toJson?`), and the same holds of all that marshals its arguments.
-/

namespace ItemQuery

namespace Native

/-! ## Doubles that are not finite -/

mutual
/-- Whether a double that is not finite occurs, at the top or inside of a list, of the values of a
map or of what may be absent. -/
def HasNonFinite : Native → Prop
  | .double .nan => True
  | .double (.infinite _) => True
  | .present value => value.HasNonFinite
  | .sequence elements => AnyHasNonFinite elements
  | .map entries => AnyValueHasNonFinite entries
  | _ => False

def AnyHasNonFinite : List Native → Prop
  | [] => False
  | element :: rest => element.HasNonFinite ∨ AnyHasNonFinite rest

def AnyValueHasNonFinite : List (Native × Native) → Prop
  | [] => False
  | (_, value) :: rest => value.HasNonFinite ∨ AnyValueHasNonFinite rest
end

mutual
/-- The value with nothing in the place of each double that is not finite. -/
def nulled : Native → Native
  | .double .nan => .unit
  | .double (.infinite _) => .unit
  | .present value => .present value.nulled
  | .sequence elements => .sequence (nulledElements elements)
  | .map entries => .map (nulledEntries entries)
  | other => other

def nulledElements : List Native → List Native
  | [] => []
  | element :: rest => element.nulled :: nulledElements rest

def nulledEntries : List (Native × Native) → List (Native × Native)
  | [] => []
  | (key, value) :: rest => (key, value.nulled) :: nulledEntries rest
end

mutual
/-- The JSON form does not tell a double that is not finite from nothing. -/
theorem toJson?_nulled : ∀ native : Native, native.nulled.toJson? = native.toJson?
  | .double .nan | .double (.infinite _) | .double (.finite _) => rfl
  | .json _ | .integer _ | .char _ | .unit | .absent | .bytes _ => rfl
  | .present value => by
      rw [nulled, toJson?, toJson?, toJson?_nulled value]
  | .sequence elements => by
      rw [nulled, toJson?, toJson?, elementsToJson?_nulledElements elements]
  | .map entries => by
      rw [nulled, toJson?, toJson?, entriesToJson?_nulledEntries entries]

theorem elementsToJson?_nulledElements : ∀ elements : List Native,
    elementsToJson? (nulledElements elements) = elementsToJson? elements
  | [] => rfl
  | element :: rest => by
      rw [nulledElements, elementsToJson?, elementsToJson?, toJson?_nulled element,
        elementsToJson?_nulledElements rest]

theorem entriesToJson?_nulledEntries : ∀ entries : List (Native × Native),
    entriesToJson? (nulledEntries entries) = entriesToJson? entries
  | [] => rfl
  | (key, value) :: rest => by
      rw [nulledEntries, entriesToJson?, entriesToJson?, toJson?_nulled value,
        entriesToJson?_nulledEntries rest]
end

mutual
theorem not_hasNonFinite_nulled : ∀ native : Native, ¬ native.nulled.HasNonFinite
  | .double .nan | .double (.infinite _) | .double (.finite _) => nofun
  | .json _ | .integer _ | .char _ | .unit | .absent | .bytes _ => nofun
  | .present value => not_hasNonFinite_nulled value
  | .sequence elements => not_anyHasNonFinite_nulled elements
  | .map entries => not_anyValueHasNonFinite_nulled entries

theorem not_anyHasNonFinite_nulled : ∀ elements : List Native,
    ¬ AnyHasNonFinite (nulledElements elements)
  | [] => nofun
  | element :: rest =>
      not_or_intro (not_hasNonFinite_nulled element) (not_anyHasNonFinite_nulled rest)

theorem not_anyValueHasNonFinite_nulled : ∀ entries : List (Native × Native),
    ¬ AnyValueHasNonFinite (nulledEntries entries)
  | [] => nofun
  | (_, value) :: rest =>
      not_or_intro (not_hasNonFinite_nulled value) (not_anyValueHasNonFinite_nulled rest)
end

/-! ## Values that have a JSON form -/

mutual
/-- Whether each whole number fits in 64 bits and each key of a map can be one. -/
def Serializable : Native → Prop
  | .integer value => -0x8000000000000000 ≤ value ∧ value < 0x10000000000000000
  | .present value => value.Serializable
  | .sequence elements => AllSerializable elements
  | .map entries => EntriesSerializable entries
  | _ => True

def AllSerializable : List Native → Prop
  | [] => True
  | element :: rest => element.Serializable ∧ AllSerializable rest

def EntriesSerializable : List (Native × Native) → Prop
  | [] => True
  | (key, value) :: rest =>
      (keyText? key).isSome ∧ value.Serializable ∧ EntriesSerializable rest
end

theorem isSome_ofInt? (value : Int) : (Json.Integer.ofInt? value).isSome ↔
    -0x8000000000000000 ≤ value ∧ value < 0x10000000000000000 := by
  rw [Json.Integer.ofInt?]
  split
  · next inRange => simp [inRange]
  · next beyond => simp [beyond]

mutual
theorem isSome_toJson? : ∀ native : Native, native.toJson?.isSome ↔ native.Serializable
  | .double .nan | .double (.infinite _) | .double (.finite _) => by simp [toJson?, Serializable]
  | .json _ | .char _ | .unit | .absent | .bytes _ => by simp [toJson?, Serializable]
  | .integer value => by rw [toJson?, Option.isSome_map, Serializable, isSome_ofInt?]
  | .present value => by rw [toJson?, Serializable, isSome_toJson? value]
  | .sequence elements => by
      rw [toJson?, Option.isSome_map, Serializable, isSome_elementsToJson? elements]
  | .map entries => by
      rw [toJson?, Option.isSome_map, Serializable, isSome_entriesToJson? entries]

theorem isSome_elementsToJson? : ∀ elements : List Native,
    (elementsToJson? elements).isSome ↔ AllSerializable elements
  | [] => by simp [elementsToJson?, AllSerializable]
  | element :: rest => by
      rw [elementsToJson?, AllSerializable, ← isSome_toJson? element,
        ← isSome_elementsToJson? rest]
      cases element.toJson? <;> cases elementsToJson? rest <;> simp

theorem isSome_entriesToJson? : ∀ entries : List (Native × Native),
    (entriesToJson? entries).isSome ↔ EntriesSerializable entries
  | [] => by simp [entriesToJson?, EntriesSerializable]
  | (key, value) :: rest => by
      rw [entriesToJson?, EntriesSerializable, ← isSome_toJson? value,
        ← isSome_entriesToJson? rest]
      cases keyText? key <;> cases value.toJson? <;> cases entriesToJson? rest <;> simp
end

/-- Whether the JSON form of a value is an object, if it has one. -/
def IsMap : Native → Prop
  | .json (.object _) => True
  | .map _ => True
  | .present value => value.IsMap
  | _ => False

theorem exists_object_iff : ∀ native : Native,
    (∃ members, native.toJson? = some (.object members)) ↔ native.Serializable ∧ native.IsMap
  | .json (.object members) => by simp [toJson?, Serializable, IsMap]
  | .json .null | .json (.bool _) | .json (.number _) | .json (.string _) | .json (.array _) => by
      simp [toJson?, IsMap]
  | .double .nan | .double (.infinite _) | .double (.finite _) => by simp [toJson?, IsMap]
  | .char _ | .unit | .absent | .bytes _ => by simp [toJson?, IsMap]
  | .integer value => by simp [toJson?, IsMap, Json.ofInteger]
  | .present value => by
      rw [toJson?, Serializable, IsMap]
      exact exists_object_iff value
  | .sequence elements => by simp [toJson?, IsMap]
  | .map entries => by
      have named := isSome_entriesToJson? entries
      rw [Option.isSome_iff_exists] at named
      simp [toJson?, Serializable, IsMap, Json.ofDictionary, ← named]

/-- Whether a value is marshaled as an item. -/
def IsItem (native : Native) : Prop := native.Serializable ∧ native.IsMap

end Native

/-! ## Marshaling -/

theorem MarshalError.exists_error_iff {result : Except MarshalError α} :
    (∃ error, result = .error error) ↔ ¬ ∃ value, result = .ok value := by
  cases result <;> simp

namespace AttributeValue

theorem marshal_nulled (native : Native) : marshal native.nulled = marshal native := by
  rw [marshal, marshal, native.toJson?_nulled]

theorem exists_marshal_iff (native : Native) :
    (∃ value, marshal native = .ok value) ↔ native.Serializable := by
  rw [← native.isSome_toJson?, Option.isSome_iff_exists]
  simp [marshal_eq_ok_iff]

end AttributeValue

namespace Item

theorem marshal_nulled (native : Native) : Item.marshal native.nulled = Item.marshal native := by
  rw [Item.marshal, Item.marshal, native.toJson?_nulled]

theorem exists_marshal_iff (native : Native) :
    (∃ item, Item.marshal native = .ok item) ↔ native.IsItem := by
  rw [Native.IsItem, ← native.exists_object_iff]
  simp [Item.marshal_eq_ok_iff]

end Item

/-! ## Batches -/

namespace BatchDraft

theorem exists_put_iff (draft : BatchDraft) (native : Native) :
    (∃ next, draft.put native = .ok next) ↔ native.IsItem := by
  rw [← Item.exists_marshal_iff]
  simp [put_eq_ok_iff]

theorem exists_delete_iff (draft : BatchDraft) (native : Native) :
    (∃ next, draft.delete native = .ok next) ↔ native.IsItem := by
  rw [← Item.exists_marshal_iff]
  simp [delete_eq_ok_iff]

end BatchDraft

/-! ## Updates -/

namespace Draw

/-- Whether a computation comes to a result. -/
def Succeeds (action : Draw α) (supply : Supply) : Prop :=
  ∃ value after, action.run supply = .ok value after

def Fails (action : Draw α) (supply : Supply) : Prop :=
  ∃ error after, action.run supply = .error error after

theorem fails_iff {action : Draw α} {supply : Supply} :
    action.Fails supply ↔ ¬ action.Succeeds supply := by
  rw [Fails, Succeeds]
  cases action.run supply <;> simp

theorem succeeds_ofMarshal_bind {result : Except MarshalError α} {next : α → Draw β}
    {supply : Supply} :
    (ofMarshal result >>= next).Succeeds supply ↔
      ∃ value, result = .ok value ∧ (next value).Succeeds supply := by
  simp only [Succeeds, run_bind_eq_ok, run_ofMarshal_eq_ok]
  constructor
  · rintro ⟨made, after, value, middle, ⟨marshaled, rfl⟩, finished⟩
    exact ⟨value, marshaled, made, after, finished⟩
  · rintro ⟨value, marshaled, made, after, finished⟩
    exact ⟨made, after, value, supply, ⟨marshaled, rfl⟩, finished⟩

end Draw

namespace UpdateDraft

theorem succeeds_assign (draft : UpdateDraft) (name : String) (value : AttributeValue)
    (supply : Supply) : (draft.assign name value).Succeeds supply := by
  rw [assign]
  cases draft.assignments.get? name with
  | some held => exact ⟨_, supply, rfl⟩
  | none =>
      rcases draft.binder.mint.exists_run_next supply with ⟨placeholder, after, issued⟩
      exact ⟨_, after, Draw.run_bind_eq_ok.mpr ⟨placeholder, after, issued, rfl⟩⟩

theorem succeeds_assignAll (assignments : List (String × AttributeValue)) :
    ∀ (draft : UpdateDraft) (supply : Supply), (draft.assignAll assignments).Succeeds supply := by
  induction assignments with
  | nil => exact fun draft supply => ⟨draft, supply, rfl⟩
  | cons assignment rest induction =>
      intro draft supply
      rcases draft.succeeds_assign assignment.1 assignment.2 supply with ⟨assigned, middle, first⟩
      rcases induction assigned middle with ⟨grown, after, finished⟩
      exact ⟨grown, after, Draw.run_bind_eq_ok.mpr ⟨assigned, middle, first, finished⟩⟩

theorem exists_keyOf_iff (draft : UpdateDraft) (native : Native) :
    (∃ keyed, draft.keyOf native = .ok keyed) ↔ native.IsItem := by
  rw [← Item.exists_marshal_iff]
  simp [keyOf, MarshalError.bind_eq_ok_iff, pure, Except.pure]

theorem succeeds_set (draft : UpdateDraft) (name : String) (native : Native) (supply : Supply) :
    (draft.set name native).Succeeds supply ↔ native.Serializable := by
  rw [set, Draw.succeeds_ofMarshal_bind, ← AttributeValue.exists_marshal_iff]
  simp only [succeeds_assign, and_true]

theorem succeeds_setAll (draft : UpdateDraft) (native : Native) (supply : Supply) :
    (draft.setAll native).Succeeds supply ↔ native.IsItem := by
  rw [setAll, Draw.succeeds_ofMarshal_bind, ← Item.exists_marshal_iff]
  simp only [succeeds_assignAll, and_true]

theorem succeeds_diff (draft : UpdateDraft) (key before after : Native) (supply : Supply) :
    (draft.diff key before after).Succeeds supply ↔
      key.IsItem ∧ before.IsItem ∧ after.IsItem := by
  rw [← draft.exists_keyOf_iff key, ← Item.exists_marshal_iff, ← Item.exists_marshal_iff]
  simp only [diff, Draw.succeeds_ofMarshal_bind, succeeds_assignAll, and_true]
  constructor
  · rintro ⟨_, beforeMade, _, afterMade, keyMade⟩
    exact ⟨keyMade, ⟨_, beforeMade⟩, _, afterMade⟩
  · rintro ⟨keyMade, ⟨_, beforeMade⟩, _, afterMade⟩
    exact ⟨_, beforeMade, _, afterMade, keyMade⟩

end UpdateDraft

namespace Native

/-- A double that is not finite is marshaled as if nothing stood in its place. Its being there is
never why marshaling fails, nor why an update or a batch does that marshals its arguments: they fail
exactly where a whole number or a key of a map is at fault, or where an item is no map. Only a
double by itself, made an attribute value without being marshaled, is refused. -/
theorem fails_iff_of_hasNonFinite {native : Native} (nonFinite : native.HasNonFinite) :
    native ≠ native.nulled ∧
    AttributeValue.marshal native = AttributeValue.marshal native.nulled ∧
    Item.marshal native = Item.marshal native.nulled ∧
    ((∃ error, AttributeValue.marshal native = .error error) ↔ ¬ native.Serializable) ∧
    ((∃ error, Item.marshal native = .error error) ↔ ¬ native.IsItem) ∧
    (∀ (draft : UpdateDraft) (name : String) (supply : Supply),
      (draft.set name native).Fails supply ↔ ¬ native.Serializable) ∧
    (∀ (draft : UpdateDraft) (supply : Supply),
      (draft.setAll native).Fails supply ↔ ¬ native.IsItem) ∧
    (∀ draft : UpdateDraft, (∃ error, draft.keyOf native = .error error) ↔ ¬ native.IsItem) ∧
    (∀ (draft : UpdateDraft) (key before after : Native) (supply : Supply),
      (draft.diff key before after).Fails supply ↔
        ¬ (key.IsItem ∧ before.IsItem ∧ after.IsItem)) ∧
    (∀ draft : BatchDraft, (∃ error, draft.put native = .error error) ↔ ¬ native.IsItem) ∧
    (∀ draft : BatchDraft, (∃ error, draft.delete native = .error error) ↔ ¬ native.IsItem) ∧
    ∀ value, native = .double value →
      AttributeValue.ofDouble value = .error (.nonFinite value) := by
  refine ⟨?_, (AttributeValue.marshal_nulled native).symm, (Item.marshal_nulled native).symm,
    ?_, ?_, ?_, ?_, ?_, ?_, ?_, ?_, ?_⟩
  · intro same
    exact native.not_hasNonFinite_nulled (same ▸ nonFinite)
  · rw [MarshalError.exists_error_iff, AttributeValue.exists_marshal_iff]
  · rw [MarshalError.exists_error_iff, Item.exists_marshal_iff]
  · intro draft name supply
    rw [Draw.fails_iff, draft.succeeds_set]
  · intro draft supply
    rw [Draw.fails_iff, draft.succeeds_setAll]
  · intro draft
    rw [MarshalError.exists_error_iff, draft.exists_keyOf_iff]
  · intro draft key before after supply
    rw [Draw.fails_iff, draft.succeeds_diff]
  · intro draft
    rw [MarshalError.exists_error_iff, draft.exists_put_iff]
  · intro draft
    rw [MarshalError.exists_error_iff, draft.exists_delete_iff]
  · rintro (_ | negative | real) rfl
    · rfl
    · rfl
    · cases nonFinite

/-- An infinity in a list, under a name of a map. -/
def infinityInAMap : Native :=
  .map [(.char 'x', .sequence [.unit, .present (.double (.infinite true))])]

theorem marshals_infinityInAMap :
    AttributeValue.marshal infinityInAMap =
        .ok (.map [("x", .list [.null true, .null true])]) ∧
      (∀ draft : BatchDraft, ¬ ∃ error, draft.put infinityInAMap = .error error) ∧
      ∀ (draft : UpdateDraft) (supply : Supply), ¬ (draft.setAll infinityInAMap).Fails supply := by
  have nonFinite : infinityInAMap.HasNonFinite := .inl (.inr (.inl trivial))
  have isItem : infinityInAMap.IsItem :=
    ⟨⟨rfl, ⟨trivial, trivial, trivial⟩, trivial⟩, trivial⟩
  rcases fails_iff_of_hasNonFinite nonFinite with
    ⟨_, lowered, _, _, _, _, setsAll, _, _, puts, _, _⟩
  refine ⟨lowered.trans rfl, ?_, ?_⟩
  · intro draft
    rw [puts]
    exact not_not_intro isItem
  · intro draft supply
    rw [setsAll]
    exact not_not_intro isItem

/-- By itself a double that is not a number is refused, marshaled it is null, and as an attribute of
an item that is put into a batch it is null as well. -/
theorem not_fails_of_nan :
    (double .nan).HasNonFinite ∧
      AttributeValue.ofDouble .nan = .error (.nonFinite .nan) ∧
      AttributeValue.marshal (.double .nan) = .ok (.null true) ∧
      (BatchDraft.start "games").put (.map [(.char 'x', .double .nan)]) =
        .ok ((BatchDraft.start "games").putItem (.ofList [("x", .null true)])) ∧
      ¬ ∀ native : Native, native.HasNonFinite →
        ∃ error, AttributeValue.marshal native = .error error := by
  refine ⟨trivial, rfl, rfl, rfl, ?_⟩
  intro fails
  rcases fails (.double .nan) trivial with ⟨error, failed⟩
  cases failed

end Native

end ItemQuery
