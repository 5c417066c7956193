import Mathlib.Data.List.Forall2
import ItemQuery.Proofs.Batches

/-!
The sides of writes that are read.

A write either stores an item or deletes by a key, and the steps of a batch queue no others. But the
record of a write is read one side after the other, whether it gives both of them, one or none. So
each write of a batch that is read has one side if and only if each record in its lists gives one,
and the writes of a compiled batch do if and only if those of the override do, should there be one
(`BatchInput.oneSided_iff_listsOneSided`).
-/

namespace ItemQuery

/-! ## Reading lists and dictionaries -/

namespace Json

theorem forall₂_of_mapM {α β : Type} {read? : β → Option α} : ∀ {texts : List β} {values : List α},
    texts.mapM read? = some values →
      List.Forall₂ (fun text value => read? text = some value) texts values
  | [], _, read => by
      cases read
      exact .nil
  | text :: rest, _, read => by
      rw [List.mapM_cons] at read
      simp only [Option.bind_eq_bind, Option.bind_eq_some_iff] at read
      rcases read with ⟨value, first, others, later, finished⟩
      cases finished
      exact .cons first (forall₂_of_mapM later)

variable {α : Type} {read? : Json → Option α}

/-- Of a name that occurs more than once both the object and what is read of it have the last
value. -/
theorem rel_get?_of_dictionary? {members : List (String × Json)} {dictionary : Dictionary α}
    (read : dictionary? read? (.object members) = some dictionary) (name : String) :
    Option.Rel (fun json value => read? json = some value)
      ((Dictionary.ofList members).get? name) (dictionary.get? name) := by
  rcases Option.map_eq_some_iff.mp read with ⟨entries, isRead, rfl⟩
  clear read
  have paired := forall₂_of_mapM isRead
  clear isRead
  induction paired with
  | nil => exact .none
  | @cons member entry rest others first _ induction =>
      rcases Option.map_eq_some_iff.mp first with ⟨value, isValue, rfl⟩
      rw [Dictionary.get?_ofList_cons, Dictionary.get?_ofList_cons]
      generalize (Dictionary.ofList rest).get? name = json? at induction ⊢
      generalize (Dictionary.ofList others).get? name = value? at induction ⊢
      cases induction with
      | some later => exact .some later
      | none =>
          rw [Option.none_or, Option.none_or]
          split
          · exact .some isValue
          · exact .none

/-- An optional field has a value where it is there and is not null. -/
theorem Record.isSome_of_optional? {record : Record} {name : String} {value : Option α}
    (read : record.optional? name read? = some value) :
    value.isSome = true ↔ ∃ json, record.find? name = some json ∧ json ≠ .null := by
  unfold optional? at read
  cases found : record.find? name with
  | none =>
      rw [found] at read
      cases record with
      | named members =>
          cases read
          simp
      | listed members => cases read
  | some json =>
      rw [found] at read
      cases json with
      | null =>
          cases read
          simp
      | _ =>
          rcases Option.map_eq_some_iff.mp read with ⟨made, _, rfl⟩
          simp

namespace Layout.Overlaid

variable {ρ : Type} {layout : Layout ρ} {overrides : Dictionary Json} {record result : ρ}
  (overlaid : layout.Overlaid overrides record result) {field : Field ρ}
  (member : field ∈ layout.fields)
include overlaid member

theorem read?_of_eq_some {json : Json} (overridden : overrides.get? field.name = some json) :
    field.read? (some json) = some (field.get result) := by
  have read := overlaid field member
  rwa [overridden] at read

theorem get_of_eq_none (absent : overrides.get? field.name = none) :
    field.get result = field.get record := by
  have kept := overlaid field member
  rwa [absent] at kept

end Layout.Overlaid

end Json

/-! ## Writes -/

namespace WriteRequest

/-- Whether a write has exactly one of its sides. -/
def OneSided (write : WriteRequest) : Prop := write.put.isSome = true ↔ write.delete.isSome = false

instance (write : WriteRequest) : Decidable write.OneSided :=
  inferInstanceAs (Decidable (_ ↔ _))

/-- Whether the record of a write gives a side: the side is there and is not null. -/
def Gives (json : Json) (side : String) : Prop :=
  ∃ record value, Json.Record.ofJson? fieldNames json = some record ∧
    record.find? side = some value ∧ value ≠ .null

/-- Whether the record of a write gives exactly one of the sides. -/
def GivesOneSide (json : Json) : Prop := Gives json "PutRequest" ↔ ¬Gives json "DeleteRequest"

/-- A write has the sides that its record gives. -/
theorem oneSided_iff_of_ofJson? {json : Json} {write : WriteRequest}
    (read : ofJson? json = some write) : write.OneSided ↔ GivesOneSide json := by
  unfold ofJson? at read
  simp only [Option.bind_eq_bind, Option.bind_eq_some_iff] at read
  rcases read with ⟨record, isRecord, put, readPut, delete, readDelete, finished⟩
  cases finished
  have gives (side : String) : Gives json side ↔
      ∃ value, record.find? side = some value ∧ value ≠ .null := by
    simp [Gives, isRecord]
  rw [OneSided, GivesOneSide, gives, gives, ← Json.Record.isSome_of_optional? readPut,
    ← Json.Record.isSome_of_optional? readDelete, Bool.not_eq_true]

theorem oneSided_of_exists {write : WriteRequest}
    (side : ∃ item, write = ⟨some item, none⟩ ∨ write = ⟨none, some item⟩) : write.OneSided := by
  rcases side with ⟨item, rfl | rfl⟩ <;> simp [OneSided]

end WriteRequest

/-! ## Batches -/

namespace BatchInput

/-- Whether every write of a batch has exactly one side. -/
def OneSided (input : BatchInput) : Prop :=
  ∀ group ∈ input.requestItems.entries, ∀ write ∈ group.2, write.OneSided

instance (input : BatchInput) : Decidable input.OneSided :=
  inferInstanceAs (Decidable (∀ group ∈ _, _))

theorem oneSided_iff {input : BatchInput} :
    input.OneSided ↔ ∀ tableName writes, input.requestItems.get? tableName = some writes →
      ∀ write ∈ writes, write.OneSided := by
  simp only [OneSided, Dictionary.get?_eq_some_iff, Prod.forall]

/-- The value in the body of a batch that lists the writes of each table. -/
def items? (body : Json) : Option Json :=
  (Json.Record.ofJson? fieldNames body).bind fun record => record.find? "RequestItems"

/-- Whether every record that a value lists for a table gives exactly one side of a write. -/
def ListsOneSided (items : Json) : Prop :=
  ∀ members, items = .object members → ∀ tableName records,
    (Dictionary.ofList members).get? tableName = some (.array records) →
      ∀ record ∈ records, WriteRequest.GivesOneSide record

/-- Lists of writes have one side each exactly where the records do that they are read from. -/
theorem forall_oneSided_iff {records : List Json} {writes : List WriteRequest}
    (read : List.Forall₂ (fun record write => WriteRequest.ofJson? record = some write) records
      writes) :
    (∀ write ∈ writes, write.OneSided) ↔ ∀ record ∈ records, WriteRequest.GivesOneSide record := by
  induction read with
  | nil => simp
  | cons first _ induction =>
      rw [List.forall_mem_cons, List.forall_mem_cons, induction,
        WriteRequest.oneSided_iff_of_ofJson? first]

theorem oneSided_iff_of_read {items : Json} {input : BatchInput}
    (read : Json.dictionary? writesOfJson? items = some input.requestItems) :
    input.OneSided ↔ ListsOneSided items := by
  cases items with
  | object members =>
      rw [oneSided_iff, ListsOneSided]
      simp only [Json.object.injEq, forall_eq']
      apply forall_congr'
      intro tableName
      have related := Json.rel_get?_of_dictionary? read tableName
      generalize (Dictionary.ofList members).get? tableName = listed? at related ⊢
      generalize input.requestItems.get? tableName = writes? at related ⊢
      cases related with
      | none => simp
      | @some listed writes isRead =>
          cases listed with
          | array records =>
              simp only [Option.some.injEq, Json.array.injEq, forall_eq']
              exact forall_oneSided_iff (Json.forall₂_of_mapM isRead)
          | _ => cases isRead
  | _ => cases read

theorem oneSided_iff_of_ofJson? {body : Json} {input : BatchInput}
    (read : ofJson? body = some input) :
    ∃ items, items? body = some items ∧ (input.OneSided ↔ ListsOneSided items) := by
  unfold ofJson? at read
  simp only [Option.bind_eq_bind, Option.bind_eq_some_iff] at read
  rcases read with ⟨record, isRecord, tables, required, finished⟩
  cases finished
  rcases Option.bind_eq_some_iff.mp required with ⟨items, found, isRead⟩
  exact ⟨items, by rw [items?, isRecord, Option.bind_some, found], oneSided_iff_of_read isRead⟩

end BatchInput

namespace BatchDraft

variable {tableName : String} {steps : List BatchStep} {draft : BatchDraft}

/-- The writes that are queued have one side each. -/
theorem oneSided_of_runAll (ran : (start tableName).runAll steps = .ok draft) :
    draft.toBatchInput.OneSided := by
  rcases holds_runAll steps (holds_start tableName) ran with ⟨holds, _⟩
  rw [BatchInput.oneSided_iff]
  intro name writes found write member
  rw [holds.get?_requestItems, Option.ite_none_left_eq_some] at found
  cases found.2
  exact WriteRequest.oneSided_of_exists
    (BatchStep.exists_item_of_mem_issued (mem_writesFor.mp member))

/-- A compiled batch is read with the writes of the override, and with the writes that are queued
if there is none. -/
theorem oneSided_iff_of_toInput (ran : (start tableName).runAll steps = .ok draft)
    {overrides : Dictionary Json} {input : BatchInput}
    (read : (draft.compile overrides).toInput .batchWriteItem = .ok (.batch input)) :
    input.OneSided ↔ ∀ items, overrides.get? "RequestItems" = some items →
      BatchInput.ListsOneSided items := by
  rw [Request.toInput_eq_ok_iff] at read
  rcases (Input.ofJson?_extend_iff draft.toInput _).mp read with ⟨_, overlaid, same⟩
  cases same
  cases overridden : overrides.get? "RequestItems" with
  | some items =>
      have isRead : Json.dictionary? BatchInput.writesOfJson? items = some input.requestItems :=
        overlaid.read?_of_eq_some (List.mem_singleton_self _) overridden
      simpa using BatchInput.oneSided_iff_of_read isRead
  | none =>
      have kept : input.requestItems = draft.toBatchInput.requestItems :=
        overlaid.get_of_eq_none (List.mem_singleton_self _) overridden
      have queued : input.OneSided := by
        rw [BatchInput.OneSided, kept]
        exact oneSided_of_runAll ran
      simpa using queued

end BatchDraft

namespace BatchInput

/-- Each write of a batch that is read has one side if and only if each record in its lists gives
one. That holds of what is queued, so a compiled batch that is read has other writes only if it was
compiled with other records. -/
theorem oneSided_iff_listsOneSided {tableName : String} {steps : List BatchStep}
    {draft : BatchDraft} (ran : (BatchDraft.start tableName).runAll steps = .ok draft) :
    (∀ body input, ofJson? body = some input →
      ∃ items, items? body = some items ∧ (input.OneSided ↔ ListsOneSided items)) ∧
    draft.toBatchInput.OneSided ∧
    ∀ overrides input, (draft.compile overrides).toInput .batchWriteItem = .ok (.batch input) →
      (input.OneSided ↔ ∀ items, overrides.get? "RequestItems" = some items →
        ListsOneSided items) := by
  refine ⟨?_, BatchDraft.oneSided_of_runAll ran, ?_⟩
  · exact fun _ _ read => oneSided_iff_of_ofJson? read
  · exact fun _ _ read => BatchDraft.oneSided_iff_of_toInput ran read

/-- The records of two writes. One has a null for its other side, and one is an array. -/
def oneSidedItems : Json :=
  .object [("games", .array [.object [("PutRequest", .object [("Item", .object [])]),
      ("DeleteRequest", .null)]]),
    ("scores", .array [.array [.null, .object [("Key", .object [])]]])]

theorem oneSided_iff_listsOneSided_of_oneSidedItems :
    let input : BatchInput := ⟨.ofList [("games", [.ofPut .empty]), ("scores", [.ofDelete .empty])]⟩
    let overrides := Dictionary.ofList [("RequestItems", oneSidedItems)]
    let steps : List BatchStep := [.switchTo "scores", .putItem .empty]
    ∃ draft, ofJson? (.object [("RequestItems", oneSidedItems)]) = some input ∧
      ListsOneSided oneSidedItems ∧
      (BatchDraft.start "games").runAll steps = .ok draft ∧
      draft.toBatchInput.OneSided ∧
      (draft.compile overrides).toInput .batchWriteItem = .ok (.batch input) ∧
      input.OneSided := by
  intro input overrides steps
  have isRead : ofJson? (.object [("RequestItems", oneSidedItems)]) = some input := by decide
  have ran : (BatchDraft.start "games").runAll steps = .ok _ := rfl
  rcases oneSided_iff_listsOneSided ran with ⟨reads, queued, overridden⟩
  have listsOneSided : ListsOneSided oneSidedItems := by
    rcases reads _ input isRead with ⟨items, found, oneSided⟩
    cases found
    exact oneSided.mp (by decide)
  refine ⟨_, isRead, listsOneSided, ran, queued, by decide, ?_⟩
  refine (overridden overrides input (by decide)).mpr ?_
  rintro _ given
  cases given
  exact listsOneSided

/-- A record that gives no side is read as a write without one, and a record that gives both as a
write with both. -/
theorem not_oneSided_of_emptyRecord :
    let both : Json := .object [("PutRequest", .object [("Item", .object [])]),
      ("DeleteRequest", .object [("Key", .object [])])]
    let writes : List WriteRequest := [⟨none, none⟩, ⟨some .empty, some .empty⟩]
    ofJson? (.object [("RequestItems", .object [("games", .array [.object [], both])])]) =
        some ⟨.ofList [("games", writes)]⟩ ∧
      ∀ write ∈ writes, ¬write.OneSided := by
  decide

end BatchInput

end ItemQuery
