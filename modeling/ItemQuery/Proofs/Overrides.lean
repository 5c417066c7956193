import ItemQuery.Proofs.WireForm
import ItemQuery.UpdateDraft
import ItemQuery.BatchDraft

/-!
What comes of a compiled draft when it is read back as an input.

A body is made field by field and read field by field. A layout (`Json.Layout`) says which fields a
record has on the wire; writing a record and reading it with some of the fields overridden gives
the record with just these fields replaced (`Json.Layout.read?_extend_iff`), and fails exactly when
one of the overrides cannot be read as its field (`Json.Layout.exists_overlaid_iff`). The four
inputs have layouts, and so every draft is read back as its snapshot overlaid with the overrides.
-/

namespace ItemQuery

namespace Json

/-! ## Fields -/

/-- A field of a record: what is written for its value, nothing where the field is left out, and
what is read from what is found under its name. -/
structure Field (ρ : Type) where
  name : String
  isOptional : Bool
  Value : Type
  get : ρ → Value
  write? : Value → Option Json
  read? : Option Json → Option Value
  read?_write? : ∀ value, read? (write? value) = some value
  /-- Null says that an optional field is absent, and it is no value of the others. -/
  read?_null : if isOptional then ∃ value, read? (some .null) = some value ∧ write? value = none
    else read? (some .null) = none

/-- How an optional field is read where it is there. -/
def orNull? (read? : Json → Option α) : Json → Option (Option α)
  | .null => some none
  | json => (read? json).map some

theorem orNull?_eq_some {read? : Json → Option α} (readNull : read? .null = none) {json : Json}
    {value : α} (read : read? json = some value) : orNull? read? json = some (some value) := by
  cases json with
  | null =>
      rw [readNull] at read
      cases read
  | _ => simp [orNull?, read]

/-- Reads in a sequence succeed one after the other. The layouts below rewrite with this before they
look at the later reads, each of which would otherwise be gone through anew for every read before
it. -/
theorem bind_eq_some_iff {first : Option α} {next : α → Option β} {result : β} :
    (first >>= next) = some result ↔ ∃ value, first = some value ∧ next value = some result :=
  Option.bind_eq_some_iff

theorem optional?_named (members : List (String × Json)) (name : String)
    (read? : Json → Option α) :
    (Record.named members).optional? name read? =
      match Dictionary.find? name members with
      | some json => orNull? read? json
      | none => some none := by
  have found : (Record.named members).find? name = Dictionary.find? name members := rfl
  unfold Record.optional?
  rw [found]
  cases Dictionary.find? name members with
  | none => rfl
  | some json => cases json <;> rfl

namespace Field

variable {ρ α : Type} (name : String) (write : α → Json) (read : Json → Option α)
  (readBack : ∀ value, read (write value) = some value) (readNull : read .null = none)

def required (get : ρ → α) : Field ρ where
  name
  isOptional := false
  Value := α
  get
  write? value := some (write value)
  read? json := json.bind read
  read?_write? := readBack
  read?_null := by simpa using readNull

def optional (get : ρ → Option α) : Field ρ where
  name
  isOptional := true
  Value := Option α
  get
  write? value := value.map write
  read?
    | some json => orNull? read json
    | none => some none
  read?_write?
    | some value => orNull?_eq_some readNull (readBack value)
    | none => rfl
  read?_null := by simp [orNull?]

def collected (get : ρ → Dictionary α) : Field ρ where
  name
  isOptional := false
  Value := Dictionary α
  get
  write? := Json.collected write
  read?
    | some json => dictionary? read json
    | none => some .empty
  read?_write? dictionary := by
    cases written : Json.collected write dictionary with
    | none => rw [collected_eq_none.mp written]
    | some json =>
        have whole : json = ofDictionary (dictionary.map write) := by
          unfold Json.collected at written
          split at written
          · cases written
          · exact (Option.some.inj written).symm
        rw [whole]
        exact dictionary?_ofDictionary_map readBack dictionary
  read?_null := by simp [dictionary?]

end Field

/-! ## Layouts -/

/-- The fields of a record, with what is written for it and how it is read. -/
structure Layout (ρ : Type) where
  fields : List (Field ρ)
  distinct : (fields.map Field.name).Nodup
  read? : Json → Option ρ
  write : ρ → Dictionary Json
  write_eq : ∀ record, write record =
    fieldsOf (fields.map fun field => (field.name, field.write? (field.get record)))
  /-- A record is read when each of its fields is. -/
  read?_iff : ∀ members record, read? (.object members) = some record ↔
    ∀ field ∈ fields, field.read? (Dictionary.find? field.name members) = some (field.get record)
  /-- The fields are independent: whatever is read of each of them, a record has it. -/
  exists_record : ∀ members,
    (∀ field ∈ fields, ∃ value, field.read? (Dictionary.find? field.name members) = some value) →
      ∃ record, ∀ field ∈ fields,
        field.read? (Dictionary.find? field.name members) = some (field.get record)

namespace Layout

variable {ρ : Type} (layout : Layout ρ)

/-- Whether every override of a field can be read as the field. -/
def Accepts (overrides : Dictionary Json) : Prop :=
  ∀ field ∈ layout.fields, ∀ json, overrides.get? field.name = some json →
    ∃ value, field.read? (some json) = some value

/-- Whether the fields that are overridden have the values of their overrides in `result`, and all
others the values that they have in `record`. -/
def Overlaid (overrides : Dictionary Json) (record result : ρ) : Prop :=
  ∀ field ∈ layout.fields,
    match overrides.get? field.name with
    | some json => field.read? (some json) = some (field.get result)
    | none => field.get result = field.get record

/-- The names of the fields that null leaves out. -/
def optionalNames : List String := (layout.fields.filter Field.isOptional).map Field.name

variable {layout}

theorem get?_write {field : Field ρ} (member : field ∈ layout.fields) (record : ρ) :
    (layout.write record).get? field.name = field.write? (field.get record) := by
  rw [layout.write_eq]
  apply get?_fieldsOf
  · rw [List.map_map]
    exact layout.distinct
  · exact List.mem_map_of_mem member

/-- What is found under the name of a field: its override, and otherwise what was written. -/
theorem find?_extend {field : Field ρ} (member : field ∈ layout.fields) (record : ρ)
    (overrides : Dictionary Json) :
    Dictionary.find? field.name ((layout.write record).extend overrides).entries =
      (overrides.get? field.name).or (field.write? (field.get record)) := by
  have found := Dictionary.get?_extend (layout.write record) overrides field.name
  rw [get?_write member] at found
  exact found

theorem read?_extend_iff (record result : ρ) (overrides : Dictionary Json) :
    layout.read? (.ofDictionary ((layout.write record).extend overrides)) = some result ↔
      layout.Overlaid overrides record result := by
  rw [ofDictionary, layout.read?_iff]
  apply forall₂_congr
  intro field member
  rw [find?_extend member]
  cases overrides.get? field.name with
  | some json => rfl
  | none =>
      rw [Option.none_or, field.read?_write?, Option.some.injEq]
      exact eq_comm

theorem exists_overlaid_iff (record : ρ) (overrides : Dictionary Json) :
    (∃ result, layout.Overlaid overrides record result) ↔ layout.Accepts overrides := by
  constructor
  · rintro ⟨result, overlaid⟩ field member json overridden
    have read := overlaid field member
    rw [overridden] at read
    exact ⟨_, read⟩
  · intro accepts
    have readable : ∀ field ∈ layout.fields, ∃ value, field.read? (Dictionary.find? field.name
        ((layout.write record).extend overrides).entries) = some value := by
      intro field member
      rw [find?_extend member]
      cases overridden : overrides.get? field.name with
      | some json => exact accepts field member json overridden
      | none => exact ⟨_, field.read?_write? _⟩
    rcases layout.exists_record _ readable with ⟨result, read⟩
    refine ⟨result, (read?_extend_iff record result overrides).mp ?_⟩
    exact (layout.read?_iff _ result).mpr read

/-- What is made of the record that is read. -/
theorem map_read?_extend_iff (make : ρ → α) (record : ρ) (overrides : Dictionary Json)
    (result : α) :
    (layout.read? (.ofDictionary ((layout.write record).extend overrides))).map make =
      some result ↔ ∃ overlaid, layout.Overlaid overrides record overlaid ∧ make overlaid = result := by
  simp only [Option.map_eq_some_iff, read?_extend_iff]

theorem mem_optionalNames_iff {field : Field ρ} (member : field ∈ layout.fields) :
    field.name ∈ layout.optionalNames ↔ field.isOptional = true := by
  constructor
  · intro listed
    rcases List.mem_map.mp listed with ⟨other, kept, sameName⟩
    rcases List.mem_filter.mp kept with ⟨otherMember, isOptional⟩
    rw [← List.inj_on_of_nodup_map layout.distinct otherMember member sameName]
    exact isOptional
  · intro isOptional
    exact List.mem_map_of_mem (List.mem_filter.mpr ⟨member, isOptional⟩)

variable {name : String} {overrides : Dictionary Json}

/-- An optional field that is overridden with null is left out of what is read. -/
theorem get?_write_of_null (isOptional : name ∈ layout.optionalNames)
    (overridden : overrides.get? name = some .null) {record result : ρ}
    (overlaid : layout.Overlaid overrides record result) :
    (layout.write result).get? name = none := by
  rcases List.mem_map.mp isOptional with ⟨field, kept, rfl⟩
  rcases List.mem_filter.mp kept with ⟨member, optional⟩
  have null := field.read?_null
  rw [if_pos optional] at null
  rcases null with ⟨value, read, leftOut⟩
  have readResult := overlaid field member
  rw [overridden] at readResult
  rw [get?_write member, ← Option.some.inj (read.symm.trans readResult)]
  exact leftOut

/-- Null is refused as a value of all other fields. -/
theorem not_accepts_of_null (isField : name ∈ layout.fields.map Field.name)
    (notOptional : name ∉ layout.optionalNames)
    (overridden : overrides.get? name = some .null) : ¬layout.Accepts overrides := by
  rcases List.mem_map.mp isField with ⟨field, member, rfl⟩
  have null := field.read?_null
  rw [if_neg (mt (mem_optionalNames_iff member).mpr notOptional)] at null
  intro accepts
  rcases accepts field member .null overridden with ⟨value, read⟩
  exact Option.some_ne_none value (read.symm.trans null)

theorem overlaid_empty (record : ρ) : layout.Overlaid .empty record record := fun _ _ => rfl

/-- A record without overrides is read back as it was. -/
theorem read?_write (record : ρ) :
    layout.read? (.ofDictionary (layout.write record)) = some record :=
  (read?_extend_iff record record .empty).mpr (overlaid_empty record)

end Layout

end Json

/-! ## Writes of a batch -/

namespace WriteRequest

theorem itemOfRecord?_itemRecord (name : String) (item : Item) :
    itemOfRecord? name (itemRecord name item) = some item := by
  simp [itemOfRecord?, itemRecord, Json.Record.ofJson?, Json.Record.required?, Json.Record.find?,
    Dictionary.find?, Item.ofWire?_toWire]

def layout : Json.Layout WriteRequest where
  fields :=
    [.optional "PutRequest" (itemRecord "Item") (itemOfRecord? "Item")
        (itemOfRecord?_itemRecord "Item") rfl put,
      .optional "DeleteRequest" (itemRecord "Key") (itemOfRecord? "Key")
        (itemOfRecord?_itemRecord "Key") rfl delete]
  distinct := by decide
  read? := ofJson?
  write write := Json.fieldsOf
    [("PutRequest", write.put.map (itemRecord "Item")),
      ("DeleteRequest", write.delete.map (itemRecord "Key"))]
  write_eq _ := rfl
  read?_iff members record := by
    rcases record with ⟨put, delete⟩
    simp [ofJson?, Json.Record.ofJson?, Json.optional?_named, Option.bind_eq_some_iff,
      Json.Field.optional]
  exists_record members := by
    simp only [List.forall_mem_cons, List.not_mem_nil, IsEmpty.forall_iff, implies_true, and_true]
    rintro ⟨⟨put, readPut⟩, delete, readDelete⟩
    exact ⟨⟨put, delete⟩, readPut, readDelete⟩

theorem ofJson?_toJson (write : WriteRequest) : ofJson? write.toJson = some write :=
  layout.read?_write write

end WriteRequest

theorem BatchInput.writesOfJson?_writesToJson (writes : List WriteRequest) :
    writesOfJson? (writesToJson writes) = some writes :=
  Json.list?_array_map WriteRequest.ofJson?_toJson writes

/-! ## The four inputs -/

namespace Json.Field

variable {ρ : Type} (name : String)

def text (get : ρ → String) : Field ρ :=
  .required name .string Json.string? (fun _ => rfl) rfl get

def optionalText (get : ρ → Option String) : Field ρ :=
  .optional name .string Json.string? (fun _ => rfl) rfl get

def flag (get : ρ → Option Bool) : Field ρ :=
  .optional name .bool Json.bool? (fun _ => rfl) rfl get

def limit (get : ρ → Option Int32) : Field ρ :=
  .optional name limitToJson limitOfJson? limitOfJson?_limitToJson rfl get

def select (get : ρ → Option Select) : Field ρ :=
  .optional name Select.toJson Select.ofJson? Select.ofJson?_toJson rfl get

def names (get : ρ → Dictionary String) : Field ρ :=
  .collected name .string Json.string? (fun _ => rfl) get

def item (get : ρ → Item) : Field ρ :=
  .collected name AttributeValue.toWire AttributeValue.ofWire? AttributeValue.ofWire?_toWire get

def key (get : ρ → Item) : Field ρ :=
  .required name Item.toWire Item.ofWire? Item.ofWire?_toWire rfl get

def returnValue (get : ρ → Option ReturnValue) : Field ρ :=
  .optional name ReturnValue.toJson ReturnValue.ofJson? ReturnValue.ofJson?_toJson rfl get

def writes (get : ρ → Dictionary (List WriteRequest)) : Field ρ :=
  .required name (fun writes => .ofDictionary (writes.map BatchInput.writesToJson))
    (Json.dictionary? BatchInput.writesOfJson?)
    (Json.dictionary?_ofDictionary_map BatchInput.writesOfJson?_writesToJson) rfl get

end Json.Field

def ScanInput.layout : Json.Layout ScanInput where
  fields :=
    [.text "TableName" tableName,
      .optionalText "IndexName" indexName,
      .optionalText "FilterExpression" filterExpression,
      .optionalText "ProjectionExpression" projectionExpression,
      .names "ExpressionAttributeNames" attributeNames,
      .item "ExpressionAttributeValues" attributeValues,
      .limit "Limit" limit,
      .item "ExclusiveStartKey" exclusiveStartKey,
      .select "Select" select,
      .flag "ConsistentRead" consistentRead]
  distinct := by decide
  read? := ofJson?
  write := fields
  write_eq _ := rfl
  read?_iff members record := by
    rcases record with ⟨⟩
    unfold ofJson?
    simp only [↓Json.bind_eq_some_iff, Json.Record.ofJson?, Json.optional?_named,
      Option.some.injEq, mk.injEq, ↓existsAndEq, and_true, true_and, List.mem_cons,
      List.not_mem_nil, or_false, forall_eq_or_imp, forall_eq]
    exact .rfl
  exists_record members := by
    simp only [List.forall_mem_cons, List.not_mem_nil, IsEmpty.forall_iff, implies_true, and_true]
    rintro ⟨⟨table, readTable⟩, ⟨index, readIndex⟩, ⟨filter, readFilter⟩,
      ⟨projection, readProjection⟩, ⟨names, readNames⟩, ⟨values, readValues⟩, ⟨limit, readLimit⟩,
      ⟨startKey, readStartKey⟩, ⟨select, readSelect⟩, consistent, readConsistent⟩
    exact ⟨⟨table, index, filter, projection, names, values, limit, startKey, select, consistent⟩,
      readTable, readIndex, readFilter, readProjection, readNames, readValues, readLimit,
      readStartKey, readSelect, readConsistent⟩

def QueryInput.layout : Json.Layout QueryInput where
  fields :=
    [.text "TableName" tableName,
      .optionalText "IndexName" indexName,
      .optionalText "KeyConditionExpression" keyConditionExpression,
      .optionalText "FilterExpression" filterExpression,
      .optionalText "ProjectionExpression" projectionExpression,
      .names "ExpressionAttributeNames" attributeNames,
      .item "ExpressionAttributeValues" attributeValues,
      .flag "ScanIndexForward" scanIndexForward,
      .limit "Limit" limit,
      .item "ExclusiveStartKey" exclusiveStartKey,
      .select "Select" select,
      .flag "ConsistentRead" consistentRead]
  distinct := by decide
  read? := ofJson?
  write := fields
  write_eq _ := rfl
  read?_iff members record := by
    rcases record with ⟨⟩
    unfold ofJson?
    simp only [↓Json.bind_eq_some_iff, Json.Record.ofJson?, Json.optional?_named,
      Option.some.injEq, mk.injEq, ↓existsAndEq, and_true, true_and, List.mem_cons,
      List.not_mem_nil, or_false, forall_eq_or_imp, forall_eq]
    exact .rfl
  exists_record members := by
    simp only [List.forall_mem_cons, List.not_mem_nil, IsEmpty.forall_iff, implies_true, and_true]
    rintro ⟨⟨table, readTable⟩, ⟨index, readIndex⟩, ⟨keyCondition, readKeyCondition⟩,
      ⟨filter, readFilter⟩, ⟨projection, readProjection⟩, ⟨names, readNames⟩, ⟨values, readValues⟩,
      ⟨forward, readForward⟩, ⟨limit, readLimit⟩, ⟨startKey, readStartKey⟩, ⟨select, readSelect⟩,
      consistent, readConsistent⟩
    exact ⟨⟨table, index, keyCondition, filter, projection, names, values, forward, limit,
      startKey, select, consistent⟩, readTable, readIndex, readKeyCondition, readFilter,
      readProjection, readNames, readValues, readForward, readLimit, readStartKey, readSelect,
      readConsistent⟩

def UpdateInput.layout : Json.Layout UpdateInput where
  fields :=
    [.text "TableName" tableName,
      .key "Key" key,
      .optionalText "UpdateExpression" updateExpression,
      .optionalText "ConditionExpression" conditionExpression,
      .names "ExpressionAttributeNames" attributeNames,
      .item "ExpressionAttributeValues" attributeValues,
      .returnValue "ReturnValues" returnValues]
  distinct := by decide
  read? := ofJson?
  write := fields
  write_eq _ := rfl
  read?_iff members record := by
    rcases record with ⟨⟩
    unfold ofJson?
    simp only [↓Json.bind_eq_some_iff, Json.Record.ofJson?, Json.optional?_named,
      Option.some.injEq, mk.injEq, ↓existsAndEq, and_true, true_and, List.mem_cons,
      List.not_mem_nil, or_false, forall_eq_or_imp, forall_eq]
    exact .rfl
  exists_record members := by
    simp only [List.forall_mem_cons, List.not_mem_nil, IsEmpty.forall_iff, implies_true, and_true]
    rintro ⟨⟨table, readTable⟩, ⟨key, readKey⟩, ⟨update, readUpdate⟩, ⟨condition, readCondition⟩,
      ⟨names, readNames⟩, ⟨values, readValues⟩, returnValues, readReturnValues⟩
    exact ⟨⟨table, key, update, condition, names, values, returnValues⟩, readTable, readKey,
      readUpdate, readCondition, readNames, readValues, readReturnValues⟩

def BatchInput.layout : Json.Layout BatchInput where
  fields :=
    [.writes "RequestItems" requestItems]
  distinct := by decide
  read? := ofJson?
  write := fields
  write_eq _ := rfl
  read?_iff members record := by
    rcases record with ⟨⟩
    unfold ofJson?
    simp only [↓Json.bind_eq_some_iff, Json.Record.ofJson?, Option.some.injEq, mk.injEq,
      ↓existsAndEq, and_true, true_and, List.mem_cons, List.not_mem_nil, or_false, forall_eq]
    exact .rfl
  exists_record members := by
    simp only [List.forall_mem_cons, List.not_mem_nil, IsEmpty.forall_iff, implies_true, and_true]
    rintro ⟨items, readItems⟩
    exact ⟨⟨items⟩, readItems⟩

namespace Input

/-- Whether every override of a field of the input can be read as the field. -/
def Accepts (overrides : Dictionary Json) : Input → Prop
  | .scan _ => ScanInput.layout.Accepts overrides
  | .query _ => QueryInput.layout.Accepts overrides
  | .update _ => UpdateInput.layout.Accepts overrides
  | .batch _ => BatchInput.layout.Accepts overrides

/-- Whether `result` is the input of the same operation in which the fields that are overridden
have the values of their overrides, and all others the values that they have in the input. -/
def Overlaid (overrides : Dictionary Json) (input result : Input) : Prop :=
  match input with
  | .scan input => ∃ overlaid, ScanInput.layout.Overlaid overrides input overlaid ∧
      .scan overlaid = result
  | .query input => ∃ overlaid, QueryInput.layout.Overlaid overrides input overlaid ∧
      .query overlaid = result
  | .update input => ∃ overlaid, UpdateInput.layout.Overlaid overrides input overlaid ∧
      .update overlaid = result
  | .batch input => ∃ overlaid, BatchInput.layout.Overlaid overrides input overlaid ∧
      .batch overlaid = result

def fieldNames : Input → List String
  | .scan _ => ScanInput.fieldNames
  | .query _ => QueryInput.fieldNames
  | .update _ => UpdateInput.fieldNames
  | .batch _ => BatchInput.fieldNames

def optionalNames : Input → List String
  | .scan _ => ScanInput.layout.optionalNames
  | .query _ => QueryInput.layout.optionalNames
  | .update _ => UpdateInput.layout.optionalNames
  | .batch _ => BatchInput.layout.optionalNames

variable {overrides : Dictionary Json}

theorem ofJson?_extend_iff (input result : Input) :
    ofJson? input.operation (.ofDictionary (input.fields.extend overrides)) = some result ↔
      input.Overlaid overrides result := by
  cases input with
  | scan input => exact ScanInput.layout.map_read?_extend_iff .scan input overrides result
  | query input => exact QueryInput.layout.map_read?_extend_iff .query input overrides result
  | update input => exact UpdateInput.layout.map_read?_extend_iff .update input overrides result
  | batch input => exact BatchInput.layout.map_read?_extend_iff .batch input overrides result

theorem exists_overlaid_iff (input : Input) :
    (∃ result, input.Overlaid overrides result) ↔ input.Accepts overrides := by
  cases input with
  | scan input => simp [Overlaid, Accepts, ← ScanInput.layout.exists_overlaid_iff input]
  | query input => simp [Overlaid, Accepts, ← QueryInput.layout.exists_overlaid_iff input]
  | update input => simp [Overlaid, Accepts, ← UpdateInput.layout.exists_overlaid_iff input]
  | batch input => simp [Overlaid, Accepts, ← BatchInput.layout.exists_overlaid_iff input]

theorem overlaid_empty (input : Input) : input.Overlaid .empty input := by
  cases input with
  | scan input => exact ⟨input, ScanInput.layout.overlaid_empty input, rfl⟩
  | query input => exact ⟨input, QueryInput.layout.overlaid_empty input, rfl⟩
  | update input => exact ⟨input, UpdateInput.layout.overlaid_empty input, rfl⟩
  | batch input => exact ⟨input, BatchInput.layout.overlaid_empty input, rfl⟩

variable {name : String}

theorem get?_fields_of_null {input result : Input} (isOptional : name ∈ input.optionalNames)
    (overridden : overrides.get? name = some .null) (overlaid : input.Overlaid overrides result) :
    result.fields.get? name = none := by
  cases input with
  | scan input | query input | update input | batch input =>
      rcases overlaid with ⟨overlaid, isOverlaid, rfl⟩
      exact Json.Layout.get?_write_of_null isOptional overridden isOverlaid

theorem not_accepts_of_null {input : Input} (isField : name ∈ input.fieldNames)
    (notOptional : name ∉ input.optionalNames) (overridden : overrides.get? name = some .null) :
    ¬input.Accepts overrides := by
  cases input with
  | scan input | query input | update input | batch input =>
      exact Json.Layout.not_accepts_of_null isField notOptional overridden

end Input

theorem Request.toInput_eq_ok_iff (request : Request) (operation : Operation) (input : Input) :
    request.toInput operation = .ok input ↔
      Input.ofJson? operation request.toJson = some input := by
  unfold toInput
  cases Input.ofJson? operation request.toJson <;> simp

theorem Request.toInput_eq_error {request : Request} {operation : Operation}
    (unread : ∀ input, request.toInput operation ≠ .ok input) :
    request.toInput operation = .error .notAnInput := by
  unfold toInput at unread ⊢
  cases read : Input.ofJson? operation request.toJson with
  | none => rfl
  | some input => exact absurd (by rw [read]) (unread input)

/-! ## Drafts -/

/-- The draft of one of the operations. -/
inductive Draft
  | read (draft : ReadDraft)
  | update (draft : UpdateDraft)
  | batch (draft : BatchDraft)

namespace Draft

def toInput : Draft → Input
  | .read draft => draft.toInput
  | .update draft => draft.toInput
  | .batch draft => draft.toInput

def compile (overrides : Dictionary Json) : Draft → Request
  | .read draft => draft.compile overrides
  | .update draft => draft.compile overrides
  | .batch draft => draft.compile overrides

theorem compile_eq (draft : Draft) (overrides : Dictionary Json) :
    draft.compile overrides = .ofInput draft.toInput overrides := by
  cases draft <;> rfl

/-- A compiled draft is read back as its snapshot overlaid with the overrides. It can be read as the
input of its own operation exactly when every override of a field can be read as the field; null
says that an optional field is absent and is refused for every other field. -/
theorem toInput_compile (draft : Draft) (overrides : Dictionary Json) :
    (draft.compile overrides).operation = draft.toInput.operation ∧
      ((∃ result, (draft.compile overrides).toInput draft.toInput.operation = .ok result) ↔
        draft.toInput.Accepts overrides) ∧
      (∀ result, (draft.compile overrides).toInput draft.toInput.operation = .ok result ↔
        draft.toInput.Overlaid overrides result) ∧
      (∀ name ∈ draft.toInput.fieldNames, overrides.get? name = some .null →
        if name ∈ draft.toInput.optionalNames then
          ∀ result, (draft.compile overrides).toInput draft.toInput.operation = .ok result →
            result.fields.get? name = none
        else (draft.compile overrides).toInput draft.toInput.operation = .error .notAnInput) ∧
      (draft.compile .empty).toInput draft.toInput.operation = .ok draft.toInput := by
  have reads (overrides : Dictionary Json) (result : Input) :
      (draft.compile overrides).toInput draft.toInput.operation = .ok result ↔
        draft.toInput.Overlaid overrides result := by
    rw [compile_eq, Request.toInput_eq_ok_iff]
    exact Input.ofJson?_extend_iff draft.toInput result
  have accepts : (∃ result, draft.toInput.Overlaid overrides result) ↔
      draft.toInput.Accepts overrides := draft.toInput.exists_overlaid_iff
  refine ⟨?_, ?_, reads overrides, ?_, (reads .empty _).mpr draft.toInput.overlaid_empty⟩
  · rw [compile_eq]
    rfl
  · simp only [reads, accepts]
  · intro name isField overridden
    split
    · next isOptional =>
        intro result read
        exact Input.get?_fields_of_null isOptional overridden ((reads overrides result).mp read)
    · next notOptional =>
        apply Request.toInput_eq_error
        intro result read
        have accepted := accepts.mp ⟨result, (reads overrides result).mp read⟩
        exact Input.not_accepts_of_null isField notOptional overridden accepted

/-- A scan on which the limit is overridden, a dictionary is replaced and a field is made up. -/
theorem toInput_compile_games :
    let games := ReadDraft.scan "games" ⟨⟨"p", .sequence 0⟩, Config.default.marshaler⟩
    let overrides := Dictionary.ofList
      [("Limit", .ofInteger ⟨5, by decide⟩), ("Select", .null), ("Segment", .bool true),
        ("ExpressionAttributeNames", .object [("#r", .string "rated")])]
    (games.compile overrides).toInput .scan =
      .ok (.scan { games.toScanInput with
        limit := some 5, attributeNames := .ofList [("#r", "rated")] }) := by
  intro games overrides
  refine ((toInput_compile (.read games) overrides).2.2.1 _).mpr ⟨_, ?_, rfl⟩
  intro field member
  simp only [ScanInput.layout, List.mem_cons, List.not_mem_nil, or_false] at member
  rcases member with rfl | rfl | rfl | rfl | rfl | rfl | rfl | rfl | rfl | rfl <;> rfl

end Draft

end ItemQuery
