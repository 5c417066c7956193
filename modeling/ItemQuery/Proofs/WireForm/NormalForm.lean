import ItemQuery.Proofs.Overrides
import ItemQuery.Proofs.WireForm.Strict

/-!
The normal form of a body.

An input that was read from a body is written without what the body did not have to say: fields that
are unknown, optional fields that are null, and collected fields that are empty. Everything else is
written as it stood, but for alternatives, whose longer spelling becomes the shorter one. The forms
of the fields of a record say all this (`Json.normalRecord`), and a layout whose fields follow these
forms writes the normal form of what it reads (`Json.Layout.write_eq_normalRecord`). The inputs and
the writes of a batch do (`Json.survives_inputs`).
-/

namespace ItemQuery

namespace Json

mutual
/-- Whether the names in every object of a value strictly increase, as in all JSON that a program
holds. -/
def Ordered : Json → Prop
  | .array elements => ElementsOrdered elements
  | .object members =>
      (members.Pairwise fun first second => first.1 < second.1) ∧ MembersOrdered members
  | _ => True

def ElementsOrdered : List Json → Prop
  | [] => True
  | first :: rest => Ordered first ∧ ElementsOrdered rest

def MembersOrdered : List (String × Json) → Prop
  | [] => True
  | (_, value) :: rest => Ordered value ∧ MembersOrdered rest
end

mutual
instance decidableOrdered : ∀ json : Json, Decidable json.Ordered
  | .array elements =>
      have := decidableElementsOrdered elements
      decidable_of_iff (ElementsOrdered elements) Iff.rfl
  | .object members =>
      have := decidableMembersOrdered members
      inferInstanceAs (Decidable (_ ∧ _))
  | .null | .bool _ | .number _ | .string _ => inferInstanceAs (Decidable True)

instance decidableElementsOrdered : ∀ elements : List Json, Decidable (ElementsOrdered elements)
  | [] => inferInstanceAs (Decidable True)
  | first :: rest =>
      have := decidableOrdered first
      have := decidableElementsOrdered rest
      inferInstanceAs (Decidable (_ ∧ _))

instance decidableMembersOrdered :
    ∀ members : List (String × Json), Decidable (MembersOrdered members)
  | [] => inferInstanceAs (Decidable True)
  | (_, value) :: rest =>
      have := decidableOrdered value
      have := decidableMembersOrdered rest
      inferInstanceAs (Decidable (_ ∧ _))
end

theorem elementsOrdered_iff {elements : List Json} :
    ElementsOrdered elements ↔ ∀ element ∈ elements, element.Ordered := by
  induction elements with
  | nil => simp [ElementsOrdered]
  | cons first rest induction => rw [ElementsOrdered, induction, List.forall_mem_cons]

theorem membersOrdered_iff {members : List (String × Json)} :
    MembersOrdered members ↔ ∀ member ∈ members, member.2.Ordered := by
  induction members with
  | nil => simp [MembersOrdered]
  | cons first rest induction => rw [MembersOrdered, induction, List.forall_mem_cons]

theorem ordered_array_iff {elements : List Json} :
    (Json.array elements).Ordered ↔ ∀ element ∈ elements, element.Ordered := by
  rw [Ordered, elementsOrdered_iff]

theorem ordered_object_iff {members : List (String × Json)} :
    (Json.object members).Ordered ↔
      (members.Pairwise fun first second => first.1 < second.1) ∧
        ∀ member ∈ members, member.2.Ordered := by
  rw [Ordered, membersOrdered_iff]

/-! ## Forms of fields -/

/-- How a field of a record is written again. -/
structure FieldForm where
  name : String
  /-- Whether a value leaves the field out. -/
  omits : Json → Bool
  /-- What any other value is written as. -/
  rewrite : Json → Json
  /-- Whether the records in a value are objects. -/
  Named : Json → Prop

/-- What becomes of a value of the field. -/
def FieldForm.written? (form : FieldForm) (json : Json) : Option Json :=
  if form.omits json then none else some (form.rewrite json)

/-- What becomes of a value that a record has under a name. Under other names than those of its
fields nothing is kept. -/
def kept? (forms : List FieldForm) (name : String) (json : Json) : Option Json :=
  (forms.find? fun form => form.name = name).bind fun form => form.written? json

def keptMembers (forms : List FieldForm) (members : List (String × Json)) : List (String × Json) :=
  members.filterMap fun member => (kept? forms member.1 member.2).map (member.1, ·)

/-- The record as it is written again. -/
def normalRecord (forms : List FieldForm) : Json → Json
  | .object members => .object (keptMembers forms members)
  | other => other

/-- Whether a value is an object, and the records in its fields are objects as well. -/
def NamedRecord (forms : List FieldForm) (json : Json) : Prop :=
  ∃ members, json = .object members ∧
    ∀ form ∈ forms, ∀ value, (form.name, value) ∈ members → form.Named value

/-- The shorter spelling of an alternative. -/
def spelled : Json → Json
  | .object [(name, .null)] => .string name
  | other => other

/-- The value with something else in the place of each member or element of it. -/
def mapInside (rewrite : Json → Json) : Json → Json
  | .array elements => .array (elements.map rewrite)
  | .object members => .object (members.map fun member => (member.1, rewrite member.2))
  | other => other

namespace FieldForm

/-- A field that is always written. -/
def required (name : String) : FieldForm := ⟨name, fun _ => false, id, fun _ => True⟩

/-- A field that null leaves out. -/
def optional (name : String) : FieldForm := ⟨name, fun json => json = .null, id, fun _ => True⟩

/-- A field that is left out where it is empty. -/
def collected (name : String) : FieldForm :=
  ⟨name, fun json => json = .object [], id, fun _ => True⟩

/-- An optional field that holds an alternative. -/
def alternative (name : String) : FieldForm := { optional name with rewrite := spelled }

/-- An optional field that holds a record. -/
def record (name : String) (forms : List FieldForm) : FieldForm :=
  { optional name with
    rewrite := normalRecord forms
    Named := fun json => json ≠ .null → NamedRecord forms json }

/-- A field that holds a list of records under each of its names. -/
def recordLists (name : String) (forms : List FieldForm) : FieldForm :=
  { required name with
    rewrite := mapInside (mapInside (normalRecord forms))
    Named := fun json => ∀ members, json = .object members → ∀ member ∈ members,
      ∀ elements, member.2 = .array elements → ∀ element ∈ elements, NamedRecord forms element }

end FieldForm

/-! ## Records in normal form -/

section

variable {forms : List FieldForm} {members : List (String × Json)}
  (increasing : members.Pairwise fun first second => first.1 < second.1)
include increasing

theorem increasing_keptMembers :
    (keptMembers forms members).Pairwise fun first second => first.1 < second.1 := by
  apply List.Pairwise.filterMap _ _ increasing
  intro first second below kept isKept other isOther
  rcases Option.map_eq_some_iff.mp isKept with ⟨_, _, rfl⟩
  rcases Option.map_eq_some_iff.mp isOther with ⟨_, _, rfl⟩
  exact below

/-- Under a name stands what is kept of what stood there. -/
theorem find?_keptMembers (name : String) :
    Dictionary.find? name (keptMembers forms members) =
      (Dictionary.find? name members).bind (kept? forms name) := by
  apply Option.ext
  intro value
  rw [Dictionary.find?_eq_some_iff (increasing_keptMembers increasing), Option.bind_eq_some_iff,
    keptMembers, List.mem_filterMap]
  constructor
  · rintro ⟨member, present, isKept⟩
    rcases Option.map_eq_some_iff.mp isKept with ⟨_, isKept, same⟩
    cases same
    exact ⟨member.2, (Dictionary.find?_eq_some_iff increasing).mpr present, isKept⟩
  · rintro ⟨held, present, isKept⟩
    exact ⟨(name, held), (Dictionary.find?_eq_some_iff increasing).mp present, by simp [isKept]⟩

end

theorem kept?_of_mem {forms : List FieldForm} (distinct : (forms.map FieldForm.name).Nodup)
    {form : FieldForm} (member : form ∈ forms) (json : Json) :
    kept? forms form.name json = form.written? json := by
  have found : forms.find? (fun other => other.name = form.name) = some form := by
    cases sought : forms.find? (fun other => other.name = form.name) with
    | none =>
        have different := List.find?_eq_none.mp sought form member
        simp at different
    | some other =>
        have sameName : other.name = form.name := by simpa using List.find?_some sought
        rw [List.inj_on_of_nodup_map distinct (List.mem_of_find?_eq_some sought) member sameName]
  rw [kept?, found, Option.bind_some]

theorem kept?_eq_none {forms : List FieldForm} {name : String}
    (unknown : name ∉ forms.map FieldForm.name) (json : Json) : kept? forms name json = none := by
  have notFound : forms.find? (fun form => form.name = name) = none := by
    rw [List.find?_eq_none]
    intro form member sameName
    exact unknown (List.mem_map.mpr ⟨form, member, by simpa using sameName⟩)
  rw [kept?, notFound, Option.bind_none]

/-- Whether a field is written again in some form: not at all if it was absent, and otherwise as the
form says. -/
structure Field.Follows {ρ : Type} (field : Field ρ) (form : FieldForm) : Prop where
  name : form.name = field.name
  absent : ∀ value, field.read? none = some value → field.write? value = none
  present : ∀ json value, json.Ordered → form.Named json →
    field.read? (some json) = some value → field.write? value = form.written? json

namespace Layout

variable {ρ : Type} {layout : Layout ρ} {forms : List FieldForm}

theorem names_of_follows {fields : List (Field ρ)} (follows : fields.Forall₂ Field.Follows forms) :
    forms.map FieldForm.name = fields.map Field.name := by
  induction follows with
  | nil => rfl
  | cons first _ induction => rw [List.map_cons, List.map_cons, first.name, induction]

theorem exists_form_of_follows {fields : List (Field ρ)}
    (follows : fields.Forall₂ Field.Follows forms) {field : Field ρ} (member : field ∈ fields) :
    ∃ form ∈ forms, field.Follows form := by
  induction follows with
  | nil => cases member
  | cons first _ induction =>
      rcases List.mem_cons.mp member with rfl | later
      · exact ⟨_, List.mem_cons_self, first⟩
      · rcases induction later with ⟨form, inForms, fieldFollows⟩
        exact ⟨form, List.mem_cons_of_mem _ inForms, fieldFollows⟩

/-- A record that was read is written in normal form. -/
theorem write_eq_normalRecord (follows : layout.fields.Forall₂ Field.Follows forms) {json : Json}
    {record : ρ} (ordered : json.Ordered) (named : NamedRecord forms json)
    (read : layout.read? json = some record) :
    ofDictionary (layout.write record) = normalRecord forms json := by
  rcases named with ⟨members, rfl, named⟩
  rcases ordered_object_iff.mp ordered with ⟨increasing, orderedMembers⟩
  have names := names_of_follows follows
  suffices layout.write record =
      ⟨keptMembers forms members, increasing_keptMembers increasing⟩ from
    congrArg ofDictionary this
  apply Dictionary.ext_get?
  intro name
  refine Eq.trans ?_ (find?_keptMembers increasing name).symm
  by_cases isField : name ∈ layout.fields.map Field.name
  · rcases List.mem_map.mp isField with ⟨field, member, rfl⟩
    rcases exists_form_of_follows follows member with ⟨form, inForms, fieldFollows⟩
    have value := (layout.read?_iff members record).mp read field member
    rw [get?_write member]
    cases found : Dictionary.find? field.name members with
    | none =>
        rw [found] at value
        exact fieldFollows.absent _ value
    | some json =>
        rw [found] at value
        have present := (Dictionary.find?_eq_some_iff increasing).mp found
        have isNamed : form.Named json :=
          named form inForms json (by rw [fieldFollows.name]; exact present)
        rw [fieldFollows.present json _ (orderedMembers _ present) isNamed value,
          Option.bind_some, ← fieldFollows.name,
          kept?_of_mem (names ▸ layout.distinct) inForms]
  · rw [layout.write_eq, get?_fieldsOf_eq_none (by simpa [List.map_map] using isField)]
    cases Dictionary.find? name members with
    | none => rfl
    | some json => rw [Option.bind_some, kept?_eq_none (names ▸ isField)]

end Layout

/-! ## Fields of records -/

/-- Whether what is read is written again in some form, provided that the names in it are ordered
and that its records are objects. -/
def Rewrites {α : Type} (write : α → Json) (read? : Json → Option α) (form : FieldForm) : Prop :=
  ∀ json value, json.Ordered → form.Named json → read? json = some value →
    write value = form.rewrite json

theorem mapInside_id : ∀ json : Json, mapInside id json = json
  | .array elements => by rw [mapInside, List.map_id]
  | .object members => by
      rw [mapInside]
      exact congrArg Json.object (List.map_id members)
  | .null | .bool _ | .number _ | .string _ => rfl

/-- A dictionary is written with its names, and each value as it is written on its own. -/
theorem ofDictionary_map_of_dictionary? {α : Type} {write : α → Json} {read? : Json → Option α}
    {rewrite : Json → Json} {members : List (String × Json)}
    (increasing : members.Pairwise fun first second => first.1 < second.1)
    (rewrites : ∀ member ∈ members, ∀ value, read? member.2 = some value →
      write value = rewrite member.2) {dictionary : Dictionary α}
    (read : dictionary? read? (.object members) = some dictionary) :
    ofDictionary (dictionary.map write) = mapInside rewrite (.object members) := by
  rcases Option.map_eq_some_iff.mp read with ⟨entries, isRead, rfl⟩
  have written : entries.map (fun entry => (entry.1, write entry.2)) =
      members.map fun member => (member.1, rewrite member.2) := by
    apply map_write_eq_map_of_mapM members entries _ isRead
    intro member present entry isRead
    rcases Option.map_eq_some_iff.mp isRead with ⟨value, isValue, rfl⟩
    rw [rewrites member present value isValue]
  have sameNames : entries.map Prod.fst = members.map Prod.fst := by
    simpa [List.map_map, Function.comp_def] using congrArg (List.map Prod.fst) written
  have ordered : entries.Pairwise fun first second => first.1 < second.1 := by
    have names : (members.map Prod.fst).Pairwise fun first second => first < second :=
      List.pairwise_map.mpr increasing
    rw [← sameNames] at names
    exact List.pairwise_map.mp names
  have stored : ((Dictionary.ofList entries).map write).entries =
      entries.map fun entry => (entry.1, write entry.2) :=
    congrArg (List.map fun entry : String × α => (entry.1, write entry.2))
      (Dictionary.entries_ofList ordered)
  rw [ofDictionary, stored, written, mapInside]

theorem rewrites_dictionary {α : Type} {write : α → Json} {read? : Json → Option α}
    (writesBack : ∀ json value, read? json = some value → write value = json) {json : Json}
    (ordered : json.Ordered) {dictionary : Dictionary α}
    (read : dictionary? read? json = some dictionary) :
    ofDictionary (dictionary.map write) = json := by
  cases json with
  | object members =>
      have written := @ofDictionary_map_of_dictionary? _ write read? id _
        (ordered_object_iff.mp ordered).1 (fun member _ => writesBack member.2) _ read
      exact written.trans (mapInside_id _)
  | null | bool | number | string | array => cases read

namespace Field.Follows

variable {ρ α : Type} {name : String} {form : FieldForm} {write : α → Json} {read : Json → Option α}
  {readBack : ∀ value, read (write value) = some value} {readNull : read .null = none}

theorem required {get : ρ → α} (sameName : form.name = name)
    (always : ∀ json, form.omits json = false) (rewrites : Rewrites write read form) :
    (Field.required name write read readBack readNull get).Follows form where
  name := sameName
  absent _ isRead := by cases isRead
  present json value ordered named isRead := by
    have written := rewrites json value ordered named isRead
    change some (write value) = _
    rw [written, FieldForm.written?, always, if_neg Bool.false_ne_true]

theorem optional {get : ρ → Option α} (sameName : form.name = name)
    (nullOnly : ∀ json, form.omits json = decide (json = .null))
    (rewrites : Rewrites write read form) :
    (Field.optional name write read readBack readNull get).Follows form where
  name := sameName
  absent _ isRead := by cases isRead; rfl
  present json value ordered named isRead := by
    rw [FieldForm.written?, nullOnly]
    by_cases isNull : json = .null
    · subst isNull
      cases isRead
      rfl
    · have isRead : (read json).map some = some value := by
        cases json with
        | null => exact absurd rfl isNull
        | bool | number | string | array | object => exact isRead
      rcases Option.map_eq_some_iff.mp isRead with ⟨held, isHeld, rfl⟩
      rw [if_neg (by simpa using isNull)]
      exact congrArg some (rewrites json held ordered named isHeld)

theorem collected {get : ρ → Dictionary α}
    (writesBack : ∀ json value, read json = some value → write value = json) :
    (Field.collected name write read readBack get).Follows (.collected name) where
  name := rfl
  absent _ isRead := by cases isRead; rfl
  present json dictionary ordered _ isRead := by
    have written := rewrites_dictionary writesBack ordered isRead
    have emptyIff : dictionary.isEmpty = decide (json = .object []) := by
      rw [← written, Bool.eq_iff_iff, decide_eq_true_iff]
      unfold Dictionary.isEmpty
      simp [ofDictionary, Dictionary.map]
    change Json.collected write dictionary = _
    unfold Json.collected
    rw [emptyIff, written]
    rfl

end Field.Follows

/-- A value is written as it was read. -/
theorem rewrites_id {α : Type} {write : α → Json} {read? : Json → Option α} {form : FieldForm}
    (kept : ∀ json, form.rewrite json = json)
    (writesBack : ∀ json value, read? json = some value → write value = json) :
    Rewrites write read? form := by
  intro json value _ _ read
  rw [kept, writesBack json value read]

theorem bool_of_bool? (json : Json) (value : Bool) (read : json.bool? = some value) :
    .bool value = json := by
  cases json with
  | bool held => cases read; rfl
  | null | number | string | array | object => cases read

theorem text_of_alternative? {α : Type} {read? : String → Option α} {text : α → String}
    (found : ∀ name value, read? name = some value → text value = name) {json : Json} {value : α}
    (read : alternative? read? json = some value) : .string (text value) = spelled json := by
  unfold alternative? at read
  split at read
  · exact congrArg Json.string (found _ value read)
  · exact congrArg Json.string (found _ value read)
  · cases read

end Json

theorem limitToJson_of_limitOfJson? (json : Json) (limit : Int32)
    (read : limitOfJson? json = some limit) : limitToJson limit = json := by
  rcases Option.map_eq_some_iff.mp read with ⟨value, bounded, rfl⟩
  rcases Option.filter_eq_some_iff.mp bounded with ⟨isInteger, inRange⟩
  rw [decide_eq_true_iff] at inRange
  cases json with
  | number number =>
      cases number with
      | integer integer =>
          cases isInteger
          have same := Int32.toInt_ofInt_of_le (n := integer.value) (by omega) (by omega)
          simp [limitToJson, Json.ofInteger, same]
      | double double => cases isInteger
  | null | bool | string | array | object => cases isInteger

theorem Select.text_of_ofText? (name : String) (select : Select)
    (found : ofText? name = some select) : select.text = name := by
  simpa using List.find?_some found

theorem ReturnValue.text_of_ofText? (name : String) (value : ReturnValue)
    (found : ofText? name = some value) : value.text = name := by
  simpa using List.find?_some found

namespace Json.Field.Follows

variable {ρ : Type} (name : String)

theorem text (get : ρ → String) : (Field.text name get).Follows (.required name) :=
  .required rfl (fun _ => rfl) (rewrites_id (fun _ => rfl) AttributeValue.string_of_string?)

theorem optionalText (get : ρ → Option String) :
    (Field.optionalText name get).Follows (.optional name) :=
  .optional rfl (fun _ => rfl) (rewrites_id (fun _ => rfl) AttributeValue.string_of_string?)

theorem flag (get : ρ → Option Bool) : (Field.flag name get).Follows (.optional name) :=
  .optional rfl (fun _ => rfl) (rewrites_id (fun _ => rfl) bool_of_bool?)

theorem limit (get : ρ → Option Int32) : (Field.limit name get).Follows (.optional name) :=
  .optional rfl (fun _ => rfl) (rewrites_id (fun _ => rfl) limitToJson_of_limitOfJson?)

theorem select (get : ρ → Option Select) : (Field.select name get).Follows (.alternative name) :=
  .optional rfl (fun _ => rfl) fun _ _ _ _ => text_of_alternative? Select.text_of_ofText?

theorem returnValue (get : ρ → Option ReturnValue) :
    (Field.returnValue name get).Follows (.alternative name) :=
  .optional rfl (fun _ => rfl) fun _ _ _ _ => text_of_alternative? ReturnValue.text_of_ofText?

theorem names (get : ρ → Dictionary String) : (Field.names name get).Follows (.collected name) :=
  .collected AttributeValue.string_of_string?

theorem item (get : ρ → Item) : (Field.item name get).Follows (.collected name) :=
  .collected AttributeValue.toWire_of_ofWire?

/-- A key is written also if it is empty. -/
theorem key (get : ρ → Item) : (Field.key name get).Follows (.required name) :=
  .required rfl (fun _ => rfl) fun _ _ ordered _ =>
    rewrites_dictionary AttributeValue.toWire_of_ofWire? ordered

end Json.Field.Follows

/-! ## Writes of a batch in normal form -/

namespace WriteRequest

/-- The layout of the record that holds an item under one name. -/
def itemLayout (name : String) : Json.Layout Item where
  fields := [.key name id]
  distinct := List.nodup_singleton name
  read? := itemOfRecord? name
  write item := Json.fieldsOf [(name, some item.toWire)]
  write_eq _ := rfl
  read?_iff members item := by
    rw [List.forall_mem_singleton]
    exact .rfl
  exists_record members := by
    rw [List.forall_mem_singleton]
    rintro ⟨item, read⟩
    exact ⟨item, List.forall_mem_singleton.mpr read⟩

/-- The form of the record that holds an item under one name. -/
def itemForms (name : String) : List Json.FieldForm := [.required name]

def forms : List Json.FieldForm :=
  [.record "PutRequest" (itemForms "Item"), .record "DeleteRequest" (itemForms "Key")]

theorem rewrites_itemRecord (field name : String) :
    Json.Rewrites (itemRecord name) (itemOfRecord? name) (.record field (itemForms name)) := by
  intro json item ordered named read
  have notNull : json ≠ .null := by
    rintro rfl
    cases read
  exact (itemLayout name).write_eq_normalRecord (.cons (.key name id) .nil) ordered
    (named notNull) read

theorem follows_forms : layout.fields.Forall₂ Json.Field.Follows forms :=
  .cons (.optional rfl (fun _ => rfl) (rewrites_itemRecord _ _)) <|
    .cons (.optional rfl (fun _ => rfl) (rewrites_itemRecord _ _)) .nil

end WriteRequest

theorem Json.Field.Follows.writes {ρ : Type} (name : String)
    (get : ρ → Dictionary (List WriteRequest)) :
    (Field.writes name get).Follows (.recordLists name WriteRequest.forms) := by
  refine .required rfl (fun _ => rfl) ?_
  intro json batches ordered named read
  cases json with
  | null | bool | number | string | array => cases read
  | object members =>
      rcases ordered_object_iff.mp ordered with ⟨increasing, orderedMembers⟩
      apply ofDictionary_map_of_dictionary? increasing _ read
      rintro ⟨table, value⟩ present writes isRead
      cases value with
      | null | bool | number | string | object => cases isRead
      | array elements =>
          have orderedElements := ordered_array_iff.mp (orderedMembers _ present)
          apply congrArg Json.array
          apply map_write_eq_map_of_mapM elements writes _ isRead
          intro element inList write
          exact WriteRequest.layout.write_eq_normalRecord WriteRequest.follows_forms
            (orderedElements element inList) (named members rfl _ present elements rfl element inList)

/-! ## Inputs in normal form -/

namespace ScanInput

def forms : List Json.FieldForm :=
  [.required "TableName", .optional "IndexName", .optional "FilterExpression",
    .optional "ProjectionExpression", .collected "ExpressionAttributeNames",
    .collected "ExpressionAttributeValues", .optional "Limit", .collected "ExclusiveStartKey",
    .alternative "Select", .optional "ConsistentRead"]

theorem follows_forms : layout.fields.Forall₂ Json.Field.Follows forms :=
  .cons (.text _ _) <| .cons (.optionalText _ _) <| .cons (.optionalText _ _) <|
    .cons (.optionalText _ _) <| .cons (.names _ _) <| .cons (.item _ _) <| .cons (.limit _ _) <|
    .cons (.item _ _) <| .cons (.select _ _) <| .cons (.flag _ _) .nil

end ScanInput

namespace QueryInput

def forms : List Json.FieldForm :=
  [.required "TableName", .optional "IndexName", .optional "KeyConditionExpression",
    .optional "FilterExpression", .optional "ProjectionExpression",
    .collected "ExpressionAttributeNames", .collected "ExpressionAttributeValues",
    .optional "ScanIndexForward", .optional "Limit", .collected "ExclusiveStartKey",
    .alternative "Select", .optional "ConsistentRead"]

theorem follows_forms : layout.fields.Forall₂ Json.Field.Follows forms :=
  .cons (.text _ _) <| .cons (.optionalText _ _) <| .cons (.optionalText _ _) <|
    .cons (.optionalText _ _) <| .cons (.optionalText _ _) <| .cons (.names _ _) <|
    .cons (.item _ _) <| .cons (.flag _ _) <| .cons (.limit _ _) <| .cons (.item _ _) <|
    .cons (.select _ _) <| .cons (.flag _ _) .nil

end QueryInput

namespace UpdateInput

def forms : List Json.FieldForm :=
  [.required "TableName", .required "Key", .optional "UpdateExpression",
    .optional "ConditionExpression", .collected "ExpressionAttributeNames",
    .collected "ExpressionAttributeValues", .alternative "ReturnValues"]

theorem follows_forms : layout.fields.Forall₂ Json.Field.Follows forms :=
  .cons (.text _ _) <| .cons (.key _ _) <| .cons (.optionalText _ _) <|
    .cons (.optionalText _ _) <| .cons (.names _ _) <| .cons (.item _ _) <|
    .cons (.returnValue _ _) .nil

end UpdateInput

namespace BatchInput

def forms : List Json.FieldForm := [.recordLists "RequestItems" WriteRequest.forms]

theorem follows_forms : layout.fields.Forall₂ Json.Field.Follows forms :=
  .cons (.writes _ _) .nil

end BatchInput

/-- Whether records are read as they were written, and what is read from records that are objects is
written in normal form, which is read alike. -/
structure Json.Survives {ρ : Type} (read? : Json → Option ρ) (write : ρ → Json)
    (forms : List FieldForm) : Prop where
  readBack : ∀ record, read? (write record) = some record
  normal : ∀ json record, json.Ordered → NamedRecord forms json → read? json = some record →
    write record = normalRecord forms json
  stable : ∀ json record, json.Ordered → NamedRecord forms json → read? json = some record →
    read? (normalRecord forms json) = some record

theorem Json.Layout.survives {ρ : Type} {layout : Json.Layout ρ} {forms : List Json.FieldForm}
    (follows : layout.fields.Forall₂ Json.Field.Follows forms) :
    Json.Survives layout.read? (fun record => .ofDictionary (layout.write record)) forms where
  readBack := layout.read?_write
  normal _ _ ordered named read := layout.write_eq_normalRecord follows ordered named read
  stable json record ordered named read := by
    rw [← layout.write_eq_normalRecord follows ordered named read]
    exact layout.read?_write record

/-- All inputs and the writes of a batch are read as they were written, and what is read of them is
written in normal form. -/
theorem Json.survives_inputs :
    Survives ScanInput.ofJson? (fun input => .ofDictionary input.fields) ScanInput.forms ∧
      Survives QueryInput.ofJson? (fun input => .ofDictionary input.fields) QueryInput.forms ∧
      Survives UpdateInput.ofJson? (fun input => .ofDictionary input.fields) UpdateInput.forms ∧
      Survives BatchInput.ofJson? (fun input => .ofDictionary input.fields) BatchInput.forms ∧
      Survives WriteRequest.ofJson? WriteRequest.toJson WriteRequest.forms :=
  ⟨Layout.survives ScanInput.follows_forms, Layout.survives QueryInput.follows_forms,
    Layout.survives UpdateInput.follows_forms, Layout.survives BatchInput.follows_forms,
    Layout.survives WriteRequest.follows_forms⟩

/-! ## Bodies that say more than they have to -/

/-- A scan with an unknown field, two fields that are left out and an alternative in the longer
spelling. -/
def looseScan : Json :=
  .object [("ExpressionAttributeNames", .object []), ("IndexName", .null), ("Segment", .bool true),
    ("Select", .object [("COUNT", .null)]), ("TableName", .string "games")]

/-- A batch with unknown fields in its records. -/
def looseBatch : Json :=
  .object [("RequestItems", .object [("games", .array
      [.object [("DeleteRequest", .null), ("PutRequest", .object
        [("Item", .object []), ("Note", .bool true)])], .object [("Note", .null)]])]),
    ("Source", .string "test")]

theorem Json.survives_inputs_of_loose :
    looseScan.Ordered ∧ NamedRecord ScanInput.forms looseScan ∧
      (∃ input, ScanInput.ofJson? looseScan = some input ∧ ofDictionary input.fields =
        .object [("Select", .string "COUNT"), ("TableName", .string "games")]) ∧
      looseBatch.Ordered ∧ NamedRecord BatchInput.forms looseBatch ∧
      ∃ input, BatchInput.ofJson? looseBatch = some input ∧ ofDictionary input.fields =
        .object [("RequestItems", .object [("games", .array
          [.object [("PutRequest", .object [("Item", .object [])])], .object []])])] := by
  have orderedScan : looseScan.Ordered := by decide
  have orderedBatch : looseBatch.Ordered := by decide
  have namedScan : NamedRecord ScanInput.forms looseScan := by
    refine ⟨_, rfl, ?_⟩
    simp [ScanInput.forms, FieldForm.required, FieldForm.optional, FieldForm.collected,
      FieldForm.alternative]
  have namedBatch : NamedRecord BatchInput.forms looseBatch := by
    refine ⟨_, rfl, ?_⟩
    simp [BatchInput.forms, FieldForm.recordLists, WriteRequest.forms, WriteRequest.itemForms,
      FieldForm.record, FieldForm.optional, FieldForm.required, NamedRecord]
  rcases survives_inputs with ⟨scans, _, _, batches, _⟩
  refine ⟨orderedScan, namedScan, ?_, orderedBatch, namedBatch, ?_⟩
  · cases read : ScanInput.ofJson? looseScan with
    | none => exact absurd read (by decide)
    | some input =>
        have written := scans.normal _ _ orderedScan namedScan read
        exact ⟨input, rfl, written.trans (by decide)⟩
  · cases read : BatchInput.ofJson? looseBatch with
    | none => exact absurd read (by decide)
    | some input =>
        have written := batches.normal _ _ orderedBatch namedBatch read
        exact ⟨input, rfl, written.trans (by decide)⟩

/-- The longer spelling of an alternative is not kept. -/
theorem ScanInput.not_keeps_spelled_select :
    ¬∀ (json : Json) (input : ScanInput), json.Ordered → Json.NamedRecord forms json →
      ofJson? json = some input → ∀ name ∈ fieldNames, ∀ value, json.member? name = some value →
        value ≠ .null → value ≠ .object [] → input.fields.get? name = some value := by
  intro keeps
  let body : Json := .object [("Select", .object [("COUNT", .null)]), ("TableName", .string "t")]
  have ordered : body.Ordered := by decide
  have named : Json.NamedRecord forms body := by
    refine ⟨_, rfl, ?_⟩
    simp [forms, Json.FieldForm.required, Json.FieldForm.optional, Json.FieldForm.collected,
      Json.FieldForm.alternative]
  cases read : ofJson? body with
  | none => exact absurd read (by decide)
  | some input =>
      have kept := keeps body input ordered named read "Select" (by decide)
        (.object [("COUNT", .null)]) (by decide) (by decide) (by decide)
      have written : input.fields.get? "Select" = some (.string "COUNT") := by
        cases read
        decide
      rw [written] at kept
      exact absurd kept (by decide)

end ItemQuery
