import ItemQuery.Proofs.WireForm

/-!
The wire form is read strictly.

Whatever is read is exactly what writing the result makes, so each value has one wire form and
nothing else is read as it. For Base64 this comes down to the symbols (`Base64.symbol_of_number?`)
and to the bits that a block with fillings leaves over (`Base64.encode_of_decode?`); for values it
is an induction over the JSON that is read (`AttributeValue.toWire_of_ofWire?`).
-/

namespace ItemQuery

/-! ## Base64 -/

namespace Base64

/-- A character that has a number is the symbol of that number. -/
theorem symbol_of_number? {char : Char} {number : Nat} (numbered : number? char = some number) :
    number < 64 ∧ symbol number = char := by
  have ascii : ∀ code < 128, (number? (Char.ofNat code)).all fun number =>
      number < 64 ∧ symbol number = Char.ofNat code := by
    decide +kernel
  have below : char.toNat < 128 := by
    rw [number?] at numbered
    split at numbered
    · next range => exact Nat.lt_of_le_of_lt range.2 (by decide)
    · split at numbered
      · next range => exact Nat.lt_of_le_of_lt range.2 (by decide)
      · split at numbered
        · next range => exact Nat.lt_of_le_of_lt range.2 (by decide)
        · split at numbered
          · next plus => rw [plus]; decide
          · split at numbered
            · next slash => rw [slash]; decide
            · cases numbered
  have holds := ascii char.toNat below
  rw [Char.ofNat_toNat, numbered] at holds
  exact of_decide_eq_true holds

theorem toNat_joined (first second weight : Nat) :
    (joined first second weight).toNat = (first * weight % 256 + second / (64 / weight)) % 256 :=
  UInt8.toNat_ofNat'

/-- What is read as bytes is what writing these bytes makes. -/
theorem encode_of_decode? {text : List Char} {bytes : List UInt8}
    (decoded : decode? text = some bytes) : encode bytes = text := by
  fun_induction decode? text generalizing bytes with
  | case1 =>
      cases decoded
      rfl
  | case2 first second =>
      simp only [Option.bind_eq_bind, Option.bind_eq_some_iff, Option.ite_none_right_eq_some,
        Option.some.injEq] at decoded
      rcases decoded with ⟨high, isFirst, low, isSecond, filled, rfl⟩
      rcases symbol_of_number? isFirst with ⟨highBound, rfl⟩
      rcases symbol_of_number? isSecond with ⟨lowBound, rfl⟩
      have byte := toNat_joined high low 4
      have highBits : (joined high low 4).toNat / 4 = high := by omega
      have lowBits : (joined high low 4).toNat % 4 * 16 = low := by omega
      rw [encode, highBits, lowBits]
  | case3 first second third notFilling =>
      simp only [Option.bind_eq_bind, Option.bind_eq_some_iff, Option.ite_none_right_eq_some,
        Option.some.injEq] at decoded
      rcases decoded with ⟨high, isFirst, middle, isSecond, low, isThird, filled, rfl⟩
      rcases symbol_of_number? isFirst with ⟨highBound, rfl⟩
      rcases symbol_of_number? isSecond with ⟨middleBound, rfl⟩
      rcases symbol_of_number? isThird with ⟨lowBound, rfl⟩
      have byte := toNat_joined high middle 4
      have nextByte := toNat_joined middle low 16
      have highBits : (joined high middle 4).toNat / 4 = high := by omega
      have middleBits : (joined high middle 4).toNat % 4 * 16 + (joined middle low 16).toNat / 16 =
          middle := by omega
      have lowBits : (joined middle low 16).toNat % 16 * 4 = low := by omega
      rw [encode, highBits, middleBits, lowBits]
  | case4 first second third fourth rest notTwo notOne induction =>
      simp only [Option.bind_eq_bind, Option.bind_eq_some_iff, Option.some.injEq] at decoded
      rcases decoded with ⟨high, isFirst, next, isSecond, later, isThird, low, isFourth,
        others, isRest, rfl⟩
      rcases symbol_of_number? isFirst with ⟨highBound, rfl⟩
      rcases symbol_of_number? isSecond with ⟨nextBound, rfl⟩
      rcases symbol_of_number? isThird with ⟨laterBound, rfl⟩
      rcases symbol_of_number? isFourth with ⟨lowBound, rfl⟩
      have byte := toNat_joined high next 4
      have nextByte := toNat_joined next later 16
      have lastByte := toNat_joined later low 64
      have highBits : (joined high next 4).toNat / 4 = high := by omega
      have nextBits : (joined high next 4).toNat % 4 * 16 + (joined next later 16).toNat / 16 =
          next := by omega
      have laterBits : (joined next later 16).toNat % 16 * 4 + (joined later low 64).toNat / 64 =
          later := by omega
      have lowBits : (joined later low 64).toNat % 64 = low := by omega
      rw [encode, highBits, nextBits, laterBits, lowBits, induction isRest]
  | case5 => cases decoded

theorem decode?_eq_some_iff {text : List Char} {bytes : List UInt8} :
    decode? text = some bytes ↔ text = encode bytes := by
  constructor
  · intro decoded
    exact (encode_of_decode? decoded).symm
  · intro written
    rw [written, decode?_encode]

/-- Four symbols stand for three bytes, or for what is left of them. -/
theorem length_encode : ∀ bytes : List UInt8,
    (encode bytes).length = (bytes.length + 2) / 3 * 4
  | [] => rfl
  | [_] | [_, _] => by simp [encode]
  | _ :: _ :: _ :: rest => by
      rw [encode, List.length_cons, List.length_cons, List.length_cons, List.length_cons,
        length_encode rest, List.length_cons, List.length_cons, List.length_cons]
      omega

end Base64

/-! ## Lists -/

namespace Json

variable {α β : Type} {read? : β → Option α} {write : α → β}

/-- What is read element by element is written element by element. -/
theorem map_write_eq_map_of_mapM {rewrite : β → β} (texts : List β) (values : List α)
    (rewrites : ∀ written ∈ texts, ∀ value, read? written = some value →
      write value = rewrite written)
    (read : texts.mapM read? = some values) : values.map write = texts.map rewrite := by
  induction texts generalizing values with
  | nil =>
      cases read
      rfl
  | cons written rest induction =>
      rw [List.mapM_cons] at read
      simp only [Option.bind_eq_bind, Option.bind_eq_some_iff] at read
      rcases read with ⟨value, isFirst, others, isRest, finished⟩
      cases finished
      rcases List.forall_mem_cons.mp rewrites with ⟨first, later⟩
      rw [List.map_cons, List.map_cons, first value isFirst, induction others later isRest]

theorem map_write_of_mapM
    (writesBack : ∀ written value, read? written = some value → write value = written)
    (texts : List β) (values : List α) (read : texts.mapM read? = some values) :
    values.map write = texts := by
  rw [map_write_eq_map_of_mapM texts values (fun written _ => writesBack written) read,
    List.map_id']

theorem isSome_mapM (texts : List β) :
    (texts.mapM read?).isSome ↔ ∀ written ∈ texts, (read? written).isSome := by
  induction texts with
  | nil => simp
  | cons written rest induction =>
      rw [List.mapM_cons, List.forall_mem_cons, ← induction]
      cases read? written <;> cases rest.mapM read? <;> simp

end Json

/-! ## Attribute values -/

namespace AttributeValue

theorem tagged_of_ofText? {name : String} {tag : TypeTag} (known : TypeTag.ofText? name = some tag)
    (payload : Json) : tagged tag payload = .object [(name, payload)] := by
  rw [tagged, TypeTag.text_of_ofText? known]

theorem string_of_string? (json : Json) (text : String) (read : json.string? = some text) :
    .string text = json := by
  cases json with
  | string held => cases read; rfl
  | null | bool | number | array | object => cases read

theorem bytesToBase64_of_bytesOfBase64? (json : Json) (bytes : List UInt8)
    (read : bytesOfBase64? json = some bytes) : bytesToBase64 bytes = json := by
  rcases Option.bind_eq_some_iff.mp read with ⟨text, isText, decoded⟩
  rw [bytesToBase64, Base64.encode_of_decode? decoded, String.ofList_toList]
  exact string_of_string? json text isText

theorem ofWire?_object_cons_cons (first second : String × Json) (rest : List (String × Json)) :
    ofWire? (.object (first :: second :: rest)) = none := by
  rcases first with ⟨name, payload⟩
  cases payload <;> rfl

mutual
/-- What is read as a value is what writing this value makes. -/
theorem toWire_of_ofWire? : ∀ (json : Json) (value : AttributeValue),
    ofWire? json = some value → value.toWire = json
  | .object [(name, .array elements)], value, read => by
      rw [ofWire?] at read
      split at read
      · next known =>
          rcases Option.map_eq_some_iff.mp read with ⟨members, isRead, rfl⟩
          rw [toWire, Json.map_write_of_mapM string_of_string? elements members isRead,
            tagged_of_ofText? known]
      · next known =>
          rcases Option.map_eq_some_iff.mp read with ⟨members, isRead, rfl⟩
          rw [toWire, Json.map_write_of_mapM string_of_string? elements members isRead,
            tagged_of_ofText? known]
      · next known =>
          rcases Option.map_eq_some_iff.mp read with ⟨members, isRead, rfl⟩
          rw [toWire,
            Json.map_write_of_mapM bytesToBase64_of_bytesOfBase64? elements members isRead,
            tagged_of_ofText? known]
      · next known =>
          rcases Option.map_eq_some_iff.mp read with ⟨values, isRead, rfl⟩
          rw [toWire, elementsToWire_of_elementsOfWire? elements values isRead,
            tagged_of_ofText? known]
      · cases read
  | .object [(name, .object members)], value, read => by
      rw [ofWire?] at read
      split at read
      · next known =>
          rcases Option.map_eq_some_iff.mp read with ⟨entries, isRead, rfl⟩
          rw [toWire, entriesToWire_of_entriesOfWire? members entries isRead,
            tagged_of_ofText? known]
      · cases read
  | .object [(name, .string text)], value, read => by
      rw [ofWire?] at read
      split at read
      · next known =>
          cases read
          rw [toWire, tagged_of_ofText? known]
      · next known =>
          cases read
          rw [toWire, tagged_of_ofText? known]
      · next known =>
          rcases Option.map_eq_some_iff.mp read with ⟨bytes, decoded, rfl⟩
          rw [toWire, bytesToBase64_of_bytesOfBase64? (.string text) bytes decoded,
            tagged_of_ofText? known]
      · cases read
  | .object [(name, .bool held)], value, read => by
      rw [ofWire?] at read
      split at read
      · next known =>
          cases read
          rw [toWire, tagged_of_ofText? known]
      · next known =>
          cases read
          rw [toWire, tagged_of_ofText? known]
      · cases read
  | .null, _, read | .bool _, _, read | .number _, _, read | .string _, _, read
  | .array _, _, read | .object [], _, read | .object [(_, .null)], _, read
  | .object [(_, .number _)], _, read => by cases read
  | .object (first :: second :: rest), _, read => by
      rw [ofWire?_object_cons_cons] at read
      cases read

theorem elementsToWire_of_elementsOfWire? : ∀ (elements : List Json) (values : List AttributeValue),
    elementsOfWire? elements = some values → elementsToWire values = elements
  | [], values, read => by
      cases read
      rfl
  | element :: rest, values, read => by
      simp only [elementsOfWire?, Option.bind_eq_bind, Option.bind_eq_some_iff] at read
      rcases read with ⟨value, isFirst, others, isRest, finished⟩
      cases finished
      rw [elementsToWire, toWire_of_ofWire? element value isFirst,
        elementsToWire_of_elementsOfWire? rest others isRest]

theorem entriesToWire_of_entriesOfWire? :
    ∀ (members : List (String × Json)) (entries : List (String × AttributeValue)),
      entriesOfWire? members = some entries → entriesToWire entries = members
  | [], entries, read => by
      cases read
      rfl
  | (name, member) :: rest, entries, read => by
      simp only [entriesOfWire?, Option.bind_eq_bind, Option.bind_eq_some_iff] at read
      rcases read with ⟨value, isFirst, others, isRest, finished⟩
      cases finished
      rw [entriesToWire, toWire_of_ofWire? member value isFirst,
        entriesToWire_of_entriesOfWire? rest others isRest]
end

theorem ofWire?_eq_some_iff {json : Json} {value : AttributeValue} :
    ofWire? json = some value ↔ value.toWire = json := by
  constructor
  · exact toWire_of_ofWire? json value
  · intro written
    rw [← written, ofWire?_toWire]

/-! ## What is not read -/

/-- The kind of JSON in which the values of a type travel. -/
def payloadKind : TypeTag → Json.Kind
  | .s | .n | .b => .string
  | .ss | .ns | .bs | .l => .array
  | .bool | .null => .boolean
  | .m => .object

theorem exists_payload_of_toWire (value : AttributeValue) :
    ∃ payload, value.toWire = tagged value.typeTag payload ∧
      payload.kind = payloadKind value.typeTag := by
  cases value <;> exact ⟨_, rfl, rfl⟩

theorem ofWire?_tagged_b (payload : Json) :
    ofWire? (tagged .b payload) = (bytesOfBase64? payload).map .binary := by
  cases payload <;> rfl

theorem ofWire?_tagged_bs (elements : List Json) :
    ofWire? (tagged .bs (.array elements)) = (elements.mapM bytesOfBase64?).map .binarySet :=
  rfl

theorem isSome_bytesOfBase64? (json : Json) :
    (bytesOfBase64? json).isSome ↔ ∃ bytes, bytesToBase64 bytes = json := by
  rw [Option.isSome_iff_exists]
  constructor
  · rintro ⟨bytes, read⟩
    exact ⟨bytes, bytesToBase64_of_bytesOfBase64? json bytes read⟩
  · rintro ⟨bytes, written⟩
    exact ⟨bytes, by rw [← written, bytesOfBase64?_bytesToBase64]⟩

/-- Reading and writing are inverse to each other, so that nothing is read but what is written: one
member under the tag of a type, with a payload of the kind of this type. Bytes are read from the
one text that stands for them, whose length is a multiple of four, on their own as in sets. -/
theorem ofWire?_eq_some_iff_and_strict :
    (∀ (json : Json) (value : AttributeValue),
      ofWire? json = some value ↔ value.toWire = json) ∧
    (∀ (json : Json) (value : AttributeValue), ofWire? json = some value →
      ∃ payload, json = tagged value.typeTag payload ∧
        payload.kind = payloadKind value.typeTag) ∧
    (∀ payload : Json, (ofWire? (tagged .b payload)).isSome ↔
      ∃ bytes, bytesToBase64 bytes = payload) ∧
    (∀ elements : List Json, (ofWire? (tagged .bs (.array elements))).isSome ↔
      ∀ element ∈ elements, ∃ bytes, bytesToBase64 bytes = element) ∧
    (∀ (text : List Char) (bytes : List UInt8),
      Base64.decode? text = some bytes ↔ text = Base64.encode bytes) ∧
    ∀ bytes : List UInt8, (Base64.encode bytes).length = (bytes.length + 2) / 3 * 4 := by
  refine ⟨fun _ _ => ofWire?_eq_some_iff, ?_, ?_, ?_, fun _ _ => Base64.decode?_eq_some_iff,
    Base64.length_encode⟩
  · intro json value read
    rw [← toWire_of_ofWire? json value read]
    exact exists_payload_of_toWire value
  · intro payload
    rw [ofWire?_tagged_b, Option.isSome_map]
    exact isSome_bytesOfBase64? payload
  · intro elements
    rw [ofWire?_tagged_bs, Option.isSome_map, Json.isSome_mapM]
    simp only [isSome_bytesOfBase64?]

/-- Bytes in a list are read from their text, and written with it again; with bits left over in its
last symbol the text is not read. -/
theorem ofWire?_of_leftover :
    ofWire? (.object [("L", .array [.object [("B", .string "+w==")]])]) =
        some (.list [.binary [0xfb]]) ∧
      (∃ payload, .object [("L", .array [.object [("B", .string "+w==")]])] = tagged .l payload ∧
        payload.kind = .array) ∧
      ¬ ∃ bytes, bytesToBase64 bytes = .string "+x==" := by
  rcases ofWire?_eq_some_iff_and_strict with ⟨inverse, oneMember, bytes, _⟩
  have read : ofWire? (.object [("L", .array [.object [("B", .string "+w==")]])]) =
      some (.list [.binary [0xfb]]) := (inverse _ _).mpr (by decide +kernel)
  refine ⟨read, oneMember _ _ read, ?_⟩
  rw [← bytes]
  decide +kernel

end AttributeValue

end ItemQuery
