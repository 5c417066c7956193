import Mathlib.Data.List.Basic
import Mathlib.Tactic.SplitIfs
import ItemQuery.ReadDraft

/-!
The names that spell a verb.

A name spells a verb when it is the word of the connective in any mixture of ASCII cases, then at
most one underscore, then a text that names the kind of predicate up to underscores and cases. The
model reads a name character by character. Reading it by offsets in bytes gives the same, also
where a character of several bytes stands across the end of a connective: such a name has no text
before that offset, and a text that has the word of a connective before the offset always has a rest
behind it.

A call by name is the operation that the verb has of its own, and a name that spells no verb takes
nothing from the supply.
-/

namespace ItemQuery

/-! ## Kinds by name -/

namespace PredicateKind

theorem foldName_of_ofName? {name : List Char} {kind : PredicateKind}
    (found : ofName? name = some kind) : foldName name = foldName kind.name.toList := by
  unfold ofName? at found
  have same := List.find?_some found
  simpa [eq_comm] using same

theorem foldName_name_injective {first second : PredicateKind}
    (same : foldName first.name.toList = foldName second.name.toList) : first = second := by
  revert same
  cases first <;> cases second <;> decide

theorem ofName?_eq_some_iff {name : List Char} {kind : PredicateKind} :
    ofName? name = some kind ↔ foldName name = foldName kind.name.toList := by
  refine ⟨foldName_of_ofName?, fun folded => ?_⟩
  cases found : ofName? name with
  | none =>
      have missed := List.find?_eq_none.mp found kind (mem_all kind)
      simp [folded] at missed
  | some other =>
      have same := foldName_of_ofName? found
      rw [foldName_name_injective (same.symm.trans folded)]

end PredicateKind

namespace Verb

/-! ## What a name spells -/

/-- A text without its underscores. -/
def withoutUnderscores (text : String) : String :=
  String.ofList (text.toList.filter fun char => char ≠ '_')

/-- Whether a name is the word of the verb's connective in any cases, at most one underscore, and a
text that is the name of the verb's kind up to underscores and cases. -/
def Spells (verb : Verb) (name : String) : Prop :=
  ∃ front separator rest : String,
    name = front ++ (separator ++ rest) ∧
    asciiLower front = verb.connective.text ∧
    (separator = "" ∨ separator = "_") ∧
    rest ≠ "" ∧
    asciiLower (withoutUnderscores rest) = asciiLower verb.kind.name

theorem asciiLower_withoutUnderscores (text : String) :
    asciiLower (withoutUnderscores text) = String.ofList (PredicateKind.foldName text.toList) := by
  simp [asciiLower, withoutUnderscores, PredicateKind.foldName]

theorem foldName_kindName (kind : PredicateKind) :
    String.ofList (PredicateKind.foldName kind.name.toList) = asciiLower kind.name := by
  cases kind <;> decide

theorem foldName_eq_iff (text : String) (kind : PredicateKind) :
    PredicateKind.foldName text.toList = PredicateKind.foldName kind.name.toList ↔
      asciiLower (withoutUnderscores text) = asciiLower kind.name := by
  rw [asciiLower_withoutUnderscores, ← foldName_kindName, String.ofList_inj]

/-! ## Reading by characters -/

theorem splitConnective?_eq_some_iff {text rest : List Char} {connective : Connective} :
    splitConnective? text = some (connective, rest) ↔
      ∃ front, text = front ++ rest ∧ front.map Char.toLower = connective.text.toList := by
  constructor
  · intro split
    rw [splitConnective?] at split
    split_ifs at split with isAnd isOr
    · cases split
      exact ⟨text.take 3, (List.take_append_drop 3 text).symm, isAnd⟩
    · cases split
      exact ⟨text.take 2, (List.take_append_drop 2 text).symm, isOr⟩
  · rintro ⟨front, rfl, lowered⟩
    have length : front.length = connective.text.toList.length := by
      rw [← lowered, List.length_map]
    cases connective with
    | and =>
        have length : front.length = 3 := length
        simp [splitConnective?, ← length, lowered, Connective.text]
    | or =>
        have length : front.length = 2 := length
        obtain ⟨first, second, rfl⟩ := List.length_eq_two.mp length
        obtain ⟨startsWithO, endsWithR⟩ : first.toLower = 'o' ∧ second.toLower = 'r' := by
          simpa [Connective.text] using lowered
        simp [splitConnective?, startsWithO, endsWithR]

theorem dropUnderscore_eq (text : List Char) :
    ∃ separator, (separator = [] ∨ separator = ['_']) ∧
      text = separator ++ dropUnderscore text := by
  fun_cases dropUnderscore text with
  | case1 rest => exact ⟨['_'], .inr rfl, rfl⟩
  | case2 text => exact ⟨[], .inl rfl, rfl⟩

@[simp] theorem foldName_underscore (rest : List Char) :
    PredicateKind.foldName ('_' :: rest) = PredicateKind.foldName rest := by
  simp [PredicateKind.foldName]

@[simp] theorem foldName_dropUnderscore (text : List Char) :
    PredicateKind.foldName (dropUnderscore text) = PredicateKind.foldName text := by
  fun_cases dropUnderscore text <;> simp

theorem ne_nil_of_foldName {text : List Char} {kind : PredicateKind}
    (folded : PredicateKind.foldName text = PredicateKind.foldName kind.name.toList) :
    text ≠ [] := by
  rintro rfl
  revert folded
  cases kind <;> decide

theorem ofText?_eq_some_iff {text : List Char} {verb : Verb} :
    ofText? text = some verb ↔
      ∃ rest, splitConnective? text = some (verb.connective, rest) ∧
        PredicateKind.foldName rest = PredicateKind.foldName verb.kind.name.toList := by
  obtain ⟨connective, kind⟩ := verb
  constructor
  · intro read
    simp only [ofText?, Option.bind_eq_bind, Option.bind_eq_some_iff] at read
    obtain ⟨⟨joined, rest⟩, split, named⟩ := read
    obtain ⟨-, found, named, equal⟩ : dropUnderscore rest ≠ [] ∧
        ∃ found, PredicateKind.ofName? (dropUnderscore rest) = some found ∧
          Verb.mk joined found = ⟨connective, kind⟩ := by
      simpa using named
    cases equal
    rw [PredicateKind.ofName?_eq_some_iff, foldName_dropUnderscore] at named
    exact ⟨rest, split, named⟩
  · rintro ⟨rest, split, folded⟩
    have named : PredicateKind.ofName? (dropUnderscore rest) = some kind := by
      rw [PredicateKind.ofName?_eq_some_iff, foldName_dropUnderscore, folded]
    have nonempty : dropUnderscore rest ≠ [] :=
      @ne_nil_of_foldName _ kind (by rw [foldName_dropUnderscore, folded])
    simp [ofText?, split, nonempty, named]

theorem ofText?_eq_some_iff_spells {name : String} {verb : Verb} :
    ofText? name.toList = some verb ↔ verb.Spells name := by
  rw [ofText?_eq_some_iff]
  constructor
  · rintro ⟨tail, split, folded⟩
    obtain ⟨front, text, lowered⟩ := splitConnective?_eq_some_iff.mp split
    obtain ⟨separator, separates, equal⟩ := dropUnderscore_eq tail
    refine ⟨.ofList front, .ofList separator, .ofList (dropUnderscore tail), ?_, ?_, ?_, ?_, ?_⟩
    · rw [← String.toList_inj]
      simpa [← equal] using text
    · simp [asciiLower, lowered]
    · rcases separates with rfl | rfl
      · exact .inl rfl
      · exact .inr rfl
    · have nonempty : dropUnderscore tail ≠ [] :=
        @ne_nil_of_foldName _ verb.kind (by rw [foldName_dropUnderscore, folded])
      simpa [← String.toList_inj] using nonempty
    · rw [← foldName_eq_iff]
      simpa using folded
  · rintro ⟨front, separator, rest, rfl, lowered, separates, -, folded⟩
    refine ⟨separator.toList ++ rest.toList, splitConnective?_eq_some_iff.mpr
      ⟨front.toList, by simp, by simp [← lowered, asciiLower]⟩, ?_⟩
    rw [← foldName_eq_iff] at folded
    rcases separates with rfl | rfl
    · simpa using folded
    · simpa using folded

/-- A name spells at most one verb, and reading it finds that verb. -/
theorem ofName_eq_ok_iff {name : String} {verb : Verb} :
    ofName name = .ok verb ↔ verb.Spells name := by
  rw [← ofText?_eq_some_iff_spells, ofName]
  cases ofText? name.toList <;> simp

theorem ofName_eq_error_iff {name : String} {error : QueryError} :
    ofName name = .error error ↔ error = .unsupported name ∧ ∀ verb, ¬ Spells verb name := by
  simp only [← ofText?_eq_some_iff_spells, ofName]
  cases ofText? name.toList <;> simp [eq_comm]

/-! ## Reading by offsets -/

/-- The text before an offset in bytes, none if the offset is inside of a character or behind the
end. -/
def before? (text : String) (bytes : Nat) : Option String :=
  (text.pos? ⟨bytes⟩).map fun position => (text.sliceTo position).copy

/-- The text behind an offset in bytes. -/
def after? (text : String) (bytes : Nat) : Option String :=
  (text.pos? ⟨bytes⟩).map fun position => (text.sliceFrom position).copy

/-- Where a text has something before an offset, cutting it there loses nothing. -/
theorem after?_of_before? {text front : String} {bytes : Nat}
    (taken : before? text bytes = some front) :
    ∃ rest, after? text bytes = some rest ∧ text = front ++ rest ∧
      front.utf8ByteSize = bytes := by
  obtain ⟨position, found, rfl⟩ := Option.map_eq_some_iff.mp taken
  refine ⟨(text.sliceFrom position).copy, by simp [after?, found], by simp, ?_⟩
  have offset : position.offset = ⟨bytes⟩ := by
    simp only [String.pos?, String.Slice.pos?, Option.map_eq_some_iff,
      Option.dite_none_right_eq_some, Option.some.injEq] at found
    obtain ⟨-, ⟨-, rfl⟩, rfl⟩ := found
    rfl
  have size := position.splits.offset_eq_rawEndPos
  rw [offset] at size
  exact (congrArg String.Pos.Raw.byteIdx size).symm

theorem before?_append (front rest : String) :
    before? (front ++ rest) front.utf8ByteSize = some front := by
  have valid : front.rawEndPos.IsValid (front ++ rest) :=
    String.Pos.Raw.isValid_iff_exists_append.mpr ⟨front, rest, rfl, rfl⟩
  have found : (front ++ rest).pos? front.rawEndPos = some ((front ++ rest).pos _ valid) := by
    simp [String.pos?, String.Slice.pos?, valid.toSlice, String.pos]
  have splits : ((front ++ rest).pos _ valid).Splits front rest := ⟨rfl, by simp⟩
  rw [before?, show (⟨front.utf8ByteSize⟩ : String.Pos.Raw) = front.rawEndPos from rfl, found,
    Option.map_some, splits.copy_sliceTo_eq]

/-- A word taken off the front of a name, in any mixture of ASCII cases and by the offset in bytes
at which the word ends. -/
def dropWord? (word name : String) : Option String := do
  let front ← before? name word.utf8ByteSize
  if asciiLower front = word then after? name word.utf8ByteSize else none

def splitByOffsets? (name : String) : Option (Connective × String) :=
  [Connective.and, .or].findSome? fun connective =>
    (dropWord? connective.text name).map fun rest => (connective, rest)

/-- The verb that a name spells, read by offsets in bytes. -/
def ofNameByOffsets (name : String) : Except QueryError Verb :=
  match splitByOffsets? name with
  | none => .error (.unsupported name)
  | some (connective, rest) =>
      let kindName := dropUnderscore rest.toList
      if kindName = [] then .error (.unsupported name)
      else
        match PredicateKind.ofName? kindName with
        | none => .error (.unsupported name)
        | some kind => .ok ⟨connective, kind⟩

theorem utf8Size_toLower (char : Char) : char.toLower.utf8Size = char.utf8Size := by
  unfold Char.toLower
  split
  · rename_i capital
    have sum : (char.val + ('a'.val - 'A'.val)).toNat = (char.val.toNat + 32) % 4294967296 := rfl
    have least : 65 ≤ char.val.toNat := UInt32.le_iff_toNat_le.mp capital.1
    have greatest : char.val.toNat ≤ 90 := UInt32.le_iff_toNat_le.mp capital.2
    have before : char.val ≤ 127 := UInt32.le_iff_toNat_le.mpr (Nat.le_trans greatest (by decide))
    have after : char.val + ('a'.val - 'A'.val) ≤ 127 := by
      rw [UInt32.le_iff_toNat_le, sum]
      change _ ≤ 127
      omega
    exact (Char.utf8Size_eq_one_iff.mpr after).trans (Char.utf8Size_eq_one_iff.mpr before).symm
  · rfl

theorem asciiLower_push (text : String) (char : Char) :
    asciiLower (text.push char) = (asciiLower text).push char.toLower := by
  simp [asciiLower]

theorem utf8ByteSize_asciiLower (text : String) :
    (asciiLower text).utf8ByteSize = text.utf8ByteSize := by
  induction text using String.push_induction with
  | empty => rfl
  | push text char induction =>
      rw [asciiLower_push, String.utf8ByteSize_push, String.utf8ByteSize_push, induction,
        utf8Size_toLower]

theorem dropWord?_eq_some_iff {word name rest : String} :
    dropWord? word name = some rest ↔ ∃ front, name = front ++ rest ∧ asciiLower front = word := by
  constructor
  · intro dropped
    obtain ⟨front, taken, dropped⟩ := Option.bind_eq_some_iff.mp dropped
    split_ifs at dropped with lowered
    obtain ⟨other, behind, joined, -⟩ := after?_of_before? taken
    rw [behind] at dropped
    cases dropped
    exact ⟨front, joined, lowered⟩
  · rintro ⟨front, rfl, rfl⟩
    have taken : before? (front ++ rest) (asciiLower front).utf8ByteSize = some front := by
      rw [utf8ByteSize_asciiLower, before?_append]
    obtain ⟨other, behind, joined, -⟩ := after?_of_before? taken
    obtain rfl : rest = other := by
      rw [← String.toList_inj, String.toList_append, String.toList_append] at joined
      exact String.toList_inj.mp (List.append_cancel_left joined)
    simp only [dropWord?, Option.bind_eq_bind, taken, Option.bind_some, if_true, behind]

theorem splitConnective?_toList_eq_some_iff {name rest : String} {connective : Connective} :
    splitConnective? name.toList = some (connective, rest.toList) ↔
      dropWord? connective.text name = some rest := by
  rw [splitConnective?_eq_some_iff, dropWord?_eq_some_iff]
  constructor
  · rintro ⟨front, text, lowered⟩
    refine ⟨.ofList front, ?_, by simp [asciiLower, lowered]⟩
    simpa [← String.toList_inj] using text
  · rintro ⟨front, rfl, lowered⟩
    exact ⟨front.toList, by simp, by simp [← lowered, asciiLower]⟩

/-- Both ways of reading split the same connective off. -/
theorem splitConnective?_toList (name : String) :
    splitConnective? name.toList =
      (splitByOffsets? name).map fun split => (split.1, split.2.toList) := by
  cases droppedAnd : dropWord? Connective.and.text name with
  | some rest =>
      rw [splitConnective?_toList_eq_some_iff.mpr droppedAnd]
      simp [splitByOffsets?, droppedAnd]
  | none =>
      cases droppedOr : dropWord? Connective.or.text name with
      | some rest =>
          rw [splitConnective?_toList_eq_some_iff.mpr droppedOr]
          simp [splitByOffsets?, droppedAnd, droppedOr]
      | none =>
          have missed : splitConnective? name.toList = none := by
            rw [Option.eq_none_iff_forall_not_mem]
            rintro ⟨connective, rest⟩ split
            have dropped : dropWord? connective.text name = some (.ofList rest) :=
              splitConnective?_toList_eq_some_iff.mp (by simpa using split)
            cases connective <;> simp_all
          simp [missed, splitByOffsets?, droppedAnd, droppedOr]

theorem ofNameByOffsets_eq (name : String) : ofNameByOffsets name = ofName name := by
  rw [ofName, ofText?, splitConnective?_toList, ofNameByOffsets]
  cases splitByOffsets? name with
  | none => rfl
  | some split =>
      obtain ⟨connective, rest⟩ := split
      by_cases empty : dropUnderscore rest.toList = []
      · simp [empty]
      · cases named : PredicateKind.ofName? (dropUnderscore rest.toList) <;> simp [empty, named]

/-! ## Names of operations -/

/-- The word that the operations of a kind have in their names. -/
def kindWord : PredicateKind → String
  | .eq => "eq"
  | .notEq => "not_eq"
  | .gt => "gt"
  | .gtEq => "gt_eq"
  | .lt => "lt"
  | .ltEq => "lt_eq"
  | .contains => "contains"
  | .beginsWith => "begins_with"
  | .within => "in"

/-- The name of the operation that a verb has of its own, such as `and_not_eq`. -/
def operationName (verb : Verb) : String := verb.connective.text ++ "_" ++ kindWord verb.kind

theorem spells_operationName (verb : Verb) : verb.Spells verb.operationName := by
  obtain ⟨connective, kind⟩ := verb
  rw [← ofText?_eq_some_iff_spells]
  cases connective <;> cases kind <;> decide

/-- A verb is also spelled by its connective and the name of its kind, such as `andNotEq`. -/
theorem spells_connective_append_name (verb : Verb) :
    verb.Spells (verb.connective.text ++ verb.kind.name) := by
  obtain ⟨connective, kind⟩ := verb
  rw [← ofText?_eq_some_iff_spells]
  cases connective <;> cases kind <;> decide

end Verb

/-! ## Calls by name -/

namespace ReadDraft

/-- Append a predicate on one value, by the operation that a verb has of its own. -/
def compare (draft : ReadDraft) (verb : Verb) (key : String) (value : AttributeValue) :
    Draw ReadDraft :=
  draft.restrict verb.connective verb.kind key (.scalar value)

/-- Append a predicate on several values, by the operation `and_in` or `or_in`. -/
def among (draft : ReadDraft) (connective : Connective) (key : String)
    (values : List AttributeValue) : Draw ReadDraft :=
  draft.restrict connective .within key (.collection values)

theorem call_of_spells {verb : Verb} {name : String} (spells : verb.Spells name)
    (draft : ReadDraft) (key : String) (operand : Operand) :
    draft.call name key operand = draft.restrict verb.connective verb.kind key operand := by
  rw [call, Verb.ofName_eq_ok_iff.mpr spells]
  rfl

theorem run_call_of_not_spells {name : String} (strange : ∀ verb, ¬ Verb.Spells verb name)
    (draft : ReadDraft) (key : String) (operand : Operand) (supply : Supply) :
    (draft.call name key operand).run supply = .error (.unsupported name) supply := by
  rw [call, Verb.ofName_eq_error_iff.mpr ⟨rfl, strange⟩]
  rfl

end ReadDraft

/-- Exactly the names that spell a verb are read, as that verb; any other name is refused as it
stands. Reading by offsets in bytes never has a word without a rest, and reads the same. A call by a
name that spells a verb does what the verb does, to the draft, the error and the supply, and so it
is the operation that the verb has of its own. A call by any other name takes nothing from the
supply. -/
theorem Verb.ofName_spells_and_call (name : String) :
    (∀ verb, ofName name = .ok verb ↔ verb.Spells name) ∧
    (∀ error, ofName name = .error error ↔
      error = .unsupported name ∧ ∀ verb, ¬ Spells verb name) ∧
    ofNameByOffsets name = ofName name ∧
    (∀ bytes front, before? name bytes = some front →
      ∃ rest, after? name bytes = some rest ∧ name = front ++ rest) ∧
    (∀ (draft : ReadDraft) (key : String) (supply : Supply),
      (∀ verb : Verb, verb.Spells name →
        (∀ operand, (draft.call name key operand).run supply =
          (draft.restrict verb.connective verb.kind key operand).run supply) ∧
        (∀ value, (draft.call name key (.scalar value)).run supply =
          (draft.compare verb key value).run supply) ∧
        (verb.kind = .within → ∀ values, (draft.call name key (.collection values)).run supply =
          (draft.among verb.connective key values).run supply)) ∧
      ((∀ verb, ¬ Spells verb name) → ∀ operand,
        (draft.call name key operand).run supply = .error (.unsupported name) supply)) ∧
    (∀ verb : Verb, (name = verb.operationName ∨ name = verb.connective.text ++ verb.kind.name) →
      verb.Spells name) := by
  refine ⟨fun verb => ofName_eq_ok_iff, fun error => ofName_eq_error_iff,
    ofNameByOffsets_eq name, ?_, ?_, ?_⟩
  · intro bytes front taken
    obtain ⟨rest, behind, joined, -⟩ := after?_of_before? taken
    exact ⟨rest, behind, joined⟩
  · intro draft key supply
    refine ⟨fun verb spells => ⟨?_, ?_, ?_⟩, ?_⟩
    · intro operand
      rw [ReadDraft.call_of_spells spells]
    · intro value
      rw [ReadDraft.call_of_spells spells, ReadDraft.compare]
    · intro within values
      rw [ReadDraft.call_of_spells spells, within, ReadDraft.among]
    · exact fun strange operand => draft.run_call_of_not_spells strange key operand supply
  · rintro verb (rfl | rfl)
    · exact verb.spells_operationName
    · exact verb.spells_connective_append_name

/-- A call of `oR__Not_eq` is `or_not_eq`, and a call of `anñd_eq`, where the word of a connective
would end inside of a character, takes nothing. -/
theorem Verb.ofName_spells_and_call_of_odd_names :
    ofName "oR__Not_eq" = .ok ⟨.or, .notEq⟩ ∧
    before? "anñd_eq" 3 = none ∧
    ofName "anñd_eq" = .error (.unsupported "anñd_eq") ∧
    (∀ draft key supply,
      (ReadDraft.call draft "oR__Not_eq" key (.scalar (.bool true))).run supply =
        (draft.compare ⟨.or, .notEq⟩ key (.bool true)).run supply ∧
      (draft.call "anñd_eq" key (.scalar (.bool true))).run supply =
        .error (.unsupported "anñd_eq") supply) := by
  have read : ofName "oR__Not_eq" = .ok ⟨.or, .notEq⟩ := by decide
  have refused : ofName "anñd_eq" = .error (.unsupported "anñd_eq") := by decide
  have accepted := ofName_spells_and_call "oR__Not_eq"
  have rejected := ofName_spells_and_call "anñd_eq"
  have spells := (accepted.1 ⟨.or, .notEq⟩).mp read
  have strange := ((rejected.2.1 _).mp refused).2
  refine ⟨read, by decide, refused, fun draft key supply => ⟨?_, ?_⟩⟩
  · exact ((accepted.2.2.2.2.1 draft key supply).1 _ spells).2.1 (.bool true)
  · exact (rejected.2.2.2.2.1 draft key supply).2 strange (.scalar (.bool true))

end ItemQuery
