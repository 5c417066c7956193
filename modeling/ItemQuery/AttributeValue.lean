import ItemQuery.Dictionary
import ItemQuery.Text.Quoted
import ItemQuery.Json.Printer
import ItemQuery.Base64

/-!
Attribute values: what an attribute of a stored item can hold.

Numbers are kept as the text they were given as and are never normalised, so they are equal when
their texts are. Sets keep their order and their repetitions. The entries of a map are in the order
in which they were read, which for every map this library makes itself is the order of their names.
-/

namespace ItemQuery

/-- The ten types of attribute values. -/
inductive TypeTag
  | s
  | n
  | b
  | ss
  | ns
  | bs
  | bool
  | null
  | l
  | m
deriving DecidableEq

namespace TypeTag

def text : TypeTag → String
  | .s => "S"
  | .n => "N"
  | .b => "B"
  | .ss => "SS"
  | .ns => "NS"
  | .bs => "BS"
  | .bool => "BOOL"
  | .null => "NULL"
  | .l => "L"
  | .m => "M"

def all : List TypeTag := [.s, .n, .b, .ss, .ns, .bs, .bool, .null, .l, .m]

/-- The type that a tag names; the tag must be spelt exactly. -/
def ofText? (text : String) : Option TypeTag := all.find? fun tag => tag.text = text

theorem ofText?_text (tag : TypeTag) : ofText? tag.text = some tag := by
  cases tag <;> decide

theorem text_of_ofText? {tag : TypeTag} {text : String} (found : ofText? text = some tag) :
    tag.text = text := by
  simpa using List.find?_some found

end TypeTag

inductive AttributeValue
  | string (text : String)
  | number (text : String)
  | binary (bytes : List UInt8)
  | stringSet (members : List String)
  | numberSet (members : List String)
  | binarySet (members : List (List UInt8))
  | bool (value : Bool)
  | null (value : Bool)
  | list (elements : List AttributeValue)
  | map (entries : List (String × AttributeValue))

/-- The attributes of a stored item, or of the key of one. -/
abbrev Item := Dictionary AttributeValue

/-- The values bound to the placeholders of a request, under the tokens that stand for them. -/
abbrev Bindings := Dictionary AttributeValue

namespace AttributeValue

instance : Inhabited AttributeValue := ⟨null true⟩

def typeTag : AttributeValue → TypeTag
  | .string _ => .s
  | .number _ => .n
  | .binary _ => .b
  | .stringSet _ => .ss
  | .numberSet _ => .ns
  | .binarySet _ => .bs
  | .bool _ => .bool
  | .null _ => .null
  | .list _ => .l
  | .map _ => .m

/-! ## Equality -/

mutual
def same : AttributeValue → AttributeValue → Bool
  | .string first, .string second => first == second
  | .number first, .number second => first == second
  | .binary first, .binary second => first == second
  | .stringSet first, .stringSet second => first == second
  | .numberSet first, .numberSet second => first == second
  | .binarySet first, .binarySet second => first == second
  | .bool first, .bool second => first == second
  | .null first, .null second => first == second
  | .list first, .list second => sameElements first second
  | .map first, .map second => sameEntries first second
  | _, _ => false

def sameElements : List AttributeValue → List AttributeValue → Bool
  | [], [] => true
  | first :: rest, second :: others => same first second && sameElements rest others
  | _, _ => false

def sameEntries : List (String × AttributeValue) → List (String × AttributeValue) → Bool
  | [], [] => true
  | (name, first) :: rest, (other, second) :: others =>
      name == other && same first second && sameEntries rest others
  | _, _ => false
end

mutual
theorem eq_of_same :
    ∀ first second : AttributeValue, same first second = true → first = second
  | .string _, second, equal => by cases second <;> simp_all [same]
  | .number _, second, equal => by cases second <;> simp_all [same]
  | .binary _, second, equal => by cases second <;> simp_all [same]
  | .stringSet _, second, equal => by cases second <;> simp_all [same]
  | .numberSet _, second, equal => by cases second <;> simp_all [same]
  | .binarySet _, second, equal => by cases second <;> simp_all [same]
  | .bool _, second, equal => by cases second <;> simp_all [same]
  | .null _, second, equal => by cases second <;> simp_all [same]
  | .list first, second, equal => by
      cases second <;> simp only [same, Bool.false_eq_true] at equal
      exact congrArg AttributeValue.list (eq_of_sameElements first _ equal)
  | .map first, second, equal => by
      cases second <;> simp only [same, Bool.false_eq_true] at equal
      exact congrArg AttributeValue.map (eq_of_sameEntries first _ equal)

theorem eq_of_sameElements :
    ∀ first second : List AttributeValue, sameElements first second = true → first = second
  | [], second, equal => by cases second <;> simp_all [sameElements]
  | head :: rest, second, equal => by
      cases second <;> simp only [sameElements, Bool.false_eq_true, Bool.and_eq_true] at equal
      rw [eq_of_same head _ equal.1, eq_of_sameElements rest _ equal.2]

theorem eq_of_sameEntries :
    ∀ first second : List (String × AttributeValue),
      sameEntries first second = true → first = second
  | [], second, equal => by cases second <;> simp_all [sameEntries]
  | (name, head) :: rest, second, equal => by
      cases second <;> simp only [sameEntries, Bool.false_eq_true, Bool.and_eq_true,
        beq_iff_eq] at equal
      rw [equal.1.1, eq_of_same head _ equal.1.2, eq_of_sameEntries rest _ equal.2]
end

mutual
theorem same_self : ∀ value : AttributeValue, same value value = true
  | .string _ => by simp [same]
  | .number _ => by simp [same]
  | .binary _ => by simp [same]
  | .stringSet _ => by simp [same]
  | .numberSet _ => by simp [same]
  | .binarySet _ => by simp [same]
  | .bool _ => by simp [same]
  | .null _ => by simp [same]
  | .list elements => by simpa [same] using sameElements_self elements
  | .map entries => by simpa [same] using sameEntries_self entries

theorem sameElements_self :
    ∀ elements : List AttributeValue, sameElements elements elements = true
  | [] => rfl
  | head :: rest => by simp [sameElements, same_self head, sameElements_self rest]

theorem sameEntries_self :
    ∀ entries : List (String × AttributeValue), sameEntries entries entries = true
  | [] => rfl
  | (_, head) :: rest => by simp [sameEntries, same_self head, sameEntries_self rest]
end

instance : DecidableEq AttributeValue := fun first second =>
  decidable_of_iff (same first second = true)
    ⟨eq_of_same first second, fun equal => equal ▸ same_self first⟩

/-! ## Values of other types as attribute values -/

/-- A whole number as its decimal text. -/
def ofInteger (integer : Int) : AttributeValue :=
  .number (String.ofList (Numeral.ofInteger integer))

/-- How a double is written as the text of a number: every digit, and no exponent. -/
def layout : Layout := ⟨.away, false, none⟩

/-- The text of a binary64 number, finite or not. -/
def textOfDouble : Double.Extended → String
  | .nan => "NaN"
  | .infinite true => "-inf"
  | .infinite false => "inf"
  | .finite double => String.ofList (layout.double double)

/-- A binary64 number as the text of a number, whether or not the store can hold it. -/
def ofAnyDouble (double : Double.Extended) : AttributeValue := .number (textOfDouble double)

/-! ## Short display -/

/-- The type and a summary: the text of strings and numbers, the members of sets of texts, and the
size of everything else. -/
def display (value : AttributeValue) : String :=
  let summary :=
    match value with
    | .string text => text
    | .number text => text
    | .binary bytes => s!"{bytes.length} bytes"
    | .stringSet members => quotedList members
    | .numberSet members => quotedList members
    | .binarySet members => s!"{members.length} items"
    | .bool value => toString value
    | .null value => toString value
    | .list elements => s!"{elements.length} items"
    | .map entries => s!"{entries.length} keys"
  "\x7b" ++ value.typeTag.text ++ ": " ++ summary ++ "\x7d"

end AttributeValue

end ItemQuery
