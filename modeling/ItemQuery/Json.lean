import ItemQuery.Dictionary
import ItemQuery.Double

/-!
JSON values.

Whole numbers and binary64 numbers are told apart: a number is an integer of the signed or unsigned
64-bit range, or a finite double, and never both. The members of an object are a list; those that
this library reads or makes itself are in strictly increasing order of their names.
-/

namespace ItemQuery

namespace Json

/-- A whole number that fits in 64 bits, with or without a sign. -/
structure Integer where
  value : Int
  inRange : -0x8000000000000000 ≤ value ∧ value < 0x10000000000000000
deriving DecidableEq

def Integer.ofInt? (value : Int) : Option Integer :=
  if inRange : -0x8000000000000000 ≤ value ∧ value < 0x10000000000000000 then some ⟨value, inRange⟩ else none

inductive Number
  | integer (integer : Integer)
  | double (double : Double)
deriving DecidableEq

end Json

inductive Json
  | null
  | bool (value : Bool)
  | number (value : Json.Number)
  | string (value : String)
  | array (elements : List Json)
  | object (members : List (String × Json))

namespace Json

instance : Inhabited Json := ⟨null⟩

/-! ## Equality -/

mutual
def same : Json → Json → Bool
  | .null, .null => true
  | .bool first, .bool second => first == second
  | .number first, .number second => first == second
  | .string first, .string second => first == second
  | .array first, .array second => sameElements first second
  | .object first, .object second => sameMembers first second
  | _, _ => false

def sameElements : List Json → List Json → Bool
  | [], [] => true
  | first :: rest, second :: others => same first second && sameElements rest others
  | _, _ => false

def sameMembers : List (String × Json) → List (String × Json) → Bool
  | [], [] => true
  | (name, first) :: rest, (other, second) :: others =>
      name == other && same first second && sameMembers rest others
  | _, _ => false
end

mutual
theorem eq_of_same : ∀ first second : Json, same first second = true → first = second
  | .null, second, equal => by cases second <;> simp_all [same]
  | .bool _, second, equal => by cases second <;> simp_all [same]
  | .number _, second, equal => by cases second <;> simp_all [same]
  | .string _, second, equal => by cases second <;> simp_all [same]
  | .array first, second, equal => by
      cases second <;> simp only [same, Bool.false_eq_true] at equal
      exact congrArg Json.array (eq_of_sameElements first _ equal)
  | .object first, second, equal => by
      cases second <;> simp only [same, Bool.false_eq_true] at equal
      exact congrArg Json.object (eq_of_sameMembers first _ equal)

theorem eq_of_sameElements :
    ∀ first second : List Json, sameElements first second = true → first = second
  | [], second, equal => by cases second <;> simp_all [sameElements]
  | head :: rest, second, equal => by
      cases second <;> simp only [sameElements, Bool.false_eq_true, Bool.and_eq_true] at equal
      rw [eq_of_same head _ equal.1, eq_of_sameElements rest _ equal.2]

theorem eq_of_sameMembers :
    ∀ first second : List (String × Json), sameMembers first second = true → first = second
  | [], second, equal => by cases second <;> simp_all [sameMembers]
  | (name, head) :: rest, second, equal => by
      cases second <;> simp only [sameMembers, Bool.false_eq_true, Bool.and_eq_true,
        beq_iff_eq] at equal
      rw [equal.1.1, eq_of_same head _ equal.1.2, eq_of_sameMembers rest _ equal.2]
end

mutual
theorem same_self : ∀ json : Json, same json json = true
  | .null => rfl
  | .bool _ => by simp [same]
  | .number _ => by simp [same]
  | .string _ => by simp [same]
  | .array elements => by simpa [same] using sameElements_self elements
  | .object members => by simpa [same] using sameMembers_self members

theorem sameElements_self : ∀ elements : List Json, sameElements elements elements = true
  | [] => rfl
  | head :: rest => by simp [sameElements, same_self head, sameElements_self rest]

theorem sameMembers_self :
    ∀ members : List (String × Json), sameMembers members members = true
  | [] => rfl
  | (_, head) :: rest => by simp [sameMembers, same_self head, sameMembers_self rest]
end

instance : DecidableEq Json := fun first second =>
  decidable_of_iff (same first second = true)
    ⟨eq_of_same first second, fun equal => equal ▸ same_self first⟩

/-! ## Equality of numbers by value -/

mutual
/-- The value with positive zeros in place of the negative ones. Two values have the same form
exactly when they differ in nothing but the signs of zeros. -/
def unsignedZeros : Json → Json
  | .number (.double double) => .number (.double double.unsignedZero)
  | .array elements => .array (unsignedZerosOfAll elements)
  | .object members => .object (unsignedZerosOfMembers members)
  | other => other

def unsignedZerosOfAll : List Json → List Json
  | [] => []
  | first :: rest => first.unsignedZeros :: unsignedZerosOfAll rest

def unsignedZerosOfMembers : List (String × Json) → List (String × Json)
  | [] => []
  | (name, value) :: rest => (name, value.unsignedZeros) :: unsignedZerosOfMembers rest
end

/-- Whether two values are equal when their numbers are compared by what they denote. An integer
never equals a double. -/
def equals (first second : Json) : Bool := first.unsignedZeros = second.unsignedZeros

theorem equals_self (json : Json) : json.equals json = true := by simp [equals]

/-! ## Making and taking apart -/

/-- The names of the six kinds of value. -/
inductive Kind
  | null
  | boolean
  | number
  | string
  | array
  | object
deriving DecidableEq

def kind : Json → Kind
  | .null => .null
  | .bool _ => .boolean
  | .number _ => .number
  | .string _ => .string
  | .array _ => .array
  | .object _ => .object

def Kind.text : Kind → String
  | .null => "null"
  | .boolean => "boolean"
  | .number => "number"
  | .string => "string"
  | .array => "array"
  | .object => "object"

/-- The object that holds the entries of a dictionary. -/
def ofDictionary (dictionary : Dictionary Json) : Json := .object dictionary.entries

def ofInteger (integer : Integer) : Json := .number (.integer integer)

def bool? : Json → Option Bool
  | .bool value => some value
  | _ => none

def string? : Json → Option String
  | .string value => some value
  | _ => none

def integer? : Json → Option Int
  | .number (.integer integer) => some integer.value
  | _ => none

/-- The elements of an array, each read by `read?`; none if one of them cannot be read. -/
def list? (read? : Json → Option α) : Json → Option (List α)
  | .array elements => elements.mapM read?
  | _ => none

/-- The members of an object, each value read by `read?`; none if one of them cannot be read. -/
def dictionary? (read? : Json → Option α) : Json → Option (Dictionary α)
  | .object members =>
      (members.mapM fun member => (read? member.2).map (member.1, ·)).map Dictionary.ofList
  | _ => none

/-- The value of a member of an object. -/
def member? (json : Json) (name : String) : Option Json :=
  match json with
  | .object members => Dictionary.find? name members
  | _ => none

end Json

end ItemQuery
