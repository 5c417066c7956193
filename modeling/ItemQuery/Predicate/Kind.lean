/-!
The words of conditions: connectives, the kinds of predicates and the shapes of their operands.
-/

namespace ItemQuery

/-- A text with its ASCII capitals made small. -/
def asciiLower (text : String) : String := String.ofList (text.toList.map Char.toLower)

/-! ## Connectives -/

/-- How an entry of a condition is joined to the entries before it. -/
inductive Connective
  | and
  | or
deriving DecidableEq

namespace Connective

instance : Inhabited Connective := ⟨and⟩

def text : Connective → String
  | .and => "and"
  | .or => "or"

/-- The connective that a text spells exactly. -/
def ofText? (text : String) : Option Connective :=
  if text = "and" then some .and else if text = "or" then some .or else none

theorem ofText?_text (connective : Connective) : ofText? connective.text = some connective := by
  cases connective <;> decide

/-- The connective that a word spells in any mixture of ASCII cases. -/
def ofWord? (word : String) : Option Connective := ofText? (asciiLower word)

end Connective

/-! ## Kinds of predicates -/

/-- Whether a predicate compares with one value or with several. -/
inductive OperandShape
  | scalar
  | collection
deriving DecidableEq

def OperandShape.description : OperandShape → String
  | .scalar => "a scalar operand"
  | .collection => "a collection operand"

inductive PredicateKind
  | eq
  | notEq
  | gt
  | gtEq
  | lt
  | ltEq
  | contains
  | beginsWith
  | within
deriving DecidableEq

namespace PredicateKind

def all : List PredicateKind :=
  [.eq, .notEq, .gt, .gtEq, .lt, .ltEq, .contains, .beginsWith, .within]

theorem mem_all (kind : PredicateKind) : kind ∈ all := by cases kind <;> decide

def name : PredicateKind → String
  | .eq => "Eq"
  | .notEq => "NotEq"
  | .gt => "Gt"
  | .gtEq => "GtEq"
  | .lt => "Lt"
  | .ltEq => "LtEq"
  | .contains => "Contains"
  | .beginsWith => "BeginsWith"
  | .within => "In"

/-- A name without its underscores and with small ASCII letters, the form in which names of kinds
are compared. -/
def foldName (name : List Char) : List Char :=
  (name.filter fun char => char ≠ '_').map Char.toLower

/-- The kind that a name stands for, with or without underscores and in any mixture of cases. -/
def ofName? (name : List Char) : Option PredicateKind :=
  all.find? fun kind => foldName kind.name.toList = foldName name

example : ofName? "BEGINS_with".toList = some .beginsWith := by decide

def shape : PredicateKind → OperandShape
  | .within => .collection
  | _ => .scalar

/-- Whether a predicate of this kind can be part of the key condition of a query. -/
def isKeyCondition : PredicateKind → Bool
  | .eq | .lt | .ltEq | .gt | .gtEq | .beginsWith => true
  | .notEq | .contains | .within => false

end PredicateKind

end ItemQuery
