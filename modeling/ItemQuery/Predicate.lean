import ItemQuery.Placeholder

/-!
Predicates: one condition on one attribute.

A predicate binds each of its operand values to a placeholder of its own, in the order of the
values. Its text names the placeholders and never the values.
-/

namespace ItemQuery

/-- What a predicate compares an attribute with. -/
inductive Operand
  | scalar (value : AttributeValue)
  | collection (values : List AttributeValue)
deriving DecidableEq

namespace Operand

def shape : Operand → OperandShape
  | .scalar _ => .scalar
  | .collection _ => .collection

def values : Operand → List AttributeValue
  | .scalar value => [value]
  | .collection values => values

/-- The operand that a JSON value stands for: the elements of an array, or the value itself. -/
def ofJson : Json → Operand
  | .array elements => .collection (AttributeValue.elementsOfJson elements)
  | json => .scalar (.ofJson json)

/-- What keeps an operand from being one of a predicate of some kind: its shape, or that it is a
collection without members. -/
def mismatch? (kind : PredicateKind) (operand : Operand) : Option OperandMismatch :=
  if operand.shape ≠ kind.shape then some (.wrongShape operand.shape)
  else if operand.values = [] then some .emptyCollection
  else none

end Operand

structure Predicate where
  kind : PredicateKind
  key : String
  connective : Connective
  bound : List (Placeholder × AttributeValue)
deriving DecidableEq

namespace Predicate

/-- A predicate whose values are bound to the next placeholders of a mint. An operand that does not
suit the kind takes none. -/
def create (mint : Mint) (kind : PredicateKind) (key : String) (operand : Operand)
    (connective : Connective) : Draw Predicate :=
  match operand.mismatch? kind with
  | some mismatch => throw (.operand kind mismatch)
  | none => do
      let bound ← mint.bindAll operand.values
      return ⟨kind, key, connective, bound⟩

def withConnective (connective : Connective) (predicate : Predicate) : Predicate :=
  { predicate with connective }

def placeholders (predicate : Predicate) : List Placeholder := predicate.bound.map Prod.fst

def tokens (predicate : Predicate) : List String := predicate.placeholders.map Placeholder.token

/-- The values of the predicate under the tokens that stand for them. -/
def tokenValues (predicate : Predicate) : List (String × AttributeValue) :=
  predicate.bound.map fun entry => (entry.1.token, entry.2)

/-- The text of a condition of some kind on an attribute. All kinds but one show a single token. -/
def renderKind (kind : PredicateKind) (key : String) (tokens : List String) : String :=
  let first := tokens.headD ""
  match kind with
  | .eq => key ++ " = " ++ first
  | .notEq => key ++ " <> " ++ first
  | .gt => key ++ " > " ++ first
  | .gtEq => key ++ " >= " ++ first
  | .lt => key ++ " < " ++ first
  | .ltEq => key ++ " <= " ++ first
  | .contains => "contains(" ++ key ++ ", " ++ first ++ ")"
  | .beginsWith => "begins_with(" ++ key ++ ", " ++ first ++ ")"
  | .within => key ++ " in (" ++ String.intercalate "," tokens ++ ")"

def render (predicate : Predicate) : String :=
  renderKind predicate.kind predicate.key predicate.tokens

end Predicate

end ItemQuery
