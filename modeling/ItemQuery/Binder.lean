import ItemQuery.Condition
import ItemQuery.Json.Record

/-!
Binders: what a draft makes its predicates with.

A binder is a mint and a marshaler. It makes a predicate from a kind, from the name of a kind, or
from a specification, which is a predicate written down as data.
-/

namespace ItemQuery

/-- A predicate as data: the name of its kind, the attribute, the value and the connective. -/
structure Specification where
  kindName : String
  key : String
  value : Json
  connective : Connective

namespace Specification

def fieldNames : List String := ["expression", "key", "value", "operator"]

def ofJson? (json : Json) : Option Specification := do
  let record ← Json.Record.ofJson? fieldNames json
  let kindName ← record.required? "expression" Json.string?
  let key ← record.required? "key" Json.string?
  let value ← record.required? "value" some
  let connective ← record.collected? "operator" (Json.alternative? Connective.ofText?) .and
  some ⟨kindName, key, value, connective⟩

end Specification

structure Binder where
  mint : Mint
  marshaler : Marshaler
deriving DecidableEq

namespace Binder

/-- The binder of a draft that nothing else was said about. -/
def fresh : Draw Binder := do return ⟨← Mint.fresh, Config.default.marshaler⟩

def predicate (binder : Binder) (kind : PredicateKind) (key : String) (operand : Operand)
    (connective : Connective) : Draw Predicate :=
  Predicate.create binder.mint kind key operand connective

def named (binder : Binder) (kindName key : String) (operand : Operand)
    (connective : Connective) : Draw Predicate :=
  match PredicateKind.ofName? kindName.toList with
  | some kind => binder.predicate kind key operand connective
  | none => throw (.unknownKind kindName)

def specified (binder : Binder) (specification : Specification) : Draw Predicate :=
  binder.named specification.kindName specification.key (.ofJson specification.value)
    specification.connective

end Binder

end ItemQuery
