import ItemQuery.Error

/-!
Verbs: filter operations that are named by a text, such as `orContains` or `and_gt_eq`.

A verb is a connective in any mixture of ASCII cases, then at most one underscore, then the name of
a kind of predicate.
-/

namespace ItemQuery

structure Verb where
  connective : Connective
  kind : PredicateKind
deriving DecidableEq

namespace Verb

/-- Split off the connective that a text begins with. -/
def splitConnective? (text : List Char) : Option (Connective × List Char) :=
  if (text.take 3).map Char.toLower = ['a', 'n', 'd'] then some (.and, text.drop 3)
  else if (text.take 2).map Char.toLower = ['o', 'r'] then some (.or, text.drop 2)
  else none

/-- The text after one underscore, should it begin with one. -/
def dropUnderscore : List Char → List Char
  | '_' :: rest => rest
  | text => text

def ofText? (text : List Char) : Option Verb := do
  let (connective, rest) ← splitConnective? text
  let kindName := dropUnderscore rest
  if kindName = [] then none
  else (PredicateKind.ofName? kindName).map fun kind => ⟨connective, kind⟩

example : ofText? "AND_gt_eq".toList = some ⟨.and, .gtEq⟩ := by decide
example : ofText? "and".toList = none := by decide

/-- The verb that a name spells, or an error with the name as it was given. -/
def ofName (name : String) : Except QueryError Verb :=
  match ofText? name.toList with
  | some verb => .ok verb
  | none => .error (.unsupported name)

end Verb

end ItemQuery
