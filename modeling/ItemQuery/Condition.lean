import ItemQuery.Predicate

/-!
Conditions: entries in order, joined by connectives.

An entry is a predicate, a nested group of entries, or a fragment, which is an expression captured
as its text and its bindings. Every entry carries the connective that joins it to the entries before
it; the connective of the first entry is not shown. A condition is written in parentheses, and so is
every group in it.
-/

namespace ItemQuery

/-- An expression captured as text, with the values bound to the tokens in it. -/
structure Fragment where
  expression : String
  values : Bindings
  connective : Connective
deriving DecidableEq

/-- An entry of a condition. -/
inductive Entry
  | predicate (predicate : Predicate)
  | group (connective : Connective) (entries : List Entry)
  | fragment (fragment : Fragment)

/-- A list of entries together with the connective that joins it to others, should it be nested. -/
structure Condition where
  connective : Connective
  entries : List Entry

namespace Entry

instance : Inhabited Entry := ⟨group .and []⟩

def connective : Entry → Connective
  | .predicate simple => simple.connective
  | .group joined _ => joined
  | .fragment captured => captured.connective

def withConnective (joined : Connective) : Entry → Entry
  | .predicate simple => .predicate (simple.withConnective joined)
  | .group _ entries => .group joined entries
  | .fragment captured => .fragment { captured with connective := joined }

/-! ## Equality -/

mutual
def same : Entry → Entry → Bool
  | .predicate first, .predicate second => first == second
  | .group joined first, .group other second => joined == other && sameEntries first second
  | .fragment first, .fragment second => first == second
  | _, _ => false

def sameEntries : List Entry → List Entry → Bool
  | [], [] => true
  | first :: rest, second :: others => same first second && sameEntries rest others
  | _, _ => false
end

mutual
theorem eq_of_same : ∀ first second : Entry, same first second = true → first = second
  | .predicate _, second, equal => by cases second <;> simp_all [same]
  | .fragment _, second, equal => by cases second <;> simp_all [same]
  | .group joined first, second, equal => by
      cases second <;> simp only [same, Bool.false_eq_true, Bool.and_eq_true, beq_iff_eq] at equal
      rw [equal.1, eq_of_sameEntries first _ equal.2]

theorem eq_of_sameEntries :
    ∀ first second : List Entry, sameEntries first second = true → first = second
  | [], second, equal => by cases second <;> simp_all [sameEntries]
  | head :: rest, second, equal => by
      cases second <;> simp only [sameEntries, Bool.false_eq_true, Bool.and_eq_true] at equal
      rw [eq_of_same head _ equal.1, eq_of_sameEntries rest _ equal.2]
end

mutual
theorem same_self : ∀ entry : Entry, same entry entry = true
  | .predicate _ => by simp [same]
  | .fragment _ => by simp [same]
  | .group _ entries => by simp [same, sameEntries_self entries]

theorem sameEntries_self : ∀ entries : List Entry, sameEntries entries entries = true
  | [] => rfl
  | head :: rest => by simp [sameEntries, same_self head, sameEntries_self rest]
end

instance : DecidableEq Entry := fun first second =>
  decidable_of_iff (same first second = true)
    ⟨eq_of_same first second, fun equal => equal ▸ same_self first⟩

/-! ## Text -/

mutual
def render : Entry → String
  | .predicate simple => simple.render
  | .group _ entries => "(" ++ renderAll entries ++ ")"
  | .fragment captured => captured.expression

/-- The entries of a group, each but the first after its connective. -/
def renderAll : List Entry → String
  | [] => ""
  | first :: rest => first.render ++ renderRest rest

def renderRest : List Entry → String
  | [] => ""
  | entry :: rest =>
      " " ++ entry.connective.text ++ " " ++ entry.render ++ renderRest rest
end

/-! ## Bindings -/

mutual
/-- The values that an entry binds, under their tokens, in the order in which they are bound. -/
def tokenValues : Entry → List (String × AttributeValue)
  | .predicate simple => simple.tokenValues
  | .group _ entries => tokenValuesOfAll entries
  | .fragment captured => captured.values.entries

def tokenValuesOfAll : List Entry → List (String × AttributeValue)
  | [] => []
  | entry :: rest => entry.tokenValues ++ tokenValuesOfAll rest
end

theorem tokenValuesOfAll_eq_flatMap (entries : List Entry) :
    tokenValuesOfAll entries = entries.flatMap tokenValues := by
  induction entries with
  | nil => rfl
  | cons entry rest induction => simp [tokenValuesOfAll, induction]

/-- The values bound by an entry. Of a token that is bound twice the later value counts. -/
def bindings (entry : Entry) : Bindings := Dictionary.ofList entry.tokenValues

/-- Capture an entry as it stands. -/
def capture (joined : Connective) (entry : Entry) : Fragment :=
  ⟨entry.render, entry.bindings, joined⟩

end Entry

namespace Condition

instance : DecidableEq Condition := fun first second =>
  decidable_of_iff (first.connective = second.connective ∧ first.entries = second.entries)
    ⟨fun equal => by cases first; cases second; simp_all, fun equal => by simp [equal]⟩

/-- The condition without entries. -/
def empty : Condition := ⟨.and, []⟩

instance : Inhabited Condition := ⟨empty⟩

def isEmpty (condition : Condition) : Bool := condition.entries.isEmpty

/-- The condition as an entry of another one. -/
def toEntry (condition : Condition) : Entry := .group condition.connective condition.entries

def push (condition : Condition) (entry : Entry) : Condition :=
  { condition with entries := condition.entries ++ [entry] }

/-- Append an entry and let a connective join it. -/
def add (condition : Condition) (joined : Connective) (entry : Entry) : Condition :=
  condition.push (entry.withConnective joined)

def pushAll (condition : Condition) (entries : List Entry) : Condition :=
  { condition with entries := condition.entries ++ entries }

def withConnective (condition : Condition) (joined : Connective) : Condition :=
  { condition with connective := joined }

def render (condition : Condition) : String := condition.toEntry.render

def tokenValues (condition : Condition) : List (String × AttributeValue) :=
  condition.toEntry.tokenValues

theorem tokenValues_eq (condition : Condition) :
    condition.tokenValues = condition.entries.flatMap Entry.tokenValues :=
  Entry.tokenValuesOfAll_eq_flatMap condition.entries

@[simp] theorem tokenValues_push (condition : Condition) (entry : Entry) :
    (condition.push entry).tokenValues = condition.tokenValues ++ entry.tokenValues := by
  simp [tokenValues_eq, push]

def bindings (condition : Condition) : Bindings := condition.toEntry.bindings

/-- The text of a condition that has entries. -/
def render? (condition : Condition) : Option String :=
  if condition.isEmpty then none else some condition.render

end Condition

end ItemQuery
