import ItemQuery.Condition

/-!
Phrases: what the text of a condition says.

A phrase is a predicate or a group of phrases. It keeps of a predicate the kind, the attribute and
the placeholders, and of a group the order of its entries and the connectives between them. The
values behind the placeholders are no part of it, nor is the connective of a first entry, which no
text shows.

An expression is an entry of a condition that remembers what its fragments captured. Its text is
that of its phrase (`Expression.render_toEntry`), so the phrase is all that a text can tell.
-/

namespace ItemQuery

inductive Phrase
  | predicate (kind : PredicateKind) (key : String) (placeholders : List Placeholder)
  | emptyGroup
  | group (first : Phrase) (rest : List (Connective × Phrase))

namespace Phrase

mutual
/-- A phrase written out, each group in parentheses of its own. -/
def text : Phrase → String
  | .predicate kind key placeholders =>
      Predicate.renderKind kind key (placeholders.map Placeholder.token)
  | .emptyGroup => "()"
  | .group first rest => "(" ++ (first.text ++ textOfRest rest) ++ ")"

def textOfRest : List (Connective × Phrase) → String
  | [] => ""
  | (joined, phrase) :: rest => " " ++ joined.text ++ " " ++ phrase.text ++ textOfRest rest
end

end Phrase

/-- An entry of a condition together with the expressions that its fragments were captured from. -/
inductive Expression
  | predicate (predicate : Predicate)
  | group (connective : Connective) (entries : List Expression)
  | captured (connective : Connective) (source : Expression)

namespace Expression

def connective : Expression → Connective
  | .predicate simple => simple.connective
  | .group joined _ => joined
  | .captured joined _ => joined

mutual
/-- The entry that an expression is in a condition: there a fragment is text and bindings only. -/
def toEntry : Expression → Entry
  | .predicate simple => .predicate simple
  | .group joined entries => .group joined (toEntries entries)
  | .captured joined source => .fragment (source.toEntry.capture joined)

def toEntries : List Expression → List Entry
  | [] => []
  | expression :: rest => expression.toEntry :: toEntries rest
end

mutual
/-- What an expression says. A fragment says what it was captured from. -/
def phrase : Expression → Phrase
  | .predicate simple => .predicate simple.kind simple.key simple.placeholders
  | .group _ entries => phraseOfAll entries
  | .captured _ source => source.phrase

def phraseOfAll : List Expression → Phrase
  | [] => .emptyGroup
  | first :: rest => .group first.phrase (phrasesOfRest rest)

def phrasesOfRest : List Expression → List (Connective × Phrase)
  | [] => []
  | expression :: rest => (expression.connective, expression.phrase) :: phrasesOfRest rest
end

mutual
/-- The predicates of an expression, those that a fragment was captured from included. -/
def predicates : Expression → List Predicate
  | .predicate simple => [simple]
  | .group _ entries => predicatesOfAll entries
  | .captured _ source => source.predicates

def predicatesOfAll : List Expression → List Predicate
  | [] => []
  | expression :: rest => expression.predicates ++ predicatesOfAll rest
end

@[simp] theorem connective_toEntry (expression : Expression) :
    expression.toEntry.connective = expression.connective := by
  cases expression <;> rfl

/-! ## The text of an expression is that of its phrase -/

mutual
theorem render_toEntry : ∀ expression : Expression,
    expression.toEntry.render = expression.phrase.text
  | .predicate _ => rfl
  | .group _ [] => rfl
  | .group _ (first :: rest) => by
      simp only [toEntry, toEntries, Entry.render, Entry.renderAll, phrase, phraseOfAll,
        Phrase.text]
      rw [render_toEntry first, renderRest_toEntries rest]
  | .captured _ source => render_toEntry source

theorem renderRest_toEntries : ∀ rest : List Expression,
    Entry.renderRest (toEntries rest) = Phrase.textOfRest (phrasesOfRest rest)
  | [] => rfl
  | expression :: rest => by
      simp only [toEntries, Entry.renderRest, phrasesOfRest, Phrase.textOfRest,
        connective_toEntry]
      rw [render_toEntry expression, renderRest_toEntries rest]
end

end Expression

end ItemQuery
