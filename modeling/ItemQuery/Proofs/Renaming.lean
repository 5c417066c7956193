import ItemQuery.Proofs.Phrase
import ItemQuery.Proofs.Embedding
import ItemQuery.Proofs.Simulation

/-!
Renaming placeholders.

An expression is renamed in its predicates, those that its fragments were captured from included.
What is renamed says the same as before but for its placeholders (`Expression.phrase_rename`), and
it binds the same values under the tokens of the new placeholders (`Expression.renamed_bindings`),
provided that no two placeholders become one. Attributes stay as they are, also those with names
that look like tokens.

Of what a fragment captured only text and bindings are left. Where two runs are compared, the
expression behind it is that of the filter which it was captured from, and the fragment of the other
run must come from the filter of the draft that was made beside (`Expression.Traced`).
-/

namespace ItemQuery

/-! ## Phrases and expressions -/

mutual
def Phrase.rename (naming : Placeholder → Placeholder) : Phrase → Phrase
  | .predicate kind key placeholders => .predicate kind key (placeholders.map naming)
  | .emptyGroup => .emptyGroup
  | .group first rest => .group (first.rename naming) (renameRest naming rest)

def Phrase.renameRest (naming : Placeholder → Placeholder) :
    List (Connective × Phrase) → List (Connective × Phrase)
  | [] => []
  | (joined, phrase) :: rest => (joined, phrase.rename naming) :: renameRest naming rest
end

/-- A value with the placeholder that its own is renamed to. -/
def renameFirst (naming : Placeholder → Placeholder) (entry : Placeholder × AttributeValue) :
    Placeholder × AttributeValue :=
  (naming entry.1, entry.2)

def Predicate.rename (naming : Placeholder → Placeholder) (predicate : Predicate) : Predicate :=
  { predicate with bound := predicate.bound.map (renameFirst naming) }

theorem Predicate.placeholders_rename (naming : Placeholder → Placeholder)
    (predicate : Predicate) :
    (predicate.rename naming).placeholders = predicate.placeholders.map naming := by
  simp [placeholders, Predicate.rename, renameFirst]

namespace Expression

variable (naming : Placeholder → Placeholder)

mutual
def rename : Expression → Expression
  | .predicate simple => .predicate (simple.rename naming)
  | .group joined entries => .group joined (renameAll entries)
  | .captured joined source => .captured joined source.rename

def renameAll : List Expression → List Expression
  | [] => []
  | expression :: rest => expression.rename :: renameAll rest
end

@[simp] theorem connective_rename (expression : Expression) :
    (expression.rename naming).connective = expression.connective := by
  cases expression <;> rfl

mutual
/-- A renamed expression says what it said before, of other placeholders. -/
theorem phrase_rename : ∀ expression : Expression,
    (expression.rename naming).phrase = expression.phrase.rename naming
  | .predicate simple => by
      rw [Expression.rename, phrase, phrase, Phrase.rename, simple.placeholders_rename]
      rfl
  | .group _ [] => rfl
  | .group _ (first :: rest) => by
      simp only [Expression.rename, renameAll, phrase, phraseOfAll, Phrase.rename]
      rw [phrase_rename first, phrasesOfRest_renameAll rest]
  | .captured _ source => phrase_rename source

theorem phrasesOfRest_renameAll : ∀ rest : List Expression,
    phrasesOfRest (renameAll naming rest) = Phrase.renameRest naming (phrasesOfRest rest)
  | [] => rfl
  | expression :: rest => by
      simp only [renameAll, phrasesOfRest, Phrase.renameRest, connective_rename]
      rw [phrase_rename expression, phrasesOfRest_renameAll rest]
end

end Expression

/-! ## Bindings -/

/-- Whether bindings are for tokens of placeholders, and others are the same for the tokens of what
these are renamed to. -/
structure Bindings.Renamed (naming : Placeholder → Placeholder) (first second : Bindings) :
    Prop where
  get? (placeholder : Placeholder) :
    second.get? (naming placeholder).token = first.get? placeholder.token
  placeholders {name : String} {value : AttributeValue} (found : first.get? name = some value) :
    ∃ placeholder : Placeholder, name = placeholder.token
  renamed {name : String} {value : AttributeValue} (found : second.get? name = some value) :
    ∃ placeholder : Placeholder, name = (naming placeholder).token

namespace Bindings.Renamed

variable {naming : Placeholder → Placeholder}

theorem empty (naming : Placeholder → Placeholder) : Renamed naming .empty .empty where
  get? _ := rfl
  placeholders := by simp
  renamed := by simp

theorem append {first others second more : List (String × AttributeValue)}
    (early : Renamed naming (Dictionary.ofList first) (Dictionary.ofList others))
    (late : Renamed naming (Dictionary.ofList second) (Dictionary.ofList more)) :
    Renamed naming (Dictionary.ofList (first ++ second)) (Dictionary.ofList (others ++ more)) where
  get? placeholder := by
    rw [Dictionary.get?_ofList_append, Dictionary.get?_ofList_append, early.get?, late.get?]
  placeholders found := by
    rw [Dictionary.get?_ofList_append, Option.or_eq_some_iff] at found
    rcases found with found | ⟨_, found⟩
    · exact late.placeholders found
    · exact early.placeholders found
  renamed found := by
    rw [Dictionary.get?_ofList_append, Option.or_eq_some_iff] at found
    rcases found with found | ⟨_, found⟩
    · exact late.renamed found
    · exact early.renamed found

theorem single (injective : Function.Injective naming) (placeholder : Placeholder)
    (value : AttributeValue) :
    Renamed naming (Dictionary.ofList [(placeholder.token, value)])
      (Dictionary.ofList [((naming placeholder).token, value)]) where
  get? other := by
    rw [Dictionary.get?_ofList_cons, Dictionary.get?_ofList_cons]
    congr 1
    have same : (naming other).token = (naming placeholder).token ↔
        other.token = placeholder.token := by
      constructor
      · intro equal
        rw [injective (Placeholder.token_injective equal)]
      · intro equal
        rw [Placeholder.token_injective equal]
    simp only [same]
  placeholders found := by
    have member := Dictionary.mem_of_get?_ofList found
    exact ⟨placeholder, congrArg Prod.fst (List.mem_singleton.mp member)⟩
  renamed found := by
    have member := Dictionary.mem_of_get?_ofList found
    exact ⟨placeholder, congrArg Prod.fst (List.mem_singleton.mp member)⟩

/-- Values under the tokens of placeholders, and under those of the renamed ones. -/
theorem ofBound (injective : Function.Injective naming) :
    ∀ bound : List (Placeholder × AttributeValue), Renamed naming
      (Dictionary.ofList (bound.map fun entry => (entry.1.token, entry.2)))
      (Dictionary.ofList
        ((bound.map (renameFirst naming)).map fun entry => (entry.1.token, entry.2)))
  | [] => .empty naming
  | (placeholder, value) :: rest =>
      (single injective placeholder value).append (ofBound injective rest)

theorem contains_iff {first second : Bindings} (renamed : Renamed naming first second)
    (placeholder : Placeholder) :
    second.contains (naming placeholder).token = first.contains placeholder.token := by
  unfold Dictionary.contains
  rw [renamed.get?]

end Bindings.Renamed

namespace Expression

variable {naming : Placeholder → Placeholder}

mutual
/-- A renamed expression binds the same values under other tokens. -/
theorem renamed_bindings (injective : Function.Injective naming) : ∀ expression : Expression,
    Bindings.Renamed naming expression.toEntry.bindings
      (expression.rename naming).toEntry.bindings
  | .predicate simple => .ofBound injective simple.bound
  | .group _ entries => renamed_bindingsOfAll injective entries
  | .captured _ source => by
      have inner := renamed_bindings injective source
      simp only [Expression.rename, toEntry, Entry.bindings, Entry.tokenValues, Entry.capture,
        Dictionary.ofList_entries]
      exact inner

theorem renamed_bindingsOfAll (injective : Function.Injective naming) :
    ∀ expressions : List Expression, Bindings.Renamed naming
      (Dictionary.ofList (Entry.tokenValuesOfAll (toEntries expressions)))
      (Dictionary.ofList (Entry.tokenValuesOfAll (toEntries (renameAll naming expressions))))
  | [] => .empty naming
  | expression :: rest =>
      (renamed_bindings injective expression).append (renamed_bindingsOfAll injective rest)
end

end Expression

/-! ## Entries and conditions -/

/-- What two runs have made beside each other, the last first: an object of the one and of the other
run, with the name under which both are kept. -/
abbrev Pairs := List (String × Object × Object)

/-- Whether each fragment of an expression was captured from the filter of a draft, and that of the
renamed expression from the filter of the draft that was made beside it. -/
inductive Expression.Traced (made : Pairs) (naming : Placeholder → Placeholder) :
    Expression → Prop
  | predicate (simple : Predicate) : Traced made naming (.predicate simple)
  | group (joined : Connective) {entries : List Expression}
      (all : ∀ entry ∈ entries, Traced made naming entry) :
      Traced made naming (.group joined entries)
  | captured (joined : Connective) {name : String} {draft twin : ReadDraft} {source : Expression}
      (beside : (name, .read draft, .read twin) ∈ made)
      (own : source.toEntry = draft.filter.toEntry)
      (renamed : (source.rename naming).toEntry = twin.filter.toEntry)
      (traced : Traced made naming source) : Traced made naming (.captured joined source)

/-- Whether an expression is behind an entry of one run, and the renamed one behind an entry of
another. -/
structure Expression.Behind (made : Pairs) (naming : Placeholder → Placeholder)
    (expression : Expression) (entry twin : Entry) : Prop where
  traced : expression.Traced made naming
  own : expression.toEntry = entry
  renamed : (expression.rename naming).toEntry = twin

/-- Whether an entry of one run is that of another with its placeholders renamed, those behind its
fragments included. -/
def Entry.Renamed (made : Pairs) (naming : Placeholder → Placeholder) (entry twin : Entry) : Prop :=
  ∃ expression : Expression, expression.Behind made naming entry twin

/-- Whether two conditions differ in their placeholders only. -/
def Condition.Renamed (made : Pairs) (naming : Placeholder → Placeholder) :
    Condition → Condition → Prop :=
  Condition.Paired (Entry.Renamed made naming)

section

variable {made more : Pairs} {naming : Placeholder → Placeholder}

namespace Expression

theorem Traced.mono {expression : Expression} (traced : expression.Traced made naming)
    (moreMade : made ⊆ more) : expression.Traced more naming := by
  induction traced with
  | predicate simple => exact .predicate simple
  | group joined _ induction => exact .group joined induction
  | captured joined beside own renamed _ induction =>
      exact .captured joined (moreMade beside) own renamed induction

namespace Behind

variable {expression : Expression} {entry twin : Entry}

theorem render (behind : expression.Behind made naming entry twin) :
    entry.render = expression.phrase.text := by
  rw [← behind.own, expression.render_toEntry]

theorem render_twin (behind : expression.Behind made naming entry twin) :
    twin.render = (expression.phrase.rename naming).text := by
  rw [← behind.renamed, render_toEntry, phrase_rename]

end Behind

end Expression

namespace Entry.Renamed

variable {entries others : List Entry} {entry twin : Entry}

theorem mono (moreMade : made ⊆ more) (entry twin : Entry)
    (renamed : entry.Renamed made naming twin) : entry.Renamed more naming twin := by
  rcases renamed with ⟨expression, behind⟩
  exact ⟨expression, behind.traced.mono moreMade, behind.own, behind.renamed⟩

theorem predicate (simple : Predicate) :
    Entry.Renamed made naming (.predicate simple) (.predicate (simple.rename naming)) :=
  ⟨.predicate simple, .predicate simple, rfl, rfl⟩

theorem exists_expressions (all : List.Forall₂ (Entry.Renamed made naming) entries others) :
    ∃ expressions : List Expression, (∀ expression ∈ expressions, expression.Traced made naming) ∧
      Expression.toEntries expressions = entries ∧
      Expression.toEntries (Expression.renameAll naming expressions) = others := by
  induction all with
  | nil => exact ⟨[], nofun, rfl, rfl⟩
  | cons first _ induction =>
      rcases first with ⟨expression, traced, rfl, rfl⟩
      rcases induction with ⟨expressions, allTraced, rfl, rfl⟩
      exact ⟨expression :: expressions, List.forall_mem_cons.mpr ⟨traced, allTraced⟩, rfl, rfl⟩

theorem group (joined : Connective)
    (all : List.Forall₂ (Entry.Renamed made naming) entries others) :
    Entry.Renamed made naming (.group joined entries) (.group joined others) := by
  rcases exists_expressions all with ⟨expressions, traced, rfl, rfl⟩
  exact ⟨.group joined expressions, .group joined traced, rfl, rfl⟩

theorem bindings (injective : Function.Injective naming)
    (renamed : entry.Renamed made naming twin) :
    Bindings.Renamed naming entry.bindings twin.bindings := by
  rcases renamed with ⟨expression, _, rfl, rfl⟩
  exact expression.renamed_bindings injective

end Entry.Renamed

namespace Condition.Renamed

variable {condition twin : Condition}

theorem toEntry (renamed : condition.Renamed made naming twin) :
    condition.toEntry.Renamed made naming twin.toEntry := by
  unfold Condition.toEntry
  rw [renamed.connective]
  exact .group _ renamed.entries

theorem bindings (injective : Function.Injective naming)
    (renamed : condition.Renamed made naming twin) :
    Bindings.Renamed naming condition.bindings twin.bindings :=
  renamed.toEntry.bindings injective

end Condition.Renamed

/-- What is captured of two drafts that were made beside each other. -/
theorem Entry.Renamed.capture {name : String} {draft twin : ReadDraft} (joined : Connective)
    (beside : (name, .read draft, .read twin) ∈ made)
    (filters : draft.filter.Renamed made naming twin.filter) :
    Entry.Renamed made naming (.fragment (draft.filter.toEntry.capture joined))
      (.fragment (twin.filter.toEntry.capture joined)) := by
  rcases filters.toEntry with ⟨expression, traced, own, renamed⟩
  refine ⟨.captured joined expression, .captured joined beside own renamed traced, ?_, ?_⟩
  · rw [Expression.toEntry, own]
  · rw [Expression.rename, Expression.toEntry, renamed]

/-! ## Drafts -/

namespace ReadDraft.Paired

variable (injective : Function.Injective naming) {mint other : Mint}
include injective

theorem renamed_targetValues {first second : ReadTarget}
    (paired : first.Paired (Entry.Renamed made naming) second) :
    Bindings.Renamed naming (Dictionary.ofList first.tokenValues)
      (Dictionary.ofList second.tokenValues) := by
  cases paired with
  | scan => exact .empty naming
  | query keys forward => exact Condition.Renamed.bindings injective keys

theorem renamed_boundValues {first second : ReadDraft}
    (paired : first.Paired (Entry.Renamed made naming) mint other second) :
    Bindings.Renamed naming first.boundValues second.boundValues :=
  (renamed_targetValues injective paired.target).append
    (Condition.Renamed.bindings injective paired.filter)

end ReadDraft.Paired

end

end ItemQuery
