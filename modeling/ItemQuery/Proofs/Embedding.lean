import ItemQuery.Proofs.Ledger

/-!
What a draft binds after it took in the filter of another.

The bindings of the other filter come in behind those of the draft (`ReadDraft.filter_embed`), so
where both bind a token the value that comes in counts (`ReadDraft.get?_boundValues_embed`). Mints
on sequences of their own keep this from happening: a filter is taken in only if none of its tokens
is bound already.
-/

namespace ItemQuery

theorem Condition.bindings_of_isEmpty {condition : Condition} (isEmpty : condition.isEmpty = true) :
    condition.bindings = .empty := by
  have noEntries : condition.entries = [] := List.isEmpty_iff.mp isEmpty
  simp [bindings, Entry.bindings, toEntry, noEntries, Entry.tokenValues, Entry.tokenValuesOfAll,
    Dictionary.ofList]

theorem Mint.eq_of_sharesSequence {first second : Mint}
    (shares : first.sharesSequence second = true) :
    first = second ∧ first.source ≠ .random := by
  rcases first with ⟨stem, source⟩
  rcases second with ⟨other, otherSource⟩
  cases source <;> cases otherSource <;> simp_all [sharesSequence]

/-- Whether a draft carries all bindings of a dictionary. -/
def ReadDraft.Keeps (draft : ReadDraft) (bindings : Bindings) : Prop :=
  ∀ token value, bindings.get? token = some value → draft.boundValues.get? token = some value

namespace ReadDraft

variable {draft other grown : ReadDraft} {connective : Connective}

/-- The draft with the filter of another at the end of its own. -/
def taking (draft other : ReadDraft) (connective : Connective) : ReadDraft :=
  draft.push (.fragment (other.filter.toEntry.capture connective))

theorem of_embed (embedded : draft.embed other connective = .ok grown) :
    other.filter.isEmpty = true ∧ grown = draft ∨
      other.filter.isEmpty = false ∧ draft.collision? other = none ∧
        grown = draft.taking other connective := by
  unfold embed at embedded
  split at embedded
  · next isEmpty =>
      cases embedded
      exact .inl ⟨isEmpty, rfl⟩
  · next nonempty =>
      split at embedded
      · cases embedded
      · next noCollision =>
          cases embedded
          exact .inr ⟨Bool.not_eq_true _ ▸ nonempty, noCollision, rfl⟩

theorem filter_embed (embedded : draft.embed other connective = .ok grown) :
    grown.binder = draft.binder ∧ grown.target = draft.target ∧
      grown.filter.tokenValues = draft.filter.tokenValues ++ other.filter.bindings.entries := by
  rcases of_embed embedded with ⟨isEmpty, rfl⟩ | ⟨_, _, rfl⟩
  · simp [Condition.bindings_of_isEmpty isEmpty, Dictionary.empty]
  · exact ⟨rfl, rfl, Condition.tokenValues_push _ _⟩

theorem get?_boundValues_embed (embedded : draft.embed other connective = .ok grown)
    (token : String) :
    grown.boundValues.get? token =
      (other.filter.bindings.get? token).or (draft.boundValues.get? token) := by
  rcases filter_embed embedded with ⟨_, target, filter⟩
  rw [boundValues, target, filter, ← List.append_assoc, Dictionary.get?_ofList_append,
    Dictionary.ofList_entries]
  rfl

/-- Between mints that count on their own a filter comes in only if no token of it can ever be
issued by the mint of the draft, or if it has no tokens; and none of its tokens is bound. -/
theorem apart_of_embed (embedded : draft.embed other connective = .ok grown)
    (apart : draft.binder.mint.sharesSequence other.binder.mint = false) {token : String}
    (incoming : token ∈ other.filter.bindings.names) :
    draft.binder.mint.mayCollide other.binder.mint = false ∧
      draft.boundValues.get? token = none := by
  have noCollision : draft.collision? other = none := by
    rcases of_embed embedded with ⟨isEmpty, _⟩ | ⟨_, none, _⟩
    · rw [Condition.bindings_of_isEmpty isEmpty] at incoming
      cases incoming
    · exact none
  simp only [collision?, apart, Bool.false_eq_true, if_false] at noCollision
  split at noCollision
  · rw [List.head?_eq_none_iff.mp noCollision] at incoming
    cases incoming
  · next cannotCollide =>
      have unbound := List.find?_eq_none.mp noCollision token incoming
      rw [Dictionary.contains, Bool.not_eq_true, Option.isSome_eq_false_iff,
        Option.isNone_iff_eq_none] at unbound
      exact ⟨by simpa using cannotCollide, unbound⟩

end ReadDraft

/-- A scan with the default settings whose placeholders have a given stem. -/
def scanOn (stem : String) (sequence : Nat) : ReadDraft :=
  .scan "games" ⟨⟨stem, .sequence sequence⟩, Config.default.marshaler⟩

end ItemQuery
