import ItemQuery.Proofs.Ledger

/-!
Placeholders within one sequence.

Where all objects of a run draw from one mint on a sequence, every token keeps the value that it was
drawn for. A compiled draft carries that value for every predicate of its conditions, however deep
the predicate stands in groups and in what fragments were captured from, and the filter of a draft
can be taken in by any other. That a draft binds nothing else holds in every run
(`Stage.Reached.exists_contains_of_get?`).
-/

namespace ItemQuery

/-! ## Occurrences -/

/-- Whether a predicate stands somewhere in an entry: as the entry itself, in a group, or in an
entry that a fragment was captured from. -/
inductive Entry.Contains (made : List Object) (predicate : Predicate) : Entry → Prop
  | itself : Contains made predicate (.predicate predicate)
  | member {joined : Connective} {entries : List Entry} {entry : Entry} (inGroup : entry ∈ entries)
      (deeper : Contains made predicate entry) : Contains made predicate (.group joined entries)
  | captured {object : Object} {source : Entry} (joined : Connective) (known : object ∈ made)
      (present : source ∈ object.entries) (deeper : Contains made predicate source) :
      Contains made predicate (.fragment (source.capture joined))

namespace Entry.Contains

variable {made : List Object} {issues : List Issue} {predicate : Predicate} {entry : Entry}

theorem exists_mem_tokenValues (contains : entry.Contains made predicate) :
    ∀ binding ∈ predicate.tokenValues, ∃ value, (binding.1, value) ∈ entry.tokenValues := by
  intro binding member
  induction contains with
  | itself => exact ⟨binding.2, member⟩
  | member inGroup _ induction =>
      rcases induction with ⟨value, bound⟩
      exact ⟨value, Entry.mem_tokenValues_group.mpr ⟨_, inGroup, bound⟩⟩
  | captured joined _ _ _ induction =>
      rcases induction with ⟨value, bound⟩
      exact Entry.exists_mem_tokenValues_capture joined bound

/-- The predicates that stand in an entry were drawn for, also where only a fragment of them is
left. -/
theorem drawn (contains : entry.Contains made predicate)
    (accounted : entry.Accounted made issues)
    (allAccounted : ∀ object ∈ made, object.Accounted made issues) :
    ∀ binding ∈ predicate.tokenValues, Drawn issues binding := by
  induction contains with
  | itself => exact accounted.drawn
  | member inGroup _ induction => exact induction (accounted.of_mem _ inGroup)
  | captured joined known present _ induction =>
      exact induction (allAccounted _ known _ present)

end Entry.Contains

theorem Entry.Accounted.exists_contains {made : List Object} {issues : List Issue} {entry : Entry}
    (accounted : entry.Accounted made issues) :
    ∀ binding ∈ entry.tokenValues,
      ∃ predicate, entry.Contains made predicate ∧ binding ∈ predicate.tokenValues := by
  induction accounted with
  | predicate bound =>
      intro binding member
      exact ⟨_, .itself, member⟩
  | group joined _ induction =>
      intro binding member
      rcases Entry.mem_tokenValues_group.mp member with ⟨entry, inGroup, binds⟩
      rcases induction entry inGroup binding binds with ⟨predicate, contains, bound⟩
      exact ⟨predicate, .member inGroup contains, bound⟩
  | captured joined known present _ induction =>
      intro binding member
      have inSource := Entry.mem_tokenValues_of_capture member
      rcases induction binding inSource with ⟨predicate, contains, bound⟩
      exact ⟨predicate, .captured joined known present contains, bound⟩

/-- A compiled draft binds nothing but what its predicates bind, those behind its fragments
included. -/
theorem Stage.Reached.exists_contains_of_get? {stage : Stage} (reached : stage.Reached)
    {draft : ReadDraft} (isMade : .read draft ∈ stage.made) {token : String}
    {value : AttributeValue} (found : draft.toInput.attributeValues.get? token = some value) :
    ∃ entry ∈ (Object.read draft).entries, ∃ predicate,
      entry.Contains stage.made predicate ∧ (token, value) ∈ predicate.tokenValues := by
  rw [ReadDraft.attributeValues_toInput] at found
  have bound := Dictionary.mem_of_get?_ofList found
  rw [← Object.tokenValues_read] at bound
  rcases List.mem_flatMap.mp bound with ⟨entry, present, binds⟩
  have accounted := reached.ledger.accounted (.read draft) isMade entry present
  exact ⟨entry, present, accounted.exists_contains _ binds⟩

/-! ## Embedding -/

theorem Mint.sharesSequence_self {mint : Mint} {sequence : Nat}
    (onSequence : mint.source = .sequence sequence) : mint.sharesSequence mint = true := by
  simp [sharesSequence, onSequence]

theorem ReadDraft.exists_embed_of_sharesSequence {draft other : ReadDraft}
    (shares : draft.binder.mint.sharesSequence other.binder.mint = true)
    (connective : Connective) : ∃ grown, draft.embed other connective = .ok grown := by
  unfold embed
  split
  · exact ⟨draft, rfl⟩
  · have noCollision : draft.collision? other = none := by
      rw [collision?, if_pos shares]
    rw [noCollision]
    exact ⟨_, rfl⟩

/-! ## One mint for all -/

namespace Stage

/-- Where one mint on a sequence is shared by all, a predicate of a draft has its tokens bound to
the values that they were drawn for, and one draft can always take in the filter of another. -/
theorem get?_token_and_exists_embed {stage : Stage} (reached : stage.Reached) {mint : Mint}
    {sequence : Nat} (onSequence : mint.source = .sequence sequence)
    (shared : ∀ object ∈ stage.made, ∀ other ∈ object.mint?, other = mint) :
    (∀ draft, .read draft ∈ stage.made → ∀ entry ∈ (Object.read draft).entries, ∀ predicate,
      entry.Contains stage.made predicate → ∀ placeholder value,
        (placeholder, value) ∈ predicate.bound →
          ⟨mint, placeholder, some value⟩ ∈ stage.issues ∧
            draft.toInput.attributeValues.get? placeholder.token = some value) ∧
    ∀ parent child, .read parent ∈ stage.made → .read child ∈ stage.made → ∀ connective,
      ∃ grown, parent.embed child connective = .ok grown := by
  have ledger := reached.ledger
  have notRandom : mint.source ≠ .random := by simp [onSequence]
  have fromMint : ∀ binding, Drawn stage.issues binding → DrawnFrom mint stage.issues binding := by
    intro binding drawn
    apply drawn.from_of_not_elsewhere
    rintro ⟨issue, member, otherMint, _⟩
    rcases ledger.owned issue member with ⟨object, isMade, owns⟩
    exact otherMint (shared object isMade issue.mint owns)
  constructor
  · intro draft isMade entry present predicate contains placeholder value bound
    have accounted := ledger.accounted (.read draft) isMade
    have binds : (placeholder.token, value) ∈ predicate.tokenValues :=
      List.mem_map.mpr ⟨_, bound, rfl⟩
    have drawn := fromMint _
      (contains.drawn (accounted entry present) ledger.accounted _ binds)
    constructor
    · rcases drawn with ⟨other, sameToken, member⟩
      rwa [Placeholder.token_injective sameToken] at member
    · rcases contains.exists_mem_tokenValues _ binds with ⟨held, inEntry⟩
      have inDraft : (placeholder.token, held) ∈
          draft.target.tokenValues ++ draft.filter.tokenValues := by
        rw [← Object.tokenValues_read]
        exact List.mem_flatMap.mpr ⟨entry, present, inEntry⟩
      rcases Dictionary.exists_get?_ofList inDraft with ⟨last, found⟩
      have lastDrawn := fromMint _ (accounted.drawn_boundValues found)
      rw [ReadDraft.attributeValues_toInput, ReadDraft.boundValues, found,
        ledger.value_eq notRandom lastDrawn drawn]
  · intro parent child parentMade childMade connective
    apply ReadDraft.exists_embed_of_sharesSequence
    rw [shared _ parentMade parent.binder.mint rfl, shared _ childMade child.binder.mint rfl]
    exact Mint.sharesSequence_self onSequence

end Stage

/-! ## A run in which one draft takes in another -/

def gamesTable : Table := ⟨"games", none, .default, ⟨"p", .sequence 0⟩⟩

def isRated : Predicate := ⟨.eq, "rated", .and, [(⟨"p1"⟩, .bool true)]⟩

def ratedGames : ReadDraft := gamesTable.scan.push (.predicate isRated)

/-- A draft that was started later. A group that failed has drawn the second placeholder. -/
def namedGames : ReadDraft :=
  gamesTable.scan.push (.predicate ⟨.eq, "name", .and, [(⟨"p3"⟩, .string "chess")]⟩)

def namedOrRatedGames : ReadDraft :=
  namedGames.push (.fragment (ratedGames.filter.toEntry.capture .or))

def gamesStage : Stage :=
  (Stage.start fun _ => "").afterAll
    [.makeTable "games", .scanTable gamesTable,
      .step gamesTable.scan (.restrict .and .eq "rated" (.scalar (.bool true))),
      .step gamesTable.scan (.group .and
        [.restrict .and .eq "lost" (.scalar (.bool true)), .fail .malformed]),
      .step gamesTable.scan (.restrict .and .eq "name" (.scalar (.string "chess"))),
      .step namedGames (.embed ratedGames .or)]

theorem get?_token_and_exists_embed_games :
    gamesStage.Reached ∧
      (∀ object ∈ gamesStage.made, ∀ other ∈ object.mint?, other = gamesTable.mint) ∧
      namedOrRatedGames.toInput.attributeValues.get? ":p1" = some (.bool true) ∧
      ∃ grown, ratedGames.embed namedOrRatedGames .and = .ok grown := by
  have reached : gamesStage.Reached := ⟨_, Stage.leads_afterAll (by decide)⟩
  have shared : ∀ object ∈ gamesStage.made, ∀ other ∈ object.mint?, other = gamesTable.mint := by
    decide
  have made : .read ratedGames ∈ gamesStage.made ∧ .read namedOrRatedGames ∈ gamesStage.made := by
    decide
  have inRated : ratedGames.filter.toEntry.Contains gamesStage.made isRated :=
    @Entry.Contains.member _ _ _ _ (.predicate isRated) (by decide) .itself
  have inNamed : namedOrRatedGames.filter.toEntry.Contains gamesStage.made isRated := by
    apply @Entry.Contains.member _ _ _ _
      (.fragment (ratedGames.filter.toEntry.capture .or)) (by decide)
    apply @Entry.Contains.captured _ _ (.read ratedGames) _ .or made.1 _ inRated
    exact List.mem_singleton_self _
  rcases Stage.get?_token_and_exists_embed reached rfl shared with ⟨bound, embeds⟩
  have kept := bound namedOrRatedGames made.2 _ (List.mem_singleton_self _) isRated inNamed ⟨"p1"⟩
    (.bool true) (List.mem_singleton_self _)
  exact ⟨reached, shared, kept.2, embeds ratedGames namedOrRatedGames made.1 made.2 .and⟩

end ItemQuery
