import ItemQuery.Proofs.Embedding.Agreement
import ItemQuery.Proofs.Embedding.LaterDraws

/-!
Conditions that are taken in without a look at their tokens.

A condition is nested as it is, and so is what the function that builds a group made, whatever mints
their predicates were drawn from. Tokens of the mint of the draft are safe, now and later. A token
that was drawn elsewhere can replace a value of the draft, or be drawn again by the mint of the
draft; nothing refuses it (`ReadDraft.keeps_and_never_drawn_iff_of_nest`).
-/

namespace ItemQuery

/-- A mint never draws some tokens again exactly if they are none of the placeholders that it has
still to issue. -/
theorem Stage.neverDraws_iff {stage : Stage} {draft : ReadDraft}
    (made : .read draft ∈ stage.made) (tokens : List String) :
    stage.NeverDraws draft.binder.mint tokens ↔
      ∀ index, draft.binder.mint.count stage.supply ≤ index →
        (draft.binder.mint.nth stage.supply.randomWord index).token ∉ tokens := by
  constructor
  · intro never index ahead
    rcases exists_leads_count made ahead with ⟨later, leads, counted⟩
    rcases draft.binder.mint.run_next_eq later.supply with ⟨after, drawn, _⟩
    rw [counted, leads.randomWord_eq] at drawn
    exact never later leads _ after drawn
  · intro never later leads placeholder after drawn
    rcases draft.binder.mint.run_next_eq later.supply with ⟨_, next, _⟩
    rw [leads.randomWord_eq] at next
    cases next.symm.trans drawn
    exact never _ (leads.count_le draft.binder.mint)

/-- The calls that append a condition to a draft as a group: a condition that is given, or the one
of the draft that the function which builds the group handed over. -/
inductive Call.Nests (draft : ReadDraft) (connective : Connective) : Condition → Call → Prop
  | given (condition : Condition) :
      Nests draft connective condition (.step draft (.nest condition connective))
  | built (child : ReadDraft) :
      Nests draft connective child.filter (.group draft connective child)

namespace Call.Nests

variable {stage : Stage} {draft : ReadDraft} {connective : Connective} {condition : Condition}
  {call : Call}

/-- Nesting always succeeds, whatever the tokens of the condition are. -/
theorem run_eq (nests : call.Nests draft connective condition) (supply : Supply) :
    call.action.run supply = .ok (.read (draft.nest connective condition)) supply := by
  cases nests <;> rfl

theorem supply_after (nests : call.Nests draft connective condition) (stage : Stage) :
    (stage.after call).supply = stage.supply :=
  Draw.supplyAfter_of_ok (nests.run_eq stage.supply)

theorem draft_mem_operands (nests : call.Nests draft connective condition) :
    .read draft ∈ call.operands := by
  cases nests <;> simp [operands]

/-- Whatever the condition binds was drawn, if its object was made. -/
theorem drawn (nests : call.Nests draft connective condition) (ledger : stage.Ledger)
    (known : ∀ operand ∈ call.operands, operand ∈ stage.made) {token : String}
    {value : AttributeValue} (found : condition.bindings.get? token = some value) :
    Drawn stage.issues (token, value) := by
  cases nests with
  | given condition =>
      have made := known (.condition condition) (by simp [operands, ReadStep.operands])
      apply (ledger.accounted _ made _ (List.mem_singleton_self _)).drawn
      exact Entry.get?_bindings_eq_some found
  | built child =>
      have made := known (.read child) (by simp [operands])
      exact (ledger.accounted _ made).drawn_filter found

end Call.Nests

namespace ReadDraft

theorem get?_boundValues_nest (draft : ReadDraft) (connective : Connective) (condition : Condition)
    (token : String) :
    (draft.nest connective condition).boundValues.get? token =
      (condition.bindings.get? token).or (draft.boundValues.get? token) := by
  unfold nest
  split
  · next isEmpty =>
      rw [Condition.bindings_of_isEmpty isEmpty, Dictionary.get?_empty, Option.none_or]
  · rw [boundValues, Condition.add, Condition.tokenValues_push, ← List.append_assoc,
      Dictionary.get?_ofList_append]
    rfl

/-- A draft that takes a condition in as a group keeps all its values, has those of the condition
and never draws one of its tokens, exactly if no token that was drawn elsewhere has another value in
the draft, and none is a placeholder that the mint of the draft has still to issue. -/
theorem keeps_and_never_drawn_iff_of_nest {stage : Stage} (reached : stage.Reached)
    {draft : ReadDraft} {connective : Connective} {condition : Condition} {call : Call}
    (nests : call.Nests draft connective condition)
    (known : ∀ operand ∈ call.operands, operand ∈ stage.made)
    (differ : draft.binder.mint.source = .random → Function.Injective stage.supply.randomWord) :
    call.action.run stage.supply = .ok (.read (draft.nest connective condition)) stage.supply ∧
      ((draft.nest connective condition).Keeps draft.boundValues ∧
          (draft.nest connective condition).Keeps condition.bindings ∧
          (stage.after call).NeverDraws draft.binder.mint condition.bindings.names ↔
        (∀ token value other, draft.boundValues.get? token = some value →
            condition.bindings.get? token = some other →
              DrawnElsewhere draft.binder.mint stage.issues (token, value) ∨
                DrawnElsewhere draft.binder.mint stage.issues (token, other) → value = other) ∧
          ∀ token value, condition.bindings.get? token = some value →
            DrawnElsewhere draft.binder.mint stage.issues (token, value) →
              ∀ index, draft.binder.mint.count stage.supply ≤ index →
                token ≠ (draft.binder.mint.nth stage.supply.randomWord index).token) := by
  have ledger := reached.ledger
  have made := known _ nests.draft_mem_operands
  have injective := Mint.nth_injective differ
  have taken := draft.get?_boundValues_nest connective condition
  have never := Stage.neverDraws_iff (stage.made_subset_after call made) condition.bindings.names
  rw [nests.supply_after] at never
  refine ⟨nests.run_eq stage.supply, ?_⟩
  rw [keeps_bound_iff taken, never]
  constructor
  · intro kept
    constructor
    · intro token value other bound incoming _
      exact kept.1 token value other bound incoming
    · intro token value found _ index ahead equal
      have incoming : token ∈ condition.bindings.names := Dictionary.mem_names_iff.mpr ⟨_, found⟩
      exact kept.2.2 index ahead (equal ▸ incoming)
  · intro foreign
    refine ⟨?_, keeps_incoming taken, ?_⟩
    · intro token value other bound incoming
      by_cases elsewhere : DrawnElsewhere draft.binder.mint stage.issues (token, value) ∨
          DrawnElsewhere draft.binder.mint stage.issues (token, other)
      · exact foreign.1 token value other bound incoming elsewhere
      · rw [not_or] at elsewhere
        have first := ((ledger.accounted _ made).drawn_boundValues bound).from_of_not_elsewhere
          elsewhere.1
        have second := (nests.drawn ledger known incoming).from_of_not_elsewhere elsewhere.2
        exact ledger.value_eq_of_injective injective first second
    · intro index ahead incoming
      rcases Dictionary.mem_names_iff.mp incoming with ⟨value, found⟩
      by_cases elsewhere : DrawnElsewhere draft.binder.mint stage.issues
          ((draft.binder.mint.nth stage.supply.randomWord index).token, value)
      · exact foreign.2 _ value found elsewhere index ahead rfl
      · -- A token of the mint itself was issued before, so it cannot come again.
        rcases (nests.drawn ledger known found).from_of_not_elsewhere elsewhere with
          ⟨placeholder, named, member⟩
        rcases ledger.indexed _ member with ⟨earlier, below, isNth⟩
        rw [Placeholder.token_injective named] at isNth
        have sameIndex := injective isNth
        have before : earlier < draft.binder.mint.count stage.supply := below
        omega

end ReadDraft

/-! ## Two mints with one stem -/

/-- What the first placeholder of a mint with the stem `p` goes to. -/
def ratedOnFirst : ReadDraft :=
  (scanOn "p" 0).push (.predicate ⟨.eq, "rated", .and, [(⟨"p1"⟩, .bool true)]⟩)

/-- A branch for which the next placeholder of that mint was drawn. -/
def playedOnFirst : ReadDraft :=
  (scanOn "p" 0).push (.predicate ⟨.eq, "played", .and, [(⟨"p2"⟩, .bool true)]⟩)

/-- What the first placeholders of another mint with the stem `p` go to. -/
def unratedOnSecond : ReadDraft :=
  (scanOn "p" 1).push (.predicate ⟨.within, "rated", .and,
    [(⟨"p1"⟩, .bool false), (⟨"p2"⟩, .null false), (⟨"p3"⟩, .null true)]⟩)

def twoMints : Stage :=
  (Stage.start fun _ => "").afterAll
    [.openMint ⟨"p", .sequential, false⟩, .openMint ⟨"p", .sequential, false⟩,
      .makeBinder ⟨"p", .sequence 0⟩ Config.default.marshaler,
      .makeBinder ⟨"p", .sequence 1⟩ Config.default.marshaler,
      .start .scan "games" (scanOn "p" 0).binder,
      .start .scan "games" (scanOn "p" 1).binder,
      .step (scanOn "p" 0) (.restrict .and .eq "rated" (.scalar (.bool true))),
      .branch ratedOnFirst,
      .step (scanOn "p" 0) (.restrict .and .eq "played" (.scalar (.bool true))),
      .step (scanOn "p" 1)
        (.restrict .and .within "rated" (.collection [.bool false, .null false, .null true])),
      .filterOf unratedOnSecond]

theorem reached_twoMints : twoMints.Reached := ⟨_, Stage.leads_afterAll (by decide)⟩

/-- A group that was built on a branch is safe, though the other mint drew its token as well. -/
theorem keeps_and_never_drawn_of_branch :
    twoMints.Reached ∧
      (∀ operand ∈ (Call.group ratedOnFirst .or playedOnFirst).operands,
        operand ∈ twoMints.made) ∧
      (ratedOnFirst.nest .or playedOnFirst.filter).Keeps ratedOnFirst.boundValues ∧
      (ratedOnFirst.nest .or playedOnFirst.filter).Keeps playedOnFirst.filter.bindings ∧
      (twoMints.after (.group ratedOnFirst .or playedOnFirst)).NeverDraws ⟨"p", .sequence 0⟩
        playedOnFirst.filter.bindings.names := by
  have known : ∀ operand ∈ (Call.group ratedOnFirst .or playedOnFirst).operands,
      operand ∈ twoMints.made := by decide
  refine ⟨reached_twoMints, known, ?_⟩
  apply (ReadDraft.keeps_and_never_drawn_iff_of_nest reached_twoMints (.built playedOnFirst) known
    nofun).2.mpr
  have onlyPlayed (token : String) (value : AttributeValue)
      (found : playedOnFirst.filter.bindings.get? token = some value) :
      token = ":p2" ∧ value = .bool true := by
    simpa [playedOnFirst, ReadDraft.push, scanOn, ReadDraft.scan, ReadDraft.start, Condition.push,
      Condition.empty, Condition.toEntry, Entry.tokenValues, Entry.tokenValuesOfAll,
      Predicate.tokenValues, Placeholder.token] using Entry.get?_bindings_eq_some found
  constructor
  · intro token value other bound incoming
    have unbound : ratedOnFirst.boundValues.get? ":p2" = none := by decide
    rw [(onlyPlayed token other incoming).1, unbound] at bound
    cases bound
  · intro token value found elsewhere
    rcases onlyPlayed token value found with ⟨rfl, rfl⟩
    rcases elsewhere with ⟨issue, member, otherMint, named, drawnFor⟩
    have notElsewhere : ∀ issue ∈ twoMints.issues, issue.mint ≠ ⟨"p", .sequence 0⟩ →
        issue.placeholder.token = ":p2" → issue.value ≠ some (.bool true) := by decide
    exact absurd drawnFor (notElsewhere issue member otherMint named)

/-- The tree of the other mint is taken in without an error. It replaces a value of the draft, and
the mint of the draft draws another of its tokens next. -/
theorem not_keeps_of_nest_second :
    twoMints.Reached ∧ .read ratedOnFirst ∈ twoMints.made ∧
      .condition unratedOnSecond.filter ∈ twoMints.made ∧ .read unratedOnSecond ∈ twoMints.made ∧
      ratedOnFirst.boundValues.get? ":p1" = some (.bool true) ∧
      (ratedOnFirst.nest .and unratedOnSecond.filter).boundValues.get? ":p1" =
        some (.bool false) ∧
      ∀ call : Call, call.Nests ratedOnFirst .and unratedOnSecond.filter →
        call.action.run twoMints.supply =
            .ok (.read (ratedOnFirst.nest .and unratedOnSecond.filter)) twoMints.supply ∧
          ¬(ratedOnFirst.nest .and unratedOnSecond.filter).Keeps ratedOnFirst.boundValues ∧
          ¬(twoMints.after call).NeverDraws ⟨"p", .sequence 0⟩
            unratedOnSecond.filter.bindings.names := by
  have made : .read ratedOnFirst ∈ twoMints.made ∧
      .condition unratedOnSecond.filter ∈ twoMints.made ∧
        .read unratedOnSecond ∈ twoMints.made := by decide
  have bound : ratedOnFirst.boundValues.get? ":p1" = some (.bool true) := by decide
  have replaced : (ratedOnFirst.nest .and unratedOnSecond.filter).boundValues.get? ":p1" =
      some (.bool false) := by decide
  refine ⟨reached_twoMints, made.1, made.2.1, made.2.2, bound, replaced, ?_⟩
  intro call nests
  refine ⟨nests.run_eq _, ?_, ?_⟩
  · intro keeps
    have kept := keeps ":p1" (.bool true) bound
    rw [replaced] at kept
    cases kept
  · intro never
    have stillMade := Stage.made_subset_after twoMints call made.1
    have drawnNext := (Stage.neverDraws_iff stillMade _).mp never 2
    rw [nests.supply_after] at drawnNext
    exact drawnNext (by decide) (by decide)

end ItemQuery
