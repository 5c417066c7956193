import ItemQuery.Proofs.Embedding

/-!
Values that an embedding replaces.

A draft that takes in the filter of another should go on to carry all values of both. Between mints
on sequences of their own it does. Mints that share a sequence are not compared, so it depends on
the tokens that both drafts took in from elsewhere (`ReadDraft.keeps_iff_of_embed`).
-/

namespace ItemQuery

/-- Whether two dictionaries have the same value under each token that is in both. -/
def Agree (first second : Bindings) : Prop :=
  ∀ token value other, first.get? token = some value → second.get? token = some other →
    value = other

namespace ReadDraft

variable {parent child grown : ReadDraft} {connective : Connective}

section

variable {bindings : Bindings}
  (taken : ∀ token, grown.boundValues.get? token =
    (bindings.get? token).or (parent.boundValues.get? token))
include taken

theorem keeps_incoming : grown.Keeps bindings := by
  intro token value found
  rw [taken, found, Option.some_or]

theorem keeps_bound_iff : grown.Keeps parent.boundValues ↔ Agree parent.boundValues bindings := by
  constructor
  · intro keeps token value other bound incoming
    have kept := keeps token value bound
    rw [taken, incoming, Option.some_or] at kept
    exact (Option.some.inj kept).symm
  · intro agree token value bound
    rw [taken]
    cases incoming : bindings.get? token with
    | none => rw [bound, Option.none_or]
    | some other => rw [agree token value other bound incoming, Option.some_or]

end

theorem agree_of_not_sharesSequence (embedded : parent.embed child connective = .ok grown)
    (apart : parent.binder.mint.sharesSequence child.binder.mint = false) :
    Agree parent.boundValues child.filter.bindings := by
  intro token value other bound incoming
  have isIncoming : token ∈ child.filter.bindings.names :=
    Dictionary.mem_names_iff.mpr ⟨other, incoming⟩
  rw [(apart_of_embed embedded apart isIncoming).2] at bound
  cases bound

end ReadDraft

/-- An embedding that succeeds keeps all values of both drafts, unless the mints share a sequence
and the drafts have two values for a token that one of them took in from elsewhere. -/
theorem ReadDraft.keeps_iff_of_embed {stage : Stage} (reached : stage.Reached)
    {parent child grown : ReadDraft} {connective : Connective}
    (parentMade : .read parent ∈ stage.made) (childMade : .read child ∈ stage.made)
    (embedded : parent.embed child connective = .ok grown) :
    (grown.Keeps parent.boundValues ∧ grown.Keeps child.filter.bindings ∧
        Agree parent.boundValues child.filter.bindings) ↔
      (parent.binder.mint.sharesSequence child.binder.mint = true →
        ∀ token value other, parent.boundValues.get? token = some value →
          child.filter.bindings.get? token = some other →
            DrawnElsewhere parent.binder.mint stage.issues (token, value) ∨
              DrawnElsewhere parent.binder.mint stage.issues (token, other) → value = other) := by
  have ledger := reached.ledger
  have parentAccounted := ledger.accounted _ parentMade
  have childAccounted := ledger.accounted _ childMade
  have taken := get?_boundValues_embed embedded
  rw [keeps_bound_iff taken]
  constructor
  · rintro ⟨agree, _, _⟩ _ token value other bound incoming _
    exact agree token value other bound incoming
  · intro foreign
    have agree : Agree parent.boundValues child.filter.bindings := by
      cases shares : parent.binder.mint.sharesSequence child.binder.mint with
      | false => exact agree_of_not_sharesSequence embedded shares
      | true =>
          intro token value other bound incoming
          by_cases elsewhere : DrawnElsewhere parent.binder.mint stage.issues (token, value) ∨
              DrawnElsewhere parent.binder.mint stage.issues (token, other)
          · exact foreign shares token value other bound incoming elsewhere
          · rw [not_or] at elsewhere
            have first := (parentAccounted.drawn_boundValues bound).from_of_not_elsewhere
              elsewhere.1
            have second := (childAccounted.drawn_filter incoming).from_of_not_elsewhere
              elsewhere.2
            exact ledger.value_eq (Mint.eq_of_sharesSequence shares).2 first second
    exact ⟨agree, keeps_incoming taken, agree⟩

/-! ## One token from two mints -/

/-- What the first placeholder of a mint with the stem `q` goes to. -/
def ratedOn (sequence : Nat) (value : Bool) : ReadDraft :=
  (scanOn "q" sequence).push (.predicate ⟨.eq, "rated", .and, [(⟨"q1"⟩, .bool value)]⟩)

def takingRated : ReadDraft := (scanOn "p" 0).taking (ratedOn 1 true) .and
def takingUnrated : ReadDraft := (scanOn "p" 0).taking (ratedOn 2 false) .and

/-- A draft takes in a filter, and so does its branch. -/
def twiceTaken : Stage :=
  (Stage.start fun _ => "").afterAll
    [.openMint ⟨"p", .sequential, false⟩, .openMint ⟨"q", .sequential, false⟩,
      .openMint ⟨"q", .sequential, false⟩,
      .makeBinder ⟨"p", .sequence 0⟩ Config.default.marshaler,
      .makeBinder ⟨"q", .sequence 1⟩ Config.default.marshaler,
      .makeBinder ⟨"q", .sequence 2⟩ Config.default.marshaler,
      .start .scan "games" (scanOn "p" 0).binder,
      .start .scan "games" (scanOn "q" 1).binder,
      .start .scan "games" (scanOn "q" 2).binder,
      .step (scanOn "q" 1) (.restrict .and .eq "rated" (.scalar (.bool true))),
      .step (scanOn "q" 2) (.restrict .and .eq "rated" (.scalar (.bool false))),
      .step (scanOn "p" 0) (.embed (ratedOn 1 true) .and),
      .branch takingRated,
      .step (scanOn "p" 0) (.embed (ratedOn 2 false) .and)]

/-- Where both took in the same filter, nothing is replaced. -/
theorem keeps_of_embed_self :
    twiceTaken.Reached ∧ .read takingRated ∈ twiceTaken.made ∧
      takingRated.embed takingRated .and = .ok (takingRated.taking takingRated .and) ∧
      (takingRated.taking takingRated .and).Keeps takingRated.boundValues := by
  have reached : twiceTaken.Reached := ⟨_, Stage.leads_afterAll (by decide)⟩
  have made : .read takingRated ∈ twiceTaken.made := by decide
  refine ⟨reached, made, rfl, ?_⟩
  apply ((ReadDraft.keeps_iff_of_embed reached made made rfl).mpr _).1
  intro _ token value other bound incoming _
  have same : takingRated.boundValues = takingRated.filter.bindings := rfl
  rw [same, incoming] at bound
  exact (Option.some.inj bound).symm

/-- Where they took in different ones, a value that the draft bound is replaced. -/
theorem not_keeps_of_embed_branch :
    twiceTaken.Reached ∧ .read takingRated ∈ twiceTaken.made ∧
      .read takingUnrated ∈ twiceTaken.made ∧
      takingRated.embed takingUnrated .and = .ok (takingRated.taking takingUnrated .and) ∧
      takingRated.boundValues.get? ":q1" = some (.bool true) ∧
      (takingRated.taking takingUnrated .and).boundValues.get? ":q1" = some (.bool false) ∧
      ¬(takingRated.taking takingUnrated .and).Keeps takingRated.boundValues := by
  have made : .read takingRated ∈ twiceTaken.made ∧ .read takingUnrated ∈ twiceTaken.made := by
    decide
  have bound : takingRated.boundValues.get? ":q1" = some (.bool true) := by decide
  have replaced : (takingRated.taking takingUnrated .and).boundValues.get? ":q1" =
      some (.bool false) := by decide
  refine ⟨⟨_, Stage.leads_afterAll (by decide)⟩, made.1, made.2, rfl, bound, replaced, ?_⟩
  intro keeps
  have kept := keeps ":q1" (.bool true) bound
  rw [replaced] at kept
  cases kept

end ItemQuery
