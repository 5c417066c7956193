import ItemQuery.Proofs.Embedding

/-!
What is drawn after an embedding.

A draft that took in a filter goes on to draw from its own mint. Tokens of the mint of the filter
are safe from that, because the mints share a sequence or their stems keep them apart. Whether a
token that the filter itself took in from elsewhere is safe depends on that token, and on nothing
else (`ReadDraft.never_drawn_iff_of_embed`).
-/

namespace ItemQuery

/-! ## Tokens of two mints -/

namespace Mint

theorem prefix_of_token_eq {first second : Mint} {number other : Nat}
    (equal : (first.numbered number).token = (second.numbered other).token) :
    first.stem.toList <+: second.stem.toList ∨ second.stem.toList <+: first.stem.toList := by
  have sameName := congrArg (fun placeholder => placeholder.name.toList)
    (Placeholder.token_injective equal)
  simp only [numbered, String.toList_append] at sameName
  apply List.prefix_or_prefix_of_prefix (List.prefix_append _ _)
  rw [sameName]
  exact List.prefix_append _ _

theorem token_ne_of_apart {first second : Mint} {sequence other : Nat}
    (onSequence : first.source = .sequence sequence)
    (otherOnSequence : second.source = .sequence other)
    (apart : first.sharesSequence second = false) (cannotCollide : first.mayCollide second = false)
    (number count : Nat) : (first.numbered number).token ≠ (second.numbered count).token := by
  intro equal
  simp only [mayCollide, onSequence, otherOnSequence, apart, Bool.not_false, Bool.true_and,
    Bool.or_eq_false_iff] at cannotCollide
  rcases prefix_of_token_eq equal with below | above
  · rw [← List.isPrefixOf_iff_prefix, cannotCollide.1] at below
    cases below
  · rw [← List.isPrefixOf_iff_prefix, cannotCollide.2] at above
    cases above

end Mint

/-! ## Later stages -/

namespace Stage

theorem Leads.count_le {stage later : Stage} (leads : stage.Leads later) (mint : Mint) :
    mint.count stage.supply ≤ mint.count later.supply := by
  induction leads with
  | refl => exact Nat.le_refl _
  | @call middle _ call _ induction => exact Nat.le_trans induction (middle.count_le_after call mint)

theorem Leads.issued_le {stage later : Stage} (leads : stage.Leads later) (sequence : Nat) :
    stage.supply.issued sequence ≤ later.supply.issued sequence :=
  leads.count_le ⟨"", .sequence sequence⟩

theorem Leads.randomWord_eq {stage later : Stage} (leads : stage.Leads later) :
    later.supply.randomWord = stage.supply.randomWord := by
  induction leads with
  | refl => rfl
  | @call middle _ call _ induction => exact (middle.randomWord_after call).trans induction

/-- A mint that was made can be drawn from as often as one likes. -/
theorem exists_leads_of_mint {stage : Stage} {mint : Mint} (made : .mint mint ∈ stage.made)
    (count : Nat) :
    ∃ later, stage.Leads later ∧ .mint mint ∈ later.made ∧
      mint.count later.supply = mint.count stage.supply + count := by
  induction count with
  | zero => exact ⟨stage, .refl, made, rfl⟩
  | succ count induction =>
      rcases induction with ⟨later, leads, stillMade, counted⟩
      refine ⟨later.after (.discard mint), leads.call _ (by simpa [Call.operands] using stillMade),
        later.made_subset_after _ stillMade, ?_⟩
      rcases mint.run_next_eq later.supply with ⟨after, drawn, advanced, _⟩
      have supplied : (later.after (.discard mint)).supply = after := by
        rw [Stage.after, Call.action, Draw.supplyAfter_map, Draw.supplyAfter_of_ok drawn]
      rw [supplied, advanced, counted, Nat.add_assoc]

/-- The mint of a draft can be made to issue any placeholder that it has not issued yet. -/
theorem exists_leads_count {stage : Stage} {draft : ReadDraft} (made : .read draft ∈ stage.made)
    {index : Nat} (ahead : draft.binder.mint.count stage.supply ≤ index) :
    ∃ later, stage.Leads later ∧ draft.binder.mint.count later.supply = index := by
  let withMint := (stage.after (.binderOf draft)).after (.mintOf draft.binder)
  have leadsToBinder : stage.Leads (stage.after (.binderOf draft)) :=
    Leads.refl.call _ (by simpa [Call.operands] using made)
  have leadsToMint : stage.Leads withMint :=
    leadsToBinder.call _ (by simp [Call.operands, after, Call.action])
  have mintMade : .mint draft.binder.mint ∈ withMint.made := by
    simp [withMint, after, Call.action]
  have sameSupply : withMint.supply = stage.supply := rfl
  rcases exists_leads_of_mint mintMade (index - draft.binder.mint.count stage.supply) with
    ⟨later, leads, _, counted⟩
  refine ⟨later, leadsToMint.trans leads, ?_⟩
  rw [sameSupply] at counted
  omega

theorem exists_leads_of_draft {stage : Stage} {draft : ReadDraft} {sequence number : Nat}
    (onSequence : draft.binder.mint.source = .sequence sequence)
    (made : .read draft ∈ stage.made) (above : stage.supply.issued sequence < number) :
    ∃ later, stage.Leads later ∧ later.supply.issued sequence + 1 = number := by
  have ahead : draft.binder.mint.count stage.supply ≤ number - 1 := by
    rw [Mint.count_of_sequence onSequence]
    omega
  rcases exists_leads_count made ahead with ⟨later, leads, counted⟩
  rw [Mint.count_of_sequence onSequence] at counted
  exact ⟨later, leads, by omega⟩

end Stage

/-! ## Later verbs -/

/-- Whether what a step takes in leaves the values of a dictionary alone. -/
def ReadStep.Respects (bindings : Bindings) (step : ReadStep) : Prop :=
  ∀ binding ∈ step.given, ∀ held, bindings.get? binding.1 = some held → binding.2 = held

/-- What verbs make of a draft, with any other calls between them. -/
inductive Stage.Develops (stage : Stage) (draft : ReadDraft) (allowed : ReadStep → Prop) :
    Stage → ReadDraft → Prop
  | start : Develops stage draft allowed stage draft
  | meanwhile {middle later : Stage} {current : ReadDraft}
      (earlier : Develops stage draft allowed middle current) (leads : middle.Leads later) :
      Develops stage draft allowed later current
  | verb {middle : Stage} {current next : ReadDraft} {after : Supply}
      (earlier : Develops stage draft allowed middle current) (step : ReadStep)
      (isAllowed : allowed step)
      (ran : (step.run current).run middle.supply = .ok next after) :
      Develops stage draft allowed (middle.after (.step current step)) next

namespace Stage.Develops

variable {stage later : Stage} {draft current : ReadDraft} {bindings : Bindings} {sequence : Nat}

theorem issued_le {allowed : ReadStep → Prop}
    (develops : stage.Develops draft allowed later current) (sequence : Nat) :
    stage.supply.issued sequence ≤ later.supply.issued sequence := by
  induction develops with
  | start => exact Nat.le_refl _
  | meanwhile _ leads induction =>
      apply Nat.le_trans induction
      exact leads.issued_le sequence
  | @verb middle _ _ _ _ step _ _ induction =>
      apply Nat.le_trans induction
      exact middle.issued_le_after _ sequence

theorem binder {allowed : ReadStep → Prop}
    (develops : stage.Develops draft allowed later current) : current.binder = draft.binder := by
  induction develops with
  | start => rfl
  | meanwhile _ _ induction => exact induction
  | verb _ step _ ran induction => exact (step.grew_of_run ran).binder.trans induction

/-- Verbs that respect some bindings append only what agrees with them, as long as the mint of the
draft issues none of their tokens. -/
theorem appended (develops : stage.Develops draft (ReadStep.Respects bindings) later current)
    (onSequence : draft.binder.mint.source = .sequence sequence)
    (safe : ∀ token ∈ bindings.names, ∀ number, stage.supply.issued sequence < number →
      token ≠ (draft.binder.mint.numbered number).token) :
    Appended (fun binding => ∀ held, bindings.get? binding.1 = some held → binding.2 = held)
      draft.filter.tokenValues current.filter.tokenValues := by
  induction develops with
  | start => exact .of_eq rfl
  | meanwhile _ _ induction => exact induction
  | @verb middle current next after earlier step isAllowed ran induction =>
      apply induction.trans
      apply (step.grew_of_run ran).filterValues.mono
      intro binding sort held found
      rcases sort with given | ⟨issue, member, named, _⟩
      · exact isAllowed binding given held found
      · have drawn := step.issues_run current middle.supply
        rw [earlier.binder] at drawn
        rcases drawn.numbered onSequence issue member with ⟨number, above, _, numbered⟩
        have atLeast := earlier.issued_le sequence
        have isNamed : binding.1 ∈ bindings.names := Dictionary.mem_names_iff.mpr ⟨held, found⟩
        have notIssued := safe _ isNamed number (by omega)
        rw [← named, numbered] at notIssued
        exact absurd rfl notIssued

end Stage.Develops

theorem ReadDraft.keeps_of_appended {draft current : ReadDraft} {bindings : Bindings}
    {before : List (String × AttributeValue)}
    (tokenValues : draft.filter.tokenValues = before ++ bindings.entries)
    (appended : Appended
      (fun binding => ∀ held, bindings.get? binding.1 = some held → binding.2 = held)
      draft.filter.tokenValues current.filter.tokenValues) : current.Keeps bindings := by
  rcases appended with ⟨added, equal, agree⟩
  intro token value found
  rw [ReadDraft.boundValues, equal, tokenValues, ← List.append_assoc, ← List.append_assoc,
    Dictionary.get?_ofList_append, Dictionary.get?_ofList_append, Dictionary.ofList_entries, found,
    Option.some_or]
  cases last : (Dictionary.ofList added).get? token with
  | none => rfl
  | some other =>
      have same : other = value := agree _ (Dictionary.mem_of_get?_ofList last) value found
      rw [same, Option.some_or]

/-! ## Embedding -/

/-- Whether a mint issues none of some tokens at any later stage. -/
def Stage.NeverDraws (stage : Stage) (mint : Mint) (tokens : List String) : Prop :=
  ∀ later, stage.Leads later → ∀ placeholder after,
    mint.next.run later.supply = .ok placeholder after → placeholder.token ∉ tokens

/-- Whether verbs that respect some bindings can make nothing of a draft that does not carry them,
whatever other calls come between the verbs. -/
def Stage.AlwaysCarries (stage : Stage) (draft : ReadDraft) (bindings : Bindings) : Prop :=
  ∀ later final, stage.Develops draft (ReadStep.Respects bindings) later final →
    ∀ token value, bindings.get? token = some value →
      final.toInput.attributeValues.get? token = some value

namespace ReadDraft

variable {stage : Stage} {parent child grown : ReadDraft} {connective : Connective}
  {sequence other : Nat}

theorem token_ne_of_drawnFrom (ledger : stage.Ledger)
    (onSequence : parent.binder.mint.source = .sequence sequence)
    (childOnSequence : child.binder.mint.source = .sequence other)
    (embedded : parent.embed child connective = .ok grown) {token : String}
    {value : AttributeValue} (incoming : token ∈ child.filter.bindings.names)
    (drawn : DrawnFrom child.binder.mint stage.issues (token, value)) {number : Nat}
    (above : stage.supply.issued sequence < number) :
    token ≠ (parent.binder.mint.numbered number).token := by
  rcases drawn with ⟨placeholder, named, member⟩
  rcases ledger.numbered _ member other childOnSequence with ⟨count, below, numbered⟩
  have isNumbered : token = (child.binder.mint.numbered count).token := by
    rw [← numbered]
    exact named.symm
  rw [isNumbered]
  cases shares : parent.binder.mint.sharesSequence child.binder.mint with
  | true =>
      have sameMint := (Mint.eq_of_sharesSequence shares).1
      rw [← sameMint] at childOnSequence ⊢
      have sameSequence : sequence = other :=
        Mint.Source.sequence.inj (onSequence.symm.trans childOnSequence)
      intro equal
      have sameNumber := Mint.numbered_injective (Placeholder.token_injective equal)
      subst sameSequence
      omega
  | false =>
      have cannotCollide := (apart_of_embed embedded shares incoming).1
      exact (Mint.token_ne_of_apart onSequence childOnSequence shares cannotCollide number
        count).symm

/-- After a draft took in a filter, its mint never draws a token of the filter and the values of the
filter are always carried, exactly if no token that the filter had from elsewhere is one that the
mint of the draft is still to draw. -/
theorem never_drawn_iff_of_embed (reached : stage.Reached)
    (onSequence : parent.binder.mint.source = .sequence sequence)
    (childOnSequence : child.binder.mint.source = .sequence other)
    (parentMade : .read parent ∈ stage.made) (childMade : .read child ∈ stage.made)
    (embedded : parent.embed child connective = .ok grown) :
    ((stage.after (.step parent (.embed child connective))).NeverDraws parent.binder.mint
          child.filter.bindings.names ∧
        (stage.after (.step parent (.embed child connective))).AlwaysCarries grown
          child.filter.bindings) ↔
      ∀ token value, child.filter.bindings.get? token = some value →
        DrawnElsewhere child.binder.mint stage.issues (token, value) →
          ∀ number, stage.supply.issued sequence < number →
            token ≠ (parent.binder.mint.numbered number).token := by
  have ledger := reached.ledger
  have childAccounted := ledger.accounted _ childMade
  let embeddedStage := stage.after (.step parent (.embed child connective))
  have sameCount : embeddedStage.supply.issued sequence = stage.supply.issued sequence := by
    simp [embeddedStage, Stage.after, Call.action, ReadStep.run]
  constructor
  · rintro ⟨neverDraws, _⟩ token value found _ number above equal
    have stillMade : .read parent ∈ embeddedStage.made := stage.made_subset_after _ parentMade
    rcases Stage.exists_leads_of_draft onSequence stillMade (sameCount ▸ above) with
      ⟨later, leads, counted⟩
    have drawn := Mint.run_next_of_sequence onSequence later.supply
    rw [counted] at drawn
    apply neverDraws later leads _ _ drawn
    rw [← equal]
    exact Dictionary.mem_names_iff.mpr ⟨value, found⟩
  · intro elsewhereSafe
    have safe : ∀ token ∈ child.filter.bindings.names, ∀ number,
        embeddedStage.supply.issued sequence < number →
          token ≠ (parent.binder.mint.numbered number).token := by
      intro token incoming number above
      rw [sameCount] at above
      rcases Dictionary.mem_names_iff.mp incoming with ⟨value, found⟩
      by_cases elsewhere : DrawnElsewhere child.binder.mint stage.issues (token, value)
      · exact elsewhereSafe token value found elsewhere number above
      · have drawn := (childAccounted.drawn_filter found).from_of_not_elsewhere elsewhere
        exact token_ne_of_drawnFrom ledger onSequence childOnSequence embedded incoming drawn above
    rcases filter_embed embedded with ⟨sameBinder, _, tokenValues⟩
    constructor
    · intro later leads placeholder after drawn incoming
      rw [Mint.run_next_of_sequence onSequence] at drawn
      injection drawn with named _
      have atLeast : embeddedStage.supply.issued sequence ≤ later.supply.issued sequence :=
        leads.issued_le sequence
      exact safe _ incoming (later.supply.issued sequence + 1) (by omega) (by rw [named])
    · intro later final develops token value found
      have grownOnSequence : grown.binder.mint.source = .sequence sequence := by
        rw [sameBinder, onSequence]
      have appended := develops.appended grownOnSequence (by rw [sameBinder]; exact safe)
      rw [attributeValues_toInput]
      exact keeps_of_appended tokenValues appended token value found

end ReadDraft

/-! ## A filter with a token from a third mint -/

/-- The first placeholder of a mint with the stem `p`, and what it goes to. -/
def ratedByThird : ReadDraft :=
  (scanOn "p" 2).push (.predicate ⟨.eq, "rated", .and, [(⟨"p1"⟩, .bool true)]⟩)

def takingThird : ReadDraft := (scanOn "q" 1).taking ratedByThird .and

/-- Three mints, the first and the third with one stem. A draft of the second takes in a filter of
the third. -/
def thirdMint : Stage :=
  (Stage.start fun _ => "").afterAll
    [.openMint ⟨"p", .sequential, false⟩, .openMint ⟨"q", .sequential, false⟩,
      .openMint ⟨"p", .sequential, false⟩,
      .makeBinder ⟨"p", .sequence 0⟩ Config.default.marshaler,
      .makeBinder ⟨"q", .sequence 1⟩ Config.default.marshaler,
      .makeBinder ⟨"p", .sequence 2⟩ Config.default.marshaler,
      .start .scan "games" (scanOn "p" 0).binder,
      .start .scan "games" (scanOn "q" 1).binder,
      .start .scan "games" (scanOn "p" 2).binder,
      .step (scanOn "p" 2) (.restrict .and .eq "rated" (.scalar (.bool true))),
      .step (scanOn "q" 1) (.embed ratedByThird .and)]

/-- The draft of the second mint is safe, since all that came in was drawn by the third. -/
theorem never_drawn_of_embed_third :
    thirdMint.Reached ∧ .read (scanOn "q" 1) ∈ thirdMint.made ∧
      .read ratedByThird ∈ thirdMint.made ∧
      (scanOn "q" 1).embed ratedByThird .and = .ok takingThird ∧
      (thirdMint.after (.step (scanOn "q" 1) (.embed ratedByThird .and))).NeverDraws
        ⟨"q", .sequence 1⟩ ratedByThird.filter.bindings.names ∧
      (thirdMint.after (.step (scanOn "q" 1) (.embed ratedByThird .and))).AlwaysCarries takingThird
        ratedByThird.filter.bindings := by
  have reached : thirdMint.Reached := ⟨_, Stage.leads_afterAll (by decide)⟩
  have parentMade : .read (scanOn "q" 1) ∈ thirdMint.made := by decide
  have childMade : .read ratedByThird ∈ thirdMint.made := by decide
  refine ⟨reached, parentMade, childMade, rfl, ?_⟩
  apply (ReadDraft.never_drawn_iff_of_embed reached rfl rfl parentMade childMade rfl).mpr
  have allThird : ∀ issue ∈ thirdMint.issues, issue.mint = ⟨"p", .sequence 2⟩ := by decide
  rintro token value found ⟨issue, member, otherMint, _⟩
  exact absurd (allThird issue member) otherMint

/-- The draft of the first mint takes the filter in all the same, and then draws the token that the
filter had from the third. -/
theorem drawn_after_embed :
    thirdMint.Reached ∧ .read (scanOn "p" 0) ∈ thirdMint.made ∧
      .read takingThird ∈ thirdMint.made ∧
      (scanOn "p" 0).embed takingThird .and = .ok ((scanOn "p" 0).taking takingThird .and) ∧
      ¬(thirdMint.after (.step (scanOn "p" 0) (.embed takingThird .and))).NeverDraws
        ⟨"p", .sequence 0⟩ takingThird.filter.bindings.names ∧
      ¬(thirdMint.after (.step (scanOn "p" 0) (.embed takingThird .and))).AlwaysCarries
        ((scanOn "p" 0).taking takingThird .and) takingThird.filter.bindings := by
  have made : .read (scanOn "p" 0) ∈ thirdMint.made ∧ .read takingThird ∈ thirdMint.made := by
    decide
  have found : takingThird.filter.bindings.get? ":p1" = some (.bool true) := by decide
  refine ⟨⟨_, Stage.leads_afterAll (by decide)⟩, made.1, made.2, rfl, ?_, ?_⟩
  · intro never
    apply never _ .refl ⟨"p1"⟩ _ rfl
    exact Dictionary.mem_names_iff.mpr ⟨_, found⟩
  · intro carries
    have respects : (ReadStep.restrict .and .eq "rated" (.scalar (.bool false))).Respects
        takingThird.filter.bindings := by
      intro binding given
      cases given
    have carried := carries _ _ (.verb .start _ respects rfl) ":p1" (.bool true) found
    revert carried
    decide

end ItemQuery
