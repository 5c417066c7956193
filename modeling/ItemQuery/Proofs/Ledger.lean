import ItemQuery.Proofs.Accounts

/-!
The log of a run.

At every stage of a run each object is accounted for by the log (`Stage.Ledger.accounted`), and no
two issues of a mint have the same placeholder (`Stage.Ledger.unique`), provided that the mint is on
a sequence or that the random words differ. A call that fails may add to the log but never makes it
wrong.
-/

namespace ItemQuery

/-! ## What a call draws -/

/-- Whether a computation issues nothing, though it may open sequences. -/
def Draw.OnlyOpens (action : Draw α) : Prop :=
  ∀ before, ∃ opened, action.supplyAfter before = { before with opened }

theorem Mint.onlyOpens_ofConfig (config : Config) : (ofConfig config).OnlyOpens := by
  intro before
  unfold ofConfig
  cases config.strategy
  · exact ⟨before.opened + 1, rfl⟩
  · exact ⟨before.opened, rfl⟩

namespace Table

theorem onlyOpens_create (name : String) : (create name).OnlyOpens := by
  intro before
  rw [create, Draw.supplyAfter_bind_pure]
  exact Mint.onlyOpens_ofConfig .default before

theorem onlyOpens_withConfig (table : Table) (config : Config) :
    (table.withConfig config).OnlyOpens := by
  intro before
  rw [withConfig, Draw.supplyAfter_bind]
  cases config.validate with
  | error error => exact ⟨before.opened, rfl⟩
  | ok accepted =>
      change ∃ opened, Draw.supplyAfter _ before = _
      rw [Draw.supplyAfter_bind_pure]
      exact Mint.onlyOpens_ofConfig config before

end Table

namespace Call

/-- The mint that a call draws from. -/
def mint? : Call → Option Mint
  | .discard mint => some mint
  | .predicate binder .. | .named binder .. | .specified binder _ => some binder.mint
  | .step draft _ => some draft.binder.mint
  | _ => none

theorem exists_operand_of_mint? {call : Call} {mint : Mint} (source : call.mint? = some mint) :
    ∃ operand ∈ call.operands, operand.mint? = some mint := by
  cases call with
  | discard | predicate | named | specified | step =>
      cases source
      exact ⟨_, List.mem_cons_self, rfl⟩
  | _ => cases source

theorem issues_of_mint? {call : Call} {mint : Mint} (source : call.mint? = some mint)
    (before : Supply) :
    mint.Issues before (call.issues before) (call.action.supplyAfter before) := by
  cases call with
  | discard mint =>
      cases source
      rcases mint.exists_run_next before with ⟨placeholder, after, drawn⟩
      rw [action, Draw.supplyAfter_map, Draw.supplyAfter_of_ok drawn]
      simp only [issues, drawn]
      exact .next none drawn (.none after)
  | predicate binder kind key operand connective =>
      cases source
      rw [action, Draw.supplyAfter_map]
      exact Mint.drawsFor_create kind key operand connective before
  | named binder kindName key operand connective =>
      cases source
      rw [action, Draw.supplyAfter_map]
      exact binder.drawsFor_named kindName key operand connective before
  | specified binder specification =>
      cases source
      rw [action, Draw.supplyAfter_map]
      exact binder.drawsFor_specified specification before
  | step draft taken =>
      cases source
      rw [action, Draw.supplyAfter_map]
      exact taken.issues_run draft before
  | _ => cases source

theorem opens_of_mint?_eq_none {call : Call} (noSource : call.mint? = none) (before : Supply) :
    call.issues before = [] ∧
      ∃ opened, call.action.supplyAfter before = { before with opened } := by
  cases call with
  | discard | predicate | named | specified | step => cases noSource
  | openMint config =>
      refine ⟨rfl, ?_⟩
      rw [action, Draw.supplyAfter_map]
      exact Mint.onlyOpens_ofConfig config before
  | makeTable name =>
      refine ⟨rfl, ?_⟩
      rw [action, Draw.supplyAfter_map]
      exact Table.onlyOpens_create name before
  | withConfig table config =>
      refine ⟨rfl, ?_⟩
      rw [action, Draw.supplyAfter_map]
      exact table.onlyOpens_withConfig config before
  | keyConditionOf draft =>
      refine ⟨rfl, ?_⟩
      rw [action]
      cases draft.target <;> exact ⟨before.opened, rfl⟩
  | _ => exact ⟨rfl, before.opened, rfl⟩

/-- A call draws from the mint of one of its operands, or it issues nothing. -/
theorem draws (call : Call) (before : Supply) :
    (∃ operand ∈ call.operands, ∃ mint, operand.mint? = some mint ∧
      mint.Issues before (call.issues before) (call.action.supplyAfter before)) ∨
    (call.issues before = [] ∧
      ∃ opened, call.action.supplyAfter before = { before with opened }) := by
  cases source : call.mint? with
  | none => exact .inr (opens_of_mint?_eq_none source before)
  | some mint =>
      rcases exists_operand_of_mint? source with ⟨operand, used, owns⟩
      exact .inl ⟨operand, used, mint, owns, issues_of_mint? source before⟩

end Call

/-! ## The log of a stage -/

namespace Stage

structure Ledger (stage : Stage) : Prop where
  /-- What a mint has issued are the first of its placeholders. -/
  indexed : ∀ issue ∈ stage.issues, ∃ index, index < issue.mint.count stage.supply ∧
    issue.placeholder = issue.mint.nth stage.supply.randomWord index
  /-- A mint that does not repeat itself issues a placeholder once. -/
  unique : ∀ first ∈ stage.issues, ∀ second ∈ stage.issues, first.mint = second.mint →
    Function.Injective (first.mint.nth stage.supply.randomWord) →
      first.placeholder = second.placeholder → first = second
  /-- Whatever was issued comes from a mint that objects draw from. -/
  owned : ∀ issue ∈ stage.issues, ∃ object ∈ stage.made, object.mint? = some issue.mint
  /-- Whatever an object binds was drawn for the value that it is bound to. -/
  accounted : ∀ object ∈ stage.made, object.Accounted stage.made stage.issues

theorem ledger_start (randomWord : Nat → String) : (start randomWord).Ledger where
  indexed := by simp [start]
  unique := by simp [start]
  owned := by simp [start]
  accounted := by simp [start]

theorem made_subset_after (stage : Stage) (call : Call) : stage.made ⊆ (stage.after call).made := by
  unfold after
  intro object member
  cases call.action.run stage.supply with
  | ok made after => exact List.mem_append_left _ member
  | error error after => exact member

/-- An object of a stage after a call was made before, or the call has made it. -/
theorem mem_made_after {stage : Stage} {call : Call} {object : Object}
    (member : object ∈ (stage.after call).made) :
    object ∈ stage.made ∨ call.action.run stage.supply = .ok object (stage.after call).supply := by
  unfold after Draw.supplyAfter at *
  cases ran : call.action.run stage.supply with
  | error error after => exact .inl (by simpa [ran] using member)
  | ok made after =>
      have isOldOrMade : object ∈ stage.made ∨ object = made := by simpa [ran] using member
      exact isOldOrMade.imp_right fun same => by rw [same]

theorem count_le_after (stage : Stage) (call : Call) (mint : Mint) :
    mint.count stage.supply ≤ mint.count (stage.after call).supply := by
  rcases call.draws stage.supply with ⟨_, _, _, _, drawn⟩ | ⟨_, opened, same⟩
  · exact drawn.count_le mint
  · exact Nat.le_of_eq (congrArg mint.count same).symm

theorem issued_le_after (stage : Stage) (call : Call) (sequence : Nat) :
    stage.supply.issued sequence ≤ (stage.after call).supply.issued sequence :=
  stage.count_le_after call ⟨"", .sequence sequence⟩

theorem randomWord_after (stage : Stage) (call : Call) :
    (stage.after call).supply.randomWord = stage.supply.randomWord := by
  rcases call.draws stage.supply with ⟨_, _, mint, _, drawn⟩ | ⟨_, opened, same⟩
  · exact drawn.randomWord_eq
  · exact congrArg (fun supply => supply.randomWord) same

theorem Ledger.accounted_after {stage : Stage} (ledger : stage.Ledger) {call : Call}
    (known : ∀ operand ∈ call.operands, operand ∈ stage.made) :
    ∀ object ∈ (stage.after call).made,
      object.Accounted (stage.after call).made (stage.after call).issues := by
  have fromBefore : ∀ object ∈ stage.made, object ∈ (stage.after call).made ∧
      object.Accounted (stage.after call).made (stage.after call).issues := fun object member =>
    ⟨stage.made_subset_after call member, (ledger.accounted object member).mono
      (stage.made_subset_after call) (List.subset_append_left _ _)⟩
  intro object member
  rcases mem_made_after member with isOld | ran
  · exact (fromBefore object isOld).2
  · apply Call.accounted_of_run _ (List.subset_append_right _ _) ran
    intro operand used
    exact fromBefore operand (known operand used)

/-- A call that draws goes on behind the placeholders in the log. -/
theorem Ledger.unique_append {stage : Stage} (ledger : stage.Ledger) {mint : Mint}
    {issues : List Issue} {later : Supply} (drawn : mint.Issues stage.supply issues later) :
    ∀ first ∈ stage.issues ++ issues, ∀ second ∈ stage.issues ++ issues,
      first.mint = second.mint → Function.Injective (first.mint.nth stage.supply.randomWord) →
        first.placeholder = second.placeholder → first = second := by
  have apart : ∀ old ∈ stage.issues, ∀ new ∈ issues, old.mint = new.mint →
      Function.Injective (old.mint.nth stage.supply.randomWord) →
        old.placeholder ≠ new.placeholder := by
    intro old oldMember new newMember sameMint injective equal
    rcases ledger.indexed old oldMember with ⟨index, below, named⟩
    rcases drawn.indexed new newMember with ⟨other, above, _, otherNamed⟩
    rw [sameMint, drawn.mint_eq new newMember] at below named injective
    rw [named, otherNamed] at equal
    have sameIndex := injective equal
    omega
  intro first firstMember second secondMember sameMint injective equal
  rcases List.mem_append.mp firstMember with firstOld | firstNew
  · rcases List.mem_append.mp secondMember with secondOld | secondNew
    · exact ledger.unique first firstOld second secondOld sameMint injective equal
    · exact absurd equal (apart first firstOld second secondNew sameMint injective)
  · rcases List.mem_append.mp secondMember with secondOld | secondNew
    · exact absurd equal.symm
        (apart second secondOld first firstNew sameMint.symm (sameMint ▸ injective))
    · rw [drawn.mint_eq first firstNew] at injective
      exact List.inj_on_of_nodup_map (drawn.nodup injective) firstNew secondNew equal

theorem Ledger.after {stage : Stage} (ledger : stage.Ledger) {call : Call}
    (known : ∀ operand ∈ call.operands, operand ∈ stage.made) : (stage.after call).Ledger := by
  have accounted := ledger.accounted_after known
  have ownedBefore : ∀ issue ∈ stage.issues,
      ∃ object ∈ (stage.after call).made, object.mint? = some issue.mint := by
    intro issue member
    rcases ledger.owned issue member with ⟨object, present, ownsMint⟩
    exact ⟨object, stage.made_subset_after call present, ownsMint⟩
  have sameWords := stage.randomWord_after call
  have indexedBefore : ∀ issue ∈ stage.issues,
      ∃ index, index < issue.mint.count (stage.after call).supply ∧
        issue.placeholder = issue.mint.nth (stage.after call).supply.randomWord index := by
    intro issue member
    rcases ledger.indexed issue member with ⟨index, below, named⟩
    rw [sameWords]
    exact ⟨index, Nat.lt_of_lt_of_le below (stage.count_le_after call issue.mint), named⟩
  rcases call.draws stage.supply with ⟨operand, used, mint, owns, drawn⟩ | ⟨noIssues, _⟩
  · refine ⟨?_, ?_, ?_, accounted⟩
    · intro issue member
      rcases List.mem_append.mp member with old | new
      · exact indexedBefore issue old
      · rcases drawn.indexed issue new with ⟨index, _, below, named⟩
        rw [sameWords, drawn.mint_eq issue new]
        exact ⟨index, below, named⟩
    · rw [sameWords]
      exact ledger.unique_append drawn
    · intro issue member
      rcases List.mem_append.mp member with old | new
      · exact ownedBefore issue old
      · exact ⟨operand, stage.made_subset_after call (known operand used),
          by rw [owns, drawn.mint_eq issue new]⟩
  · have sameLog : (stage.after call).issues = stage.issues := by
      simp [Stage.after, noIssues]
    refine ⟨?_, ?_, ?_, accounted⟩
    · rw [sameLog]
      exact indexedBefore
    · rw [sameLog, sameWords]
      exact ledger.unique
    · rw [sameLog]
      exact ownedBefore

/-- The numbers that a sequence has issued lie below its counter. -/
theorem Ledger.numbered {stage : Stage} (ledger : stage.Ledger) :
    ∀ issue ∈ stage.issues, ∀ sequence, issue.mint.source = .sequence sequence →
      ∃ number, number ≤ stage.supply.issued sequence ∧
        issue.placeholder = issue.mint.numbered number := by
  intro issue member sequence onSequence
  rcases ledger.indexed issue member with ⟨index, below, named⟩
  rw [Mint.count_of_sequence onSequence] at below
  exact ⟨index + 1, below, by rw [named, Mint.nth_of_sequence onSequence]⟩

/-- A mint that does not repeat itself draws a token for one value only. -/
theorem Ledger.value_eq_of_injective {stage : Stage} (ledger : stage.Ledger) {mint : Mint}
    (injective : Function.Injective (mint.nth stage.supply.randomWord)) {token : String}
    {value other : AttributeValue} (first : DrawnFrom mint stage.issues (token, value))
    (second : DrawnFrom mint stage.issues (token, other)) : value = other := by
  rcases first with ⟨placeholder, named, member⟩
  rcases second with ⟨later, laterNamed, laterMember⟩
  have samePlaceholder : placeholder = later :=
    Placeholder.token_injective (named.trans laterNamed.symm)
  have same := ledger.unique _ member _ laterMember rfl injective samePlaceholder
  exact Option.some.inj (congrArg Issue.value same)

theorem Ledger.value_eq {stage : Stage} (ledger : stage.Ledger) {mint : Mint}
    (notRandom : mint.source ≠ .random) {token : String} {value other : AttributeValue}
    (first : DrawnFrom mint stage.issues (token, value))
    (second : DrawnFrom mint stage.issues (token, other)) : value = other :=
  have injective := Mint.nth_injective fun atRandom => absurd atRandom notRandom
  ledger.value_eq_of_injective injective first second

theorem Leads.ledger {stage later : Stage} (leads : stage.Leads later) (ledger : stage.Ledger) :
    later.Ledger := by
  induction leads with
  | refl => exact ledger
  | call _ call known induction => exact induction.after known

theorem Reached.ledger {stage : Stage} (reached : stage.Reached) : stage.Ledger := by
  rcases reached with ⟨randomWord, leads⟩
  exact leads.ledger (ledger_start randomWord)

end Stage

end ItemQuery
