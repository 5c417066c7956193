import ItemQuery.Proofs.Integrity
import ItemQuery.Proofs.Sessions

/-!
How many placeholders are drawn, and which.

Everything that draws has its price: a predicate takes a placeholder for each value of its operand,
or none if it fails, an assignment takes one for an attribute that had none yet, and whatever holds
several of these takes what those have taken that were done. In a session the counter of a sequence
moves by the prices of the acts that draw from it and by nothing else, and the placeholders of a
mint are its stem with the numbers from one on, in the order in which they were drawn
(`Stage.InSession.names_eq_and_issued_afterAct`).
-/

namespace ItemQuery

/-! ## Advancing a supply -/

/-- The supply after a mint has issued so many more placeholders. -/
def Mint.advanced (mint : Mint) (count : Nat) (supply : Supply) : Supply :=
  match mint.source with
  | .sequence sequence =>
      { supply with
        issued := fun other =>
          if other = sequence then supply.issued sequence + count else supply.issued other }
  | .random => { supply with randomIssued := supply.randomIssued + count }

@[simp] theorem Mint.opened_advanced (mint : Mint) (count : Nat) (supply : Supply) :
    (mint.advanced count supply).opened = supply.opened := by
  unfold advanced
  cases mint.source <;> rfl

theorem Mint.issued_advanced_of_ne {mint : Mint} {sequence : Nat}
    (other : mint.source ≠ .sequence sequence) (count : Nat) (supply : Supply) :
    (mint.advanced count supply).issued sequence = supply.issued sequence := by
  unfold advanced
  cases source : mint.source with
  | random => rfl
  | sequence drawn =>
      have different : sequence ≠ drawn := fun same => other (source.trans (same ▸ rfl))
      exact if_neg different

@[simp] theorem Mint.advanced_zero (mint : Mint) (supply : Supply) :
    mint.advanced 0 supply = supply := by
  unfold advanced
  cases mint.source with
  | random => rfl
  | sequence sequence =>
      have same : (fun other => if other = sequence then supply.issued sequence + 0
          else supply.issued other) = supply.issued := by
        funext other
        split
        · next isSame => rw [isSame, Nat.add_zero]
        · rfl
      simp only [same]

theorem Mint.run_next_eq_advanced {mint : Mint} {before after : Supply} {placeholder : Placeholder}
    (drawn : mint.next.run before = .ok placeholder after) : after = mint.advanced 1 before := by
  unfold advanced
  cases source : mint.source with
  | sequence sequence =>
      rw [run_next_of_sequence source] at drawn
      cases drawn
      rfl
  | random =>
      rw [run_next_of_random source] at drawn
      cases drawn
      rfl

theorem Mint.advanced_advanced (mint : Mint) (count more : Nat) (supply : Supply) :
    mint.advanced more (mint.advanced count supply) = mint.advanced (more + count) supply := by
  unfold advanced
  cases mint.source with
  | random => simp only [Nat.add_assoc, Nat.add_comm more count]
  | sequence sequence =>
      simp only [if_true, Supply.mk.injEq, true_and, and_true]
      funext other
      split
      · omega
      · rfl

theorem Mint.Issues.supply_eq {mint : Mint} {before after : Supply} {issues : List Issue}
    (drawn : mint.Issues before issues after) : after = mint.advanced issues.length before := by
  induction drawn with
  | none supply => exact (mint.advanced_zero supply).symm
  | next value drawn _ induction =>
      rw [induction, run_next_eq_advanced drawn, advanced_advanced, List.length_cons]

/-! ## Prices -/

/-- The price of a computation that takes so many placeholders if it succeeds, and none if not. -/
def Draw.price (action : Draw α) (count : Nat) (supply : Supply) : Nat :=
  match action.run supply with
  | .ok _ _ => count
  | .error _ _ => 0

def Specification.operand (specification : Specification) : Operand := .ofJson specification.value

/-- What predicates that are given as data take, up to the first that fails. -/
def ReadDraft.priceOfAll (draft : ReadDraft) : List Specification → Supply → Nat
  | [], _ => 0
  | specification :: rest, supply =>
      match (draft.apply specification).run supply with
      | .ok grown middle => specification.operand.values.length + priceOfAll grown rest middle
      | .error _ _ => 0

mutual
/-- What a step takes of the mint of the draft. -/
def ReadStep.price : ReadStep → ReadDraft → Supply → Nat
  | .restrict connective kind key operand, draft, supply =>
      (draft.restrict connective kind key operand).price operand.values.length supply
  | .call verbName key operand, draft, supply =>
      (draft.call verbName key operand).price operand.values.length supply
  | .apply specification, draft, supply =>
      (draft.apply specification).price specification.operand.values.length supply
  | .keyCondition kind key value, draft, supply =>
      (draft.keyCondition kind key value).price 1 supply
  | .applyAll specifications, draft, supply => draft.priceOfAll specifications supply
  | .group _ steps, draft, supply => scriptPrice steps draft.branch supply
  | _, _, _ => 0

/-- What the steps of a script take, up to and in the first that fails. -/
def scriptPrice : List ReadStep → ReadDraft → Supply → Nat
  | [], _, _ => 0
  | step :: rest, draft, supply =>
      step.price draft supply +
        match (step.run draft).run supply with
        | .ok changed middle => scriptPrice rest changed middle
        | .error _ _ => 0
end

/-- What a step of an update takes: one placeholder for each attribute that it assigns and that had
none, and one for each value of a predicate that it requires. -/
def UpdateStep.price (step : UpdateStep) (draft : UpdateDraft) (supply : Supply) : Nat :=
  let names := draft.newNames (step.assigns.map Prod.fst)
  let operands := step.requires.map Requirement.operand
  (step.run draft).price (names.length + (operands.flatMap Operand.values).length) supply

/-- What an act takes of the mint that it draws from. -/
def Act.price : Act → Supply → Nat
  | .call (.discard _), _ => 1
  | .call (.predicate binder kind key operand connective), supply =>
      (binder.predicate kind key operand connective).price operand.values.length supply
  | .call (.named binder kindName key operand connective), supply =>
      (binder.named kindName key operand connective).price operand.values.length supply
  | .call (.specified binder specification), supply =>
      (binder.specified specification).price specification.operand.values.length supply
  | .call (.step draft step), supply => step.price draft supply
  | .change draft step, supply => step.price draft supply
  | _, _ => 0

/-! ## Issues and their number -/

theorem Mint.length_issuesOfRun_create (mint : Mint) (kind : PredicateKind) (key : String)
    (operand : Operand) (connective : Connective) (supply : Supply) :
    (mint.issuesOfRun (Predicate.create mint kind key operand connective) supply).length =
      (Predicate.create mint kind key operand connective).price operand.values.length supply := by
  unfold issuesOfRun Draw.price
  cases created : (Predicate.create mint kind key operand connective).run supply with
  | error error after => rfl
  | ok predicate after =>
      rcases Predicate.of_run_create created with ⟨_, _, _, values⟩
      simp [← values, issuesOf]

theorem Binder.length_issuesOfRun_named (binder : Binder) (kindName key : String)
    (operand : Operand) (connective : Connective) (supply : Supply) :
    (binder.mint.issuesOfRun (binder.named kindName key operand connective) supply).length =
      (binder.named kindName key operand connective).price operand.values.length supply := by
  unfold named
  split
  · exact binder.mint.length_issuesOfRun_create _ key operand connective supply
  · rfl

/-- A computation that only goes on with what another one made has the same price. -/
theorem Draw.price_bind_pure (action : Draw α) (transform : α → β) (count : Nat)
    (supply : Supply) :
    (action >>= fun made => pure (transform made)).price count supply =
      action.price count supply := by
  unfold price
  rw [EStateM.run_bind]
  cases action.run supply <;> rfl

theorem ReadDraft.length_issuesOfAll : ∀ (specifications : List Specification) (draft : ReadDraft)
    (supply : Supply), (draft.binder.issuesOfAll specifications supply).length =
      draft.priceOfAll specifications supply
  | [], _, _ => rfl
  | specification :: rest, draft, supply => by
      have first := draft.binder.length_issuesOfRun_named specification.kindName
        specification.key specification.operand specification.connective supply
      change (draft.binder.mint.issuesOfRun (draft.binder.specified specification) supply).length =
        (draft.binder.specified specification).price _ supply at first
      unfold Binder.issuesOfAll priceOfAll apply
      rw [EStateM.run_bind]
      unfold Draw.price at first
      cases made : (draft.binder.specified specification).run supply with
      | error error after => simpa [made] using first
      | ok predicate middle =>
          have later := length_issuesOfAll rest (draft.push (.predicate predicate)) middle
          simp only [made] at first
          simp only [List.length_append, first, made, EStateM.run_pure]
          exact congrArg _ later

mutual
theorem ReadStep.length_issues : ∀ (step : ReadStep) (draft : ReadDraft) (supply : Supply),
    (step.issues draft supply).length = step.price draft supply
  | .restrict connective kind key operand, draft, supply => by
      rw [ReadStep.price, ReadDraft.restrict, Draw.price_bind_pure]
      exact draft.binder.mint.length_issuesOfRun_create kind key operand connective supply
  | .call verbName key operand, draft, supply => by
      rw [ReadStep.price, ReadStep.issues, ReadDraft.call]
      cases Verb.ofName verbName with
      | error error => rfl
      | ok verb =>
          change _ = (draft.restrict verb.connective verb.kind key operand).price _ supply
          rw [ReadDraft.restrict, Draw.price_bind_pure]
          exact draft.binder.mint.length_issuesOfRun_create verb.kind key operand verb.connective
            supply
  | .apply specification, draft, supply => by
      rw [ReadStep.price, ReadDraft.apply, Draw.price_bind_pure]
      exact draft.binder.length_issuesOfRun_named _ _ _ _ supply
  | .applyAll specifications, draft, supply => draft.length_issuesOfAll specifications supply
  | .group connective steps, draft, supply => length_scriptIssues steps draft.branch supply
  | .keyCondition kind key value, draft, supply => by
      rw [ReadStep.price, ReadStep.issues, ReadDraft.keyCondition]
      cases draft.target with
      | scan => rfl
      | query condition forward =>
          cases isKey : kind.isKeyCondition with
          | false => simp [Draw.price]
          | true =>
              simp only [if_true]
              rw [Draw.price_bind_pure]
              exact draft.binder.mint.length_issuesOfRun_create kind key (.scalar value) .and supply
  | .embed _ _, _, _ => rfl
  | .nest _ _, _, _ => rfl
  | .descending, _, _ => rfl
  | .attributeNames _, _, _ => rfl
  | .index _, _, _ => rfl
  | .projection _, _, _ => rfl
  | .limit _, _, _ => rfl
  | .select _, _, _ => rfl
  | .consistentRead _, _, _ => rfl
  | .startKey _, _, _ => rfl
  | .fail _, _, _ => rfl

theorem length_scriptIssues : ∀ (steps : List ReadStep) (draft : ReadDraft) (supply : Supply),
    (scriptIssues steps draft supply).length = scriptPrice steps draft supply
  | [], _, _ => rfl
  | step :: rest, draft, supply => by
      rw [scriptIssues, scriptPrice, List.length_append, step.length_issues draft supply]
      cases (step.run draft).run supply with
      | error error after => rfl
      | ok changed middle => exact congrArg _ (length_scriptIssues rest changed middle)
end

theorem UpdateStep.length_issues (step : UpdateStep) (draft : UpdateDraft) (supply : Supply) :
    (step.issues draft supply).length = step.price draft supply := by
  unfold issues UpdateStep.price Draw.price
  cases ran : (step.run draft).run supply with
  | error error after => rfl
  | ok grown after =>
      simp only [List.length_append, draft.length_issuesOfAssigns step.assigns supply
        step.nodup_assigns]
      rcases run_cases ran with ⟨noneRequired, _⟩ | ⟨required, isRequired, _, ran⟩
      · simp [noneRequired]
      · rcases Draw.run_bind_eq_ok.mp ran with ⟨predicate, middle, created, _⟩
        have drawn := draft.binder.mint.length_issuesOfRun_create required.kind required.key
          required.operand required.connective supply
        unfold Binder.predicate at created
        simp only [Draw.price, created] at drawn
        simp [isRequired, Binder.predicate, drawn]

theorem Act.length_issues (act : Act) (supply : Supply) :
    (act.issues supply).length = act.price supply := by
  cases act with
  | call asked =>
      cases asked with
      | discard mint =>
          rcases mint.exists_run_next supply with ⟨placeholder, after, drawn⟩
          simp [issues, Call.issues, price, drawn]
      | predicate binder kind key operand connective =>
          exact binder.mint.length_issuesOfRun_create kind key operand connective supply
      | named binder kindName key operand connective =>
          exact binder.length_issuesOfRun_named kindName key operand connective supply
      | specified binder specification =>
          exact binder.length_issuesOfRun_named _ _ _ _ supply
      | step draft step => exact step.length_issues draft supply
      | _ => rfl
  | change draft step => exact step.length_issues draft supply
  | _ => rfl

/-! ## Names -/

/-- The names of the first placeholders of a mint on a sequence: its stem with the numbers from one
on. -/
def Mint.firstNames (mint : Mint) (count : Nat) : List String :=
  (List.range count).map fun index => mint.stem ++ toString (index + 1)

theorem Mint.nodup_firstNames (mint : Mint) (count : Nat) : (mint.firstNames count).Nodup := by
  apply List.Nodup.map _ List.nodup_range
  intro first second equal
  have same : mint.numbered (first + 1) = mint.numbered (second + 1) :=
    congrArg Placeholder.mk equal
  exact Nat.succ.inj (numbered_injective same)

/-- What a mint on a sequence issues continues its names where the sequence stood. -/
theorem Mint.Issues.firstNames_append {mint : Mint} {sequence : Nat}
    (onSequence : mint.source = .sequence sequence) {before after : Supply} {issues : List Issue}
    (drawn : mint.Issues before issues after) :
    mint.firstNames (before.issued sequence) ++
        issues.map (fun issue => issue.placeholder.name) =
      mint.firstNames (after.issued sequence) := by
  rcases drawn.placeholders_eq with ⟨counted, named⟩
  rw [count_of_sequence onSequence, count_of_sequence onSequence] at counted
  rw [count_of_sequence onSequence] at named
  have names : issues.map (fun issue => issue.placeholder.name) =
      (List.range' (before.issued sequence) issues.length).map
        fun index => mint.stem ++ toString (index + 1) := by
    have all := congrArg (List.map Placeholder.name) named
    simpa [nth_of_sequence onSequence, Mint.numbered, Function.comp_def] using all
  rw [names, firstNames, firstNames, ← List.map_append, counted, List.range_eq_range',
    List.range_eq_range', ← List.range'_append_1, Nat.zero_add]

namespace Stage

/-- An act moves the counter that it draws from by its price. -/
theorem supply_afterAct (stage : Stage) {act : Act} {mint : Mint} (draws : act.mint? = some mint) :
    (stage.afterAct act).supply = mint.advanced (act.price stage.supply) stage.supply := by
  rw [← act.length_issues]
  exact (Act.issues_of_mint? draws stage.supply).supply_eq

/-- The names of the placeholders that a mint has issued, in the order in which they were drawn. -/
def names (stage : Stage) (mint : Mint) : List String :=
  (stage.issues.filter fun issue => issue.mint = mint).map fun issue => issue.placeholder.name

/-- Whether a mint is that of an object that was made. -/
def Has (stage : Stage) (mint : Mint) : Prop := mint.OfSome stage.made

/-- Whether the sequences of a stage are those that were opened, each with one mint, and that mint
has issued its first names. -/
structure Numbered (stage : Stage) : Prop where
  opened : ∀ mint, stage.Has mint → ∀ sequence, mint.source = .sequence sequence →
    sequence < stage.supply.opened
  single : ∀ mint other, stage.Has mint → stage.Has other → ∀ sequence,
    mint.source = .sequence sequence → other.source = .sequence sequence → mint = other
  blank : ∀ sequence, stage.supply.opened ≤ sequence → stage.supply.issued sequence = 0
  owned : ∀ issue ∈ stage.issues, stage.Has issue.mint
  names : ∀ mint, stage.Has mint → ∀ sequence, mint.source = .sequence sequence →
    stage.names mint = mint.firstNames (stage.supply.issued sequence)

namespace Numbered

variable {stage : Stage} {act : Act}

theorem start (randomWord : Nat → String) : (Stage.start randomWord).Numbered where
  opened := by rintro mint ⟨_, member, _⟩; cases member
  single := by rintro mint _ ⟨_, member, _⟩; cases member
  blank _ _ := rfl
  owned := nofun
  names := by rintro mint ⟨_, member, _⟩; cases member

theorem names_afterAct (mint : Mint) :
    (stage.afterAct act).names mint = stage.names mint ++
      ((act.issues stage.supply).filter fun issue => issue.mint = mint).map
        fun issue => issue.placeholder.name := by
  simp only [Stage.names, Stage.afterAct, List.filter_append, List.map_append]

/-- An act that draws brings no new mints in, and goes on where its mint stood. -/
theorem afterAct_of_draws (numbered : stage.Numbered) {source : Mint}
    (draws : act.mint? = some source) (known : ∀ operand ∈ act.operands, operand ∈ stage.made) :
    (stage.afterAct act).Numbered := by
  have drawn := Act.issues_of_mint? draws stage.supply
  have supplied := stage.supply_afterAct draws
  have hasSource : stage.Has source := by
    rcases Act.exists_operand_of_mint? draws with ⟨operand, used, owns⟩
    exact ⟨operand, known operand used, owns⟩
  have old : ∀ mint, (stage.afterAct act).Has mint → stage.Has mint := by
    rintro mint ⟨object, member, owns⟩
    rcases mem_made_afterAct member with isOld | ran
    · exact ⟨object, isOld, owns⟩
    · rcases Act.mint_of_run draws ran owns with ⟨operand, used, owns⟩
      exact ⟨operand, known operand used, owns⟩
  have kept : ∀ mint, stage.Has mint → (stage.afterAct act).Has mint :=
    fun mint ⟨object, member, owns⟩ => ⟨object, stage.made_subset_afterAct act member, owns⟩
  refine ⟨?_, ?_, ?_, ?_, ?_⟩
  · intro mint has sequence onSequence
    rw [supplied, Mint.opened_advanced]
    exact numbered.opened mint (old mint has) sequence onSequence
  · intro mint other has otherHas
    exact numbered.single mint other (old mint has) (old other otherHas)
  · intro sequence unopened
    rw [supplied, Mint.opened_advanced] at unopened
    have elsewhere : source.source ≠ .sequence sequence := by
      intro onSequence
      exact Nat.not_le_of_lt (numbered.opened source hasSource sequence onSequence) unopened
    rw [supplied, Mint.issued_advanced_of_ne elsewhere]
    exact numbered.blank sequence unopened
  · intro issue member
    rcases List.mem_append.mp member with isOld | isNew
    · exact kept _ (numbered.owned issue isOld)
    · rw [drawn.mint_eq issue isNew]
      exact kept source hasSource
  · intro mint has sequence onSequence
    rw [names_afterAct, numbered.names mint (old mint has) sequence onSequence]
    by_cases isSource : mint = source
    · subst isSource
      have all : (act.issues stage.supply).filter (fun issue => issue.mint = mint) =
          act.issues stage.supply := by
        rw [List.filter_eq_self]
        exact fun issue member => decide_eq_true (drawn.mint_eq issue member)
      rw [all]
      exact drawn.firstNames_append onSequence
    · have none : (act.issues stage.supply).filter (fun issue => issue.mint = mint) = [] := by
        rw [List.filter_eq_nil_iff]
        intro issue member same
        rw [decide_eq_true_eq, drawn.mint_eq issue member] at same
        exact isSource same.symm
      have elsewhere : source.source ≠ .sequence sequence := fun sourceOnSequence =>
        isSource (numbered.single mint source (old mint has) hasSource sequence onSequence
          sourceOnSequence)
      rw [none, supplied, Mint.issued_advanced_of_ne elsewhere, List.map_nil, List.append_nil]

/-- An act that does not draw may bring a new mint in, which has issued nothing yet. -/
theorem afterAct_of_founds (numbered : stage.Numbered) (noSource : act.mint? = none)
    (known : ∀ operand ∈ act.operands, operand ∈ stage.made) : (stage.afterAct act).Numbered := by
  rcases Act.founds_of_mint?_eq_none noSource with ⟨noIssues, founds⟩
  rcases founds stage.supply with ⟨opened, further, supplied, origin⟩
  change (stage.afterAct act).supply = _ at supplied
  have sameLog : (stage.afterAct act).issues = stage.issues := by
    simp [Stage.afterAct, noIssues]
  have oldOrMade : ∀ mint, (stage.afterAct act).Has mint → stage.Has mint ∨
      mint.OnNew stage.supply.opened opened ∧
        ∃ object, act.action.run stage.supply = .ok object (stage.afterAct act).supply ∧
          object.mint? = some mint := by
    rintro mint ⟨object, member, owns⟩
    rcases mem_made_afterAct member with isOld | ran
    · exact .inl ⟨object, isOld, owns⟩
    · rcases origin object _ ran mint owns with ⟨operand, used, owns⟩ | ⟨_, isNew⟩
      · exact .inl ⟨operand, known operand used, owns⟩
      · exact .inr ⟨isNew, object, ran, owns⟩
  refine ⟨?_, ?_, ?_, ?_, ?_⟩
  · intro mint has sequence onSequence
    rw [supplied]
    rcases oldOrMade mint has with old | ⟨isNew, _⟩
    · exact Nat.lt_of_lt_of_le (numbered.opened mint old sequence onSequence) further
    · exact (isNew sequence onSequence).2
  · intro mint other has otherHas sequence onSequence otherOnSequence
    rcases oldOrMade mint has with old | ⟨isNew, object, ran, owns⟩
    · rcases oldOrMade other otherHas with otherOld | ⟨otherNew, _⟩
      · exact numbered.single mint other old otherOld sequence onSequence otherOnSequence
      · have below := numbered.opened mint old sequence onSequence
        have above := (otherNew sequence otherOnSequence).1
        omega
    · rcases oldOrMade other otherHas with otherOld | ⟨_, twin, again, twinOwns⟩
      · have below := numbered.opened other otherOld sequence otherOnSequence
        have above := (isNew sequence onSequence).1
        omega
      · cases ran.symm.trans again
        exact Option.some.inj (owns.symm.trans twinOwns)
  · intro sequence unopened
    rw [supplied] at unopened ⊢
    exact numbered.blank sequence (Nat.le_trans further unopened)
  · intro issue member
    rw [sameLog] at member
    rcases numbered.owned issue member with ⟨object, isMade, owns⟩
    exact ⟨object, stage.made_subset_afterAct act isMade, owns⟩
  · intro mint has sequence onSequence
    have sameNames : (stage.afterAct act).names mint = stage.names mint := by
      rw [Stage.names, Stage.names, sameLog]
    rw [sameNames, supplied]
    rcases oldOrMade mint has with old | ⟨isNew, _⟩
    · exact numbered.names mint old sequence onSequence
    · have unopened := (isNew sequence onSequence).1
      rw [numbered.blank sequence unopened, Stage.names]
      have noneIssued : stage.issues.filter (fun issue => issue.mint = mint) = [] := by
        rw [List.filter_eq_nil_iff]
        intro issue member same
        rw [decide_eq_true_eq] at same
        have owned := numbered.owned issue member
        rw [same] at owned
        exact Nat.not_le_of_lt (numbered.opened mint owned sequence onSequence) unopened
      rw [noneIssued]
      rfl

end Numbered

theorem InSession.numbered {permitted : Act → Prop} {stage : Stage}
    (session : stage.InSession permitted) : stage.Numbered := by
  induction session with
  | start randomWord => exact .start randomWord
  | act _ act _ known induction =>
      cases source : act.mint? with
      | some mint => exact induction.afterAct_of_draws source known
      | none => exact induction.afterAct_of_founds source known

end Stage

/-! ## Prices of single operations -/

/-- An assignment takes a placeholder for an attribute that has none, and nothing for another. -/
theorem UpdateStep.price_assign (draft : UpdateDraft) (name : String) (value : AttributeValue)
    (supply : Supply) :
    (assign name value).price draft supply =
      if (draft.assignments.get? name).isSome then 0 else 1 := by
  rcases draft.exists_run_assign name value supply with ⟨grown, after, ran, _⟩
  have newOnly : (draft.newNames [name]).length =
      if (draft.assignments.get? name).isSome then 0 else 1 := by
    unfold UpdateDraft.newNames
    cases found : draft.assignments.get? name <;> simp [found]
  simp [price, Draw.price, run, ran, assigns, requires, newOnly]

/-- A group takes what is taken while it is built, whether it succeeds or fails. -/
theorem ReadDraft.supplyAfter_group (draft : ReadDraft) (connective : Connective)
    (build : ReadDraft → Draw ReadDraft) (supply : Supply) :
    (draft.group connective build).supplyAfter supply =
      (build draft.branch).supplyAfter supply := by
  rw [group, Draw.supplyAfter_bind_pure]

/-! ## The counter of a sequence -/

namespace Stage

/-- In a session the placeholders that a mint on a sequence has issued are its stem with the numbers
from one to where the sequence stands, in this order and without repetition. An act moves the
sequence by its price if it draws from that mint, and otherwise not at all. -/
theorem InSession.names_eq_and_issued_afterAct {permitted : Act → Prop} {stage : Stage}
    (session : stage.InSession permitted) {mint : Mint} (has : stage.Has mint) {sequence : Nat}
    (onSequence : mint.source = .sequence sequence) :
    stage.names mint = mint.firstNames (stage.supply.issued sequence) ∧
      (stage.names mint).Nodup ∧
      (∀ act : Act, (∀ operand ∈ act.operands, operand ∈ stage.made) →
        (stage.afterAct act).supply.issued sequence = stage.supply.issued sequence +
          if act.mint? = some mint then act.price stage.supply else 0) ∧
      (∀ draft name value supply, (UpdateStep.assign name value).price draft supply =
        if (draft.assignments.get? name).isSome then 0 else 1) ∧
      ∀ draft connective build supply, (ReadDraft.group draft connective build).supplyAfter supply =
        (build draft.branch).supplyAfter supply := by
  have numbered := session.numbered
  have names := numbered.names mint has sequence onSequence
  refine ⟨names, names ▸ mint.nodup_firstNames _, ?_, UpdateStep.price_assign,
    ReadDraft.supplyAfter_group⟩
  intro act known
  cases source : act.mint? with
  | none =>
      rcases Act.founds_of_mint?_eq_none source with ⟨_, founds⟩
      rcases founds stage.supply with ⟨opened, _, supplied, _⟩
      change (act.action.supplyAfter stage.supply).issued sequence = _
      rw [supplied]
      simp
  | some other =>
      rw [stage.supply_afterAct source]
      by_cases same : other = mint
      · subst same
        simp [Mint.advanced, onSequence]
      · have otherHas : stage.Has other := by
          rcases Act.exists_operand_of_mint? source with ⟨operand, used, owns⟩
          exact ⟨operand, known operand used, owns⟩
        have elsewhere : other.source ≠ .sequence sequence := fun otherOnSequence =>
          same (numbered.single other mint otherHas has sequence otherOnSequence onSequence)
        rw [Mint.issued_advanced_of_ne elsewhere, if_neg fun equal => same (Option.some.inj equal),
          Nat.add_zero]

end Stage

/-! ## A session on one sequence -/

/-- An update of the games that assigns one attribute. -/
def lostUpdate : UpdateDraft :=
  { gamesTable.update with assignments := Dictionary.ofList [("lost", ⟨"p2"⟩, .bool true)] }

/-- A scan and an update draw in turns. An attribute is assigned twice, a predicate of two values is
refused, and a group fails after its first step. -/
def turnsStage : Stage :=
  (Stage.start fun _ => "").afterActs
    [.call (.makeTable "games"), .call (.scanTable gamesTable), .updateTable gamesTable,
      .call (.step gamesTable.scan (.restrict .and .eq "rated" (.scalar (.bool true)))),
      .change gamesTable.update (.assign "lost" (.bool true)),
      .change lostUpdate (.assign "lost" (.bool true)),
      .change lostUpdate (.require .and .eq "size" (.collection [.bool true, .bool false])),
      .call (.step ratedGames (.group .or
        [.restrict .and .eq "lost" (.scalar (.bool true)), .fail .malformed])),
      .clone (.update lostUpdate), .compileUpdate lostUpdate .empty]

/-- The step of an update that is about to be made takes two placeholders. -/
def sizeAct : Act :=
  .change lostUpdate (.require .or .within "size" (.collection [.bool true, .bool false]))

theorem Stage.InSession.names_eq_and_issued_afterAct_of_turns :
    turnsStage.InSession (fun _ => True) ∧ turnsStage.Has gamesTable.mint ∧
      turnsStage.names gamesTable.mint = ["p1", "p2", "p3"] ∧
      (turnsStage.afterAct sizeAct).supply.issued 0 = 5 := by
  have session : turnsStage.InSession (fun _ => True) :=
    Stage.InSession.afterActs _ (.start _) (by simp) (by decide)
  have has : turnsStage.Has gamesTable.mint := ⟨.table gamesTable, by decide, rfl⟩
  rcases session.names_eq_and_issued_afterAct has rfl with ⟨names, _, counted, _⟩
  refine ⟨session, has, names.trans (by decide), ?_⟩
  rw [counted sizeAct (by decide)]
  decide

end ItemQuery
