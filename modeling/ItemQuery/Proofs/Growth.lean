import ItemQuery.Proofs.Drawing
import ItemQuery.Proofs.Bindings

/-!
What a script adds to a draft.

Whatever a step does, the entries of the draft stay where they are and new ones come behind them
(`ReadStep.grew_of_run`). A new entry is a predicate that the step drew, or comes from an operand
that the step takes in, or is a group of such entries. All that a step draws comes from the mint of
the draft, whether the step succeeds or fails (`ReadStep.issues_run`).
-/

namespace ItemQuery

/-! ## Growth -/

/-- Between two lists only entries of some sort were appended. -/
def Appended (sort : α → Prop) (before after : List α) : Prop :=
  ∃ added, after = before ++ added ∧ ∀ entry ∈ added, sort entry

namespace Appended

variable {sort weaker : α → Prop} {before middle after : List α}

theorem of_eq (same : after = before) : Appended sort before after :=
  ⟨[], by simpa using same, by simp⟩

theorem mono (first : Appended sort before after) (weaken : ∀ entry, sort entry → weaker entry) :
    Appended weaker before after := by
  rcases first with ⟨added, equal, sorted⟩
  refine ⟨added, equal, ?_⟩
  intro entry member
  apply weaken
  exact sorted entry member

theorem trans (first : Appended sort before middle) (second : Appended sort middle after) :
    Appended sort before after := by
  rcases first with ⟨added, rfl, sorted⟩
  rcases second with ⟨more, rfl, moreSorted⟩
  refine ⟨added ++ more, List.append_assoc before added more, ?_⟩
  intro entry member
  rcases List.mem_append.mp member with early | late
  · exact sorted entry early
  · exact moreSorted entry late

theorem mem (appended : Appended sort before after) :
    ∀ entry ∈ after, entry ∈ before ∨ sort entry := by
  rcases appended with ⟨added, rfl, sorted⟩
  intro entry member
  exact (List.mem_append.mp member).imp_right (sorted entry)

end Appended

/-- The entries that a step appends to a filter: predicates with the values that were drawn for
them, operands that were taken in, and groups of such entries. -/
inductive Entry.Added (operands : List Object) (issues : List Issue) : Entry → Prop
  | drawn {predicate : Predicate}
      (bound : ∀ binding ∈ predicate.tokenValues, Drawn issues binding) :
      Added operands issues (.predicate predicate)
  | embedded {other : ReadDraft} (joined : Connective) (known : .read other ∈ operands) :
      Added operands issues (.fragment (other.filter.toEntry.capture joined))
  | nested {condition : Condition} (joined : Connective) (known : .condition condition ∈ operands) :
      Added operands issues (.group joined condition.entries)
  | grouped {entries : List Entry} (joined : Connective)
      (all : ∀ entry ∈ entries, Added operands issues entry) :
      Added operands issues (.group joined entries)

namespace Entry.Added

variable {operands more : List Object} {issues others : List Issue} {entry : Entry}

theorem mono (added : entry.Added operands issues) (moreOperands : operands ⊆ more)
    (moreIssues : issues ⊆ others) : entry.Added more others := by
  induction added with
  | drawn bound => exact .drawn fun binding member => (bound binding member).mono moreIssues
  | embedded joined known => exact .embedded joined (moreOperands known)
  | nested joined known => exact .nested joined (moreOperands known)
  | grouped joined _ induction => exact .grouped joined induction

theorem tokenValues (added : entry.Added operands issues) :
    ∀ binding ∈ entry.tokenValues,
      binding ∈ operands.flatMap Object.given ∨ Drawn issues binding := by
  induction added with
  | drawn bound => exact fun binding member => .inr (bound binding member)
  | embedded joined known | nested joined known =>
      intro binding member
      apply Or.inl
      exact List.mem_flatMap.mpr ⟨_, known, member⟩
  | grouped joined _ induction =>
      intro binding member
      rcases Entry.mem_tokenValues_group.mp member with ⟨entry, inGroup, binds⟩
      exact induction entry inGroup binding binds

end Entry.Added

def ReadTarget.entries : ReadTarget → List Entry
  | .scan => []
  | .query keyCondition _ => keyCondition.entries

/-- Between two states of a draft its entries stay as they are, and new ones come behind them. -/
structure ReadDraft.Grew (draft : ReadDraft) (operands : List Object) (issues : List Issue)
    (grown : ReadDraft) : Prop where
  binder : grown.binder = draft.binder
  target : Appended (Entry.Added [] issues) draft.target.entries grown.target.entries
  filter : Appended (Entry.Added operands issues) draft.filter.entries grown.filter.entries

namespace ReadDraft

variable {draft middle grown : ReadDraft} {operands more : List Object}
  {issues others : List Issue}

theorem Grew.of_same (binder : grown.binder = draft.binder)
    (target : grown.target.entries = draft.target.entries)
    (filter : grown.filter = draft.filter) : draft.Grew operands issues grown :=
  ⟨binder, .of_eq target, .of_eq (congrArg Condition.entries filter)⟩

theorem Grew.mono (grew : draft.Grew operands issues grown) (moreOperands : operands ⊆ more)
    (moreIssues : issues ⊆ others) : draft.Grew more others grown where
  binder := grew.binder
  target := grew.target.mono fun _ added => added.mono (List.Subset.refl []) moreIssues
  filter := grew.filter.mono fun _ added => added.mono moreOperands moreIssues

theorem Grew.trans (first : draft.Grew operands issues middle)
    (second : middle.Grew more others grown) :
    draft.Grew (operands ++ more) (issues ++ others) grown := by
  have early := first.mono (List.subset_append_left operands more)
    (List.subset_append_left issues others)
  have late := second.mono (List.subset_append_right operands more)
    (List.subset_append_right issues others)
  exact ⟨late.binder.trans early.binder, early.target.trans late.target,
    early.filter.trans late.filter⟩

theorem Grew.filterValues (grew : draft.Grew operands issues grown) :
    Appended (fun binding => binding ∈ operands.flatMap Object.given ∨ Drawn issues binding)
      draft.filter.tokenValues grown.filter.tokenValues := by
  rcases grew.filter with ⟨added, equal, sorted⟩
  refine ⟨added.flatMap Entry.tokenValues, ?_, ?_⟩
  · rw [Condition.tokenValues_eq, Condition.tokenValues_eq, equal, List.flatMap_append]
  · intro binding member
    rcases List.mem_flatMap.mp member with ⟨entry, isNew, binds⟩
    exact (sorted entry isNew).tokenValues binding binds

end ReadDraft

/-! ## One operation -/

namespace ReadDraft

variable {draft grown : ReadDraft} {operands : List Object} {issues : List Issue}

theorem added_of_made {mint : Mint} {action : Draw Predicate} {before after : Supply}
    {predicate : Predicate} (made : action.run before = .ok predicate after) :
    (Entry.predicate predicate).Added operands (mint.issuesOfRun action before) := by
  apply Entry.Added.drawn
  rw [Mint.issuesOfRun_of_ok made]
  exact Mint.drawn_issuesOf predicate

theorem grew_push {entry : Entry} (added : entry.Added operands issues) :
    draft.Grew operands issues (draft.push entry) where
  binder := rfl
  target := .of_eq rfl
  filter := ⟨[entry], rfl, by simpa using added⟩

theorem grew_restrict {connective : Connective} {kind : PredicateKind} {key : String}
    {operand : Operand} {before after : Supply}
    (ran : (draft.restrict connective kind key operand).run before = .ok grown after) :
    draft.Grew [] (draft.binder.mint.issuesOfRun
      (draft.binder.predicate kind key operand connective) before) grown := by
  rcases Draw.run_bind_eq_ok.mp ran with ⟨predicate, middle, made, finished⟩
  cases finished
  exact grew_push (added_of_made made)

theorem grew_apply {specification : Specification} {before after : Supply}
    (ran : (draft.apply specification).run before = .ok grown after) :
    draft.Grew [] (draft.binder.mint.issuesOfRun (draft.binder.specified specification) before)
      grown := by
  rcases Draw.run_bind_eq_ok.mp ran with ⟨predicate, middle, made, finished⟩
  cases finished
  exact grew_push (added_of_made made)

theorem grew_applyAll : ∀ (specifications : List Specification) {draft grown : ReadDraft}
    {before after : Supply}, (draft.applyAll specifications).run before = .ok grown after →
      draft.Grew [] (draft.binder.issuesOfAll specifications before) grown
  | [], _, _, _, _, ran => by
      cases ran
      exact .of_same rfl rfl rfl
  | specification :: rest, draft, grown, before, after, ran => by
      rcases Draw.run_bind_eq_ok.mp ran with ⟨applied, middle, first, finished⟩
      have grew := grew_apply first
      have later := grew_applyAll rest finished
      rcases Draw.run_bind_eq_ok.mp first with ⟨predicate, _, made, returned⟩
      cases returned
      simp only [Binder.issuesOfAll, made]
      exact grew.trans later

theorem grew_embed {other : ReadDraft} {connective : Connective}
    (embedded : draft.embed other connective = .ok grown) :
    draft.Grew [.read other] [] grown := by
  unfold embed at embedded
  split at embedded
  · cases embedded
    exact .of_same rfl rfl rfl
  · split at embedded
    · cases embedded
    · cases embedded
      exact grew_push (.embedded connective (by simp))

theorem grew_nest {connective : Connective} {condition : Condition}
    (added : (Entry.group connective condition.entries).Added operands issues) :
    draft.Grew operands issues (draft.nest connective condition) := by
  unfold nest
  split
  · exact .of_same rfl rfl rfl
  · exact grew_push added

/-- A group takes over what was done to a branch, which starts without entries. -/
theorem grew_group {connective : Connective} {build : ReadDraft → Draw ReadDraft}
    {before after : Supply}
    (built : ∀ child middle, (build draft.branch).run before = .ok child middle →
      draft.branch.Grew operands issues child)
    (ran : (draft.group connective build).run before = .ok grown after) :
    draft.Grew operands issues grown := by
  rcases Draw.run_bind_eq_ok.mp ran with ⟨child, middle, made, finished⟩
  cases finished
  apply grew_nest
  apply Entry.Added.grouped
  intro entry member
  rcases (built child _ made).filter.mem entry member with old | added
  · exact absurd old List.not_mem_nil
  · exact added

theorem grew_keyCondition {kind : PredicateKind} {key : String} {value : AttributeValue}
    {before after : Supply}
    (ran : (draft.keyCondition kind key value).run before = .ok grown after) :
    draft.Grew [] ((ReadStep.keyCondition kind key value).issues draft before) grown := by
  unfold keyCondition at ran
  split at ran
  · next condition forward target =>
      split at ran
      · next isKey =>
          have sameIssues : (ReadStep.keyCondition kind key value).issues draft before =
              draft.binder.mint.issuesOfRun
                (draft.binder.predicate kind key (.scalar value) .and) before := by
            simp [ReadStep.issues, target, isKey]
          rcases Draw.run_bind_eq_ok.mp ran with ⟨predicate, middle, made, finished⟩
          cases finished
          rw [sameIssues]
          refine ⟨rfl, ⟨[.predicate predicate], ?_, ?_⟩, .of_eq rfl⟩
          · simp [target, ReadTarget.entries, Condition.push]
          · simpa using added_of_made made
      · cases ran
  · cases ran

theorem grew_descending (descends : draft.descending = .ok grown) : draft.Grew [] [] grown := by
  unfold descending at descends
  split at descends
  · next target =>
      cases descends
      exact .of_same rfl (by simp [target, ReadTarget.entries]) rfl
  · cases descends

end ReadDraft

/-! ## Steps and scripts -/

mutual
/-- A step that succeeds only adds to the bindings of a draft. -/
theorem ReadStep.grew_of_run : ∀ (step : ReadStep) {draft grown : ReadDraft}
    {before after : Supply}, (step.run draft).run before = .ok grown after →
      draft.Grew step.operands (step.issues draft before) grown
  | .restrict .., _, _, _, _, ran => ReadDraft.grew_restrict ran
  | .call verbName key operand, draft, grown, before, after, ran => by
      unfold ReadStep.issues
      rcases Draw.run_bind_eq_ok.mp ran with ⟨verb, middle, named, finished⟩
      rcases Draw.run_ofExcept_eq_ok.mp named with ⟨found, rfl⟩
      rw [found]
      exact ReadDraft.grew_restrict finished
  | .apply _, _, _, _, _, ran => ReadDraft.grew_apply ran
  | .applyAll specifications, _, _, _, _, ran => ReadDraft.grew_applyAll specifications ran
  | .embed _ _, _, _, _, _, ran => ReadDraft.grew_embed (Draw.run_ofExcept_eq_ok.mp ran).1
  | .nest condition connective, _, _, _, _, ran => by
      cases ran
      apply ReadDraft.grew_nest
      apply Entry.Added.nested
      simp [ReadStep.operands]
  | .group _ steps, draft, _, _, _, ran => by
      apply ReadDraft.grew_group _ ran
      intro child middle built
      exact grew_of_runScript steps built
  | .keyCondition .., _, _, _, _, ran => ReadDraft.grew_keyCondition ran
  | .descending, _, _, _, _, ran => ReadDraft.grew_descending (Draw.run_ofExcept_eq_ok.mp ran).1
  | .attributeNames _, _, _, _, _, ran => by cases ran; exact .of_same rfl rfl rfl
  | .index _, _, _, _, _, ran => by cases ran; exact .of_same rfl rfl rfl
  | .projection _, _, _, _, _, ran => by cases ran; exact .of_same rfl rfl rfl
  | .limit _, _, _, _, _, ran => by cases ran; exact .of_same rfl rfl rfl
  | .select _, _, _, _, _, ran => by cases ran; exact .of_same rfl rfl rfl
  | .consistentRead _, _, _, _, _, ran => by cases ran; exact .of_same rfl rfl rfl
  | .startKey _, _, _, _, _, ran => by cases ran; exact .of_same rfl rfl rfl
  | .fail _, _, _, _, _, ran => by cases ran

theorem grew_of_runScript : ∀ (steps : List ReadStep) {draft grown : ReadDraft}
    {before after : Supply}, (runScript steps draft).run before = .ok grown after →
      draft.Grew (scriptOperands steps) (scriptIssues steps draft before) grown
  | [], _, _, _, _, ran => by
      cases ran
      exact .of_same rfl rfl rfl
  | step :: rest, draft, grown, before, after, ran => by
      rcases Draw.run_bind_eq_ok.mp ran with ⟨changed, middle, first, finished⟩
      have grew := step.grew_of_run first
      have later := grew_of_runScript rest finished
      simp only [scriptIssues, first, scriptOperands]
      exact grew.trans later
end

mutual
/-- A step draws from the mint of the draft and from no other, and what a failing step drew before
it failed counts as well. -/
theorem ReadStep.issues_run : ∀ (step : ReadStep) (draft : ReadDraft) (before : Supply),
    draft.binder.mint.Issues before (step.issues draft before)
      ((step.run draft).supplyAfter before)
  | .restrict connective kind key operand, draft, before => by
      have drawn := @Mint.drawsFor_create draft.binder.mint kind key operand connective before
      rw [ReadStep.run, ReadDraft.restrict, Draw.supplyAfter_bind_pure]
      exact drawn
  | .call verbName key operand, draft, before => by
      rw [ReadStep.run, ReadDraft.call, Draw.supplyAfter_bind]
      unfold ReadStep.issues
      cases Verb.ofName verbName with
      | error error => exact .none before
      | ok verb =>
          have drawn := @Mint.drawsFor_create draft.binder.mint verb.kind key operand
            verb.connective before
          change draft.binder.mint.Issues before _
            ((draft.restrict verb.connective verb.kind key operand).supplyAfter before)
          rw [ReadDraft.restrict, Draw.supplyAfter_bind_pure]
          exact drawn
  | .apply specification, draft, before => by
      have drawn := draft.binder.drawsFor_specified specification before
      rw [ReadStep.run, ReadDraft.apply, Draw.supplyAfter_bind_pure]
      exact drawn
  | .applyAll specifications, draft, before => Binder.issuesOfAll_run specifications draft before
  | .embed other connective, draft, before => by
      rw [ReadStep.run, Draw.supplyAfter_ofExcept]
      exact .none before
  | .group connective steps, draft, before => by
      rw [ReadStep.run, ReadDraft.group, Draw.supplyAfter_bind_pure]
      exact scriptIssues_run steps draft.branch before
  | .keyCondition kind key value, draft, before => by
      cases target : draft.target with
      | scan =>
          simp only [ReadStep.run, ReadDraft.keyCondition, ReadStep.issues, target]
          exact .none before
      | query condition forward =>
          simp only [ReadStep.run, ReadDraft.keyCondition, ReadStep.issues, target]
          split
          · rw [Draw.supplyAfter_bind_pure]
            exact Mint.drawsFor_create kind key (.scalar value) .and before
          · exact .none before
  | .descending, draft, before => by
      rw [ReadStep.run, Draw.supplyAfter_ofExcept]
      exact .none before
  | .nest .., _, before => .none before
  | .attributeNames _, _, before => .none before
  | .index _, _, before => .none before
  | .projection _, _, before => .none before
  | .limit _, _, before => .none before
  | .select _, _, before => .none before
  | .consistentRead _, _, before => .none before
  | .startKey _, _, before => .none before
  | .fail _, _, before => .none before

theorem scriptIssues_run : ∀ (steps : List ReadStep) (draft : ReadDraft) (before : Supply),
    draft.binder.mint.Issues before (scriptIssues steps draft before)
      ((runScript steps draft).supplyAfter before)
  | [], _, before => .none before
  | step :: rest, draft, before => by
      have drawn := step.issues_run draft before
      rw [runScript, Draw.supplyAfter_bind]
      unfold scriptIssues
      cases first : (step.run draft).run before with
      | error error middle =>
          simp only [Draw.supplyAfter, first] at drawn
          simpa only [List.append_nil] using drawn
      | ok changed middle =>
          rw [Draw.supplyAfter_of_ok first] at drawn
          have later := scriptIssues_run rest changed middle
          rw [(step.grew_of_run first).binder] at later
          exact drawn.append later
end

end ItemQuery
