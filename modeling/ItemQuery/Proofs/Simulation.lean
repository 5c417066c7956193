import Mathlib.Data.List.Forall2
import ItemQuery.Proofs.Lockstep
import ItemQuery.Proofs.Growth

/-!
Two drafts side by side.

Drafts are paired when they differ in nothing but their mints and their entries, and the entries are
alike one by one. A `Simulation` says what the mints have in common and when entries are alike. From
that it follows for all that scripts can do: scripts that are paired step by step run in lockstep on
paired drafts (`Simulation.lockstep_runScript`), and what they make is paired again.

A step that takes in the filter of another draft is the only one from which the runs may part.
-/

namespace ItemQuery

/-! ## Pairs -/

structure Condition.Paired (alike : Entry → Entry → Prop) (first second : Condition) : Prop where
  connective : second.connective = first.connective
  entries : List.Forall₂ alike first.entries second.entries

inductive ReadTarget.Paired (alike : Entry → Entry → Prop) : ReadTarget → ReadTarget → Prop
  | scan : Paired alike .scan .scan
  | query {condition other : Condition} (keys : condition.Paired alike other)
      (forward : Option Bool) : Paired alike (.query condition forward) (.query other forward)

/-- Whether two drafts of different mints have entries that are alike and are the same otherwise. -/
structure ReadDraft.Paired (alike : Entry → Entry → Prop) (mint other : Mint)
    (first second : ReadDraft) : Prop where
  mint : first.binder.mint = mint
  other : second.binder.mint = other
  marshaler : second.binder.marshaler = first.binder.marshaler
  target : first.target.Paired alike second.target
  filter : first.filter.Paired alike second.filter
  rest : { second with
    binder := first.binder, target := first.target, filter := first.filter } = first

/-- Whether a step takes in nothing and holds no script. -/
def ReadStep.standsAlone : ReadStep → Bool
  | .embed _ _ | .nest _ _ | .group _ _ => false
  | _ => true

structure Simulation where
  mint : Mint
  other : Mint
  related : Supply → Supply → Prop
  within : Supply → Prop
  alike : Entry → Entry → Prop
  /-- Whether the filters of two drafts may be taken in side by side. -/
  operand : ReadDraft → ReadDraft → Prop
  /-- Whether the runs part where a draft takes in the filter of another. -/
  parts : ReadDraft → ReadDraft → Prop
  within_of_issues {before after : Supply} {issues : List Issue}
    (drawn : other.Issues before issues after) : within after → within before
  create (kind : PredicateKind) (key : String) (operand : Operand) (connective : Connective) :
    Draw.Lockstep related within Draw.Never
      (fun predicate twin => alike (.predicate predicate) (.predicate twin))
      (Predicate.create mint kind key operand connective)
      (Predicate.create other kind key operand connective)
  group {entries others : List Entry} (joined : Connective)
    (all : List.Forall₂ alike entries others) :
    alike (.group joined entries) (.group joined others)
  capture {taken twin : ReadDraft} (joined : Connective) (operands : operand taken twin) :
    alike (.fragment (taken.filter.toEntry.capture joined))
      (.fragment (twin.filter.toEntry.capture joined))
  filter_of_operand {taken twin : ReadDraft} (operands : operand taken twin) :
    taken.filter.Paired alike twin.filter
  collision {draft twin taken takenTwin : ReadDraft}
    (drafts : draft.Paired alike mint other twin) (operands : operand taken takenTwin) :
    (¬parts draft taken ∧ twin.collision? takenTwin = draft.collision? taken) ∨
      parts draft taken ∧ takenTwin.filter.isEmpty = false ∧
        ∃ token, twin.collision? takenTwin = some token

/-! ## Steps -/

mutual
/-- Whether two steps are the same but for what they take in. -/
inductive ReadStep.Paired (simulation : Simulation) : ReadStep → ReadStep → Prop
  | embed {taken twin : ReadDraft} (joined : Connective)
      (operands : simulation.operand taken twin) :
      ReadStep.Paired simulation (.embed taken joined) (.embed twin joined)
  | nest {condition twin : Condition} (joined : Connective)
      (conditions : condition.Paired simulation.alike twin) :
      ReadStep.Paired simulation (.nest condition joined) (.nest twin joined)
  | group {steps others : List ReadStep} (joined : Connective)
      (scripts : ScriptPaired simulation steps others) :
      ReadStep.Paired simulation (.group joined steps) (.group joined others)
  | same (step : ReadStep) (alone : step.standsAlone = true) : ReadStep.Paired simulation step step

inductive ScriptPaired (simulation : Simulation) : List ReadStep → List ReadStep → Prop
  | nil : ScriptPaired simulation [] []
  | cons {step other : ReadStep} {rest others : List ReadStep}
      (first : ReadStep.Paired simulation step other)
      (later : ScriptPaired simulation rest others) :
      ScriptPaired simulation (step :: rest) (other :: others)
end

mutual
/-- Whether a step, run on a draft, comes upon a filter from which the runs part. -/
def ReadStep.Parts (parts : ReadDraft → ReadDraft → Prop) : ReadStep → ReadDraft → Supply → Prop
  | .embed taken _, draft, _ => parts draft taken
  | .group _ steps, draft, supply => ScriptParts parts steps draft.branch supply
  | _, _, _ => False

def ScriptParts (parts : ReadDraft → ReadDraft → Prop) :
    List ReadStep → ReadDraft → Supply → Prop
  | [], _, _ => False
  | step :: rest, draft, supply =>
      step.Parts parts draft supply ∨
        Draw.PartsLater (step.run draft) (ScriptParts parts rest) supply
end

mutual
/-- Steps do not part where no two drafts do. -/
theorem ReadStep.not_parts {parts : ReadDraft → ReadDraft → Prop}
    (together : ∀ draft taken, ¬parts draft taken) : ∀ (step : ReadStep) (draft : ReadDraft)
      (supply : Supply), ¬step.Parts parts draft supply
  | .embed taken _, draft, _ => together draft taken
  | .group _ steps, draft, supply => not_scriptParts together steps draft.branch supply
  | .nest .., _, _ | .restrict .., _, _ | .call .., _, _ | .apply _, _, _ | .applyAll _, _, _
  | .keyCondition .., _, _ | .descending, _, _ | .attributeNames _, _, _ | .index _, _, _
  | .projection _, _, _ | .limit _, _, _ | .select _, _, _ | .consistentRead _, _, _
  | .startKey _, _, _ | .fail _, _, _ => not_false

theorem not_scriptParts {parts : ReadDraft → ReadDraft → Prop}
    (together : ∀ draft taken, ¬parts draft taken) : ∀ (steps : List ReadStep) (draft : ReadDraft)
      (supply : Supply), ¬ScriptParts parts steps draft supply
  | [], _, _ => not_false
  | step :: rest, draft, supply => by
      rintro (first | later)
      · exact step.not_parts together draft supply first
      · unfold Draw.PartsLater at later
        split at later
        · exact not_scriptParts together rest _ _ later
        · exact later
end

/-! ## Paired drafts -/

theorem Condition.Paired.isEmpty {alike : Entry → Entry → Prop} {first second : Condition}
    (paired : first.Paired alike second) : second.isEmpty = first.isEmpty := by
  have entries := paired.entries
  unfold Condition.isEmpty
  cases same : first.entries <;> cases other : second.entries <;> simp_all

theorem Condition.Paired.imp {alike weaker : Entry → Entry → Prop}
    (weaken : ∀ entry twin, alike entry twin → weaker entry twin) {first second : Condition}
    (paired : first.Paired alike second) : first.Paired weaker second where
  connective := paired.connective
  entries := paired.entries.imp weaken

theorem Condition.Paired.push {alike : Entry → Entry → Prop} {first second : Condition}
    {entry twin : Entry} (paired : first.Paired alike second) (same : alike entry twin) :
    (first.push entry).Paired alike (second.push twin) where
  connective := paired.connective
  entries := List.rel_append paired.entries (.cons same .nil)

theorem ReadTarget.Paired.imp {alike weaker : Entry → Entry → Prop}
    (weaken : ∀ entry twin, alike entry twin → weaker entry twin) {first second : ReadTarget}
    (paired : first.Paired alike second) : first.Paired weaker second := by
  cases paired with
  | scan => exact .scan
  | query keys forward => exact .query (keys.imp weaken) forward

namespace ReadDraft.Paired

variable {alike weaker : Entry → Entry → Prop} {mint other : Mint} {first second : ReadDraft}

theorem imp (weaken : ∀ entry twin, alike entry twin → weaker entry twin)
    (paired : first.Paired alike mint other second) : first.Paired weaker mint other second :=
  { paired with
    target := paired.target.imp weaken
    filter := paired.filter.imp weaken }

theorem push {entry twin : Entry} (paired : first.Paired alike mint other second)
    (same : alike entry twin) : (first.push entry).Paired alike mint other (second.push twin) where
  mint := paired.mint
  other := paired.other
  marshaler := paired.marshaler
  target := paired.target
  filter := paired.filter.push same
  rest := congrArg (fun draft : ReadDraft => draft.push entry) paired.rest

theorem branch (paired : first.Paired alike mint other second) :
    first.branch.Paired alike mint other second.branch where
  mint := paired.mint
  other := paired.other
  marshaler := paired.marshaler
  target := by
    rcases first with ⟨_, _, _, target⟩
    rcases second with ⟨_, _, _, otherTarget⟩
    cases paired.target with
    | scan => exact .scan
    | query keys forward => exact .query ⟨rfl, .nil⟩ none
  filter := ⟨rfl, .nil⟩
  rest := congrArg (fun draft : ReadDraft => draft.branch) paired.rest

end ReadDraft.Paired

/-- Drafts of one mint that are paired entry by equal entry are equal. -/
theorem ReadDraft.Paired.eq {alike : Entry → Entry → Prop} {mint : Mint}
    {first second : ReadDraft} (paired : first.Paired alike mint mint second)
    (equal : ∀ entry twin, alike entry twin → twin = entry) : second = first := by
  have same : ∀ {condition other : Condition}, condition.Paired alike other →
      other = condition := by
    rintro ⟨_, entries⟩ ⟨_, others⟩ ⟨rfl, all⟩
    have sameEntries : entries = others :=
      List.forall₂_eq_eq_eq ▸ all.imp fun entry twin alike => (equal entry twin alike).symm
    rw [sameEntries]
  have filters := same paired.filter
  have mints := paired.other.trans paired.mint.symm
  have marshalers := paired.marshaler
  have rest := paired.rest
  have targets := paired.target
  rcases first with ⟨_, _, ⟨_, _⟩, target⟩
  rcases second with ⟨_, _, ⟨_, _⟩, other⟩
  cases filters
  cases mints
  cases marshalers
  cases targets with
  | scan => exact rest
  | query keys forward =>
      cases same keys
      exact rest

/-! ## Lockstep of operations -/

namespace Simulation

variable {simulation : Simulation} {first second : ReadDraft}

/-- Whether two drafts are paired in a simulation. -/
def Paired (simulation : Simulation) : ReadDraft → ReadDraft → Prop :=
  ReadDraft.Paired simulation.alike simulation.mint simulation.other

/-- Whether two computations of drafts are in lockstep in a simulation. -/
def Lockstep (simulation : Simulation) (parts : Supply → Prop) :
    Draw ReadDraft → Draw ReadDraft → Prop :=
  Draw.Lockstep simulation.related simulation.within parts simulation.Paired

theorem lockstep_predicate (paired : simulation.Paired first second) (kind : PredicateKind)
    (key : String) (operand : Operand) (connective : Connective) :
    Draw.Lockstep simulation.related simulation.within Draw.Never
      (fun predicate twin => simulation.alike (.predicate predicate) (.predicate twin))
      (first.binder.predicate kind key operand connective)
      (second.binder.predicate kind key operand connective) := by
  unfold Binder.predicate
  rw [paired.mint, paired.other]
  exact simulation.create kind key operand connective

theorem lockstep_specified (paired : simulation.Paired first second)
    (specification : Specification) :
    Draw.Lockstep simulation.related simulation.within Draw.Never
      (fun predicate twin => simulation.alike (.predicate predicate) (.predicate twin))
      (first.binder.specified specification) (second.binder.specified specification) := by
  unfold Binder.specified Binder.named
  split
  · exact lockstep_predicate paired _ _ _ _
  · exact .throw _

theorem lockstep_restrict (paired : simulation.Paired first second) (connective : Connective)
    (kind : PredicateKind) (key : String) (operand : Operand) :
    simulation.Lockstep Draw.Never (first.restrict connective kind key operand)
      (second.restrict connective kind key operand) := by
  unfold ReadDraft.restrict
  rw [bind_pure_comp, bind_pure_comp]
  apply (lockstep_predicate paired kind key operand connective).map
  exact fun predicate twin same => paired.push same

theorem lockstep_call (paired : simulation.Paired first second) (verbName key : String)
    (operand : Operand) :
    simulation.Lockstep Draw.Never (first.call verbName key operand)
      (second.call verbName key operand) := by
  unfold ReadDraft.call
  cases Verb.ofName verbName with
  | error error => exact .throw error
  | ok verb => exact lockstep_restrict paired verb.connective verb.kind key operand

theorem lockstep_apply (paired : simulation.Paired first second) (specification : Specification) :
    simulation.Lockstep Draw.Never (first.apply specification) (second.apply specification) := by
  unfold ReadDraft.apply
  rw [bind_pure_comp, bind_pure_comp]
  apply (lockstep_specified paired specification).map
  exact fun predicate twin same => paired.push same

theorem lockstep_applyAll : ∀ (specifications : List Specification) {first second : ReadDraft},
    simulation.Paired first second →
      simulation.Lockstep Draw.Never (first.applyAll specifications)
        (second.applyAll specifications)
  | [], _, _, paired => .pure paired
  | specification :: rest, first, second, paired => by
      unfold ReadDraft.applyAll
      apply (lockstep_apply paired specification).bind_never
      · intro start held middle applied
        have drawn := Binder.issuesOfAll_run rest held middle
        rw [(ReadDraft.grew_apply applied).binder, paired.other] at drawn
        exact simulation.within_of_issues drawn
      · intro changed other same
        exact lockstep_applyAll rest same

theorem lockstep_embed (paired : simulation.Paired first second) {taken twin : ReadDraft}
    (operands : simulation.operand taken twin) (joined : Connective) :
    simulation.Lockstep (fun _ => simulation.parts first taken)
      (.ofExcept (first.embed taken joined)) (.ofExcept (second.embed twin joined)) := by
  have filters := simulation.filter_of_operand operands
  rcases simulation.collision paired operands with
    ⟨together, same⟩ | ⟨apart, nonempty, token, found⟩
  · suffices lockstep : simulation.Lockstep Draw.Never
        (.ofExcept (first.embed taken joined)) (.ofExcept (second.embed twin joined)) from
      lockstep.mono (fun _ => by simp [Draw.Never, together]) fun _ _ same => same
    apply Draw.Lockstep.ofExcept
    simp only [ReadDraft.embed, filters.isEmpty, same]
    split
    · exact .inr ⟨_, _, rfl, rfl, paired⟩
    · split
      · exact .inl ⟨_, rfl, rfl⟩
      · exact .inr ⟨_, _, rfl, rfl, paired.push (simulation.capture joined operands)⟩
  · intro before start _ _
    have fails : second.embed twin joined = .error (.collision token) := by
      simp [ReadDraft.embed, nonempty, found]
    rw [fails]
    exact .collision apart

theorem paired_nest (paired : simulation.Paired first second) {condition twin : Condition}
    (conditions : condition.Paired simulation.alike twin) (joined : Connective) :
    simulation.Paired (first.nest joined condition) (second.nest joined twin) := by
  unfold ReadDraft.nest
  rw [conditions.isEmpty]
  split
  · exact paired
  · exact paired.push (simulation.group joined conditions.entries)

theorem lockstep_keyCondition (paired : simulation.Paired first second) (kind : PredicateKind)
    (key : String) (value : AttributeValue) :
    simulation.Lockstep Draw.Never (first.keyCondition kind key value)
      (second.keyCondition kind key value) := by
  have targets := paired.target
  have created := lockstep_predicate paired kind key (.scalar value) .and
  unfold ReadDraft.keyCondition
  cases target : first.target <;> cases other : second.target <;> rw [target, other] at targets <;>
    cases targets
  case scan.scan.scan => exact .throw _
  case query.query.query condition forward twin keys =>
    simp only
    split
    · rw [bind_pure_comp, bind_pure_comp]
      apply created.map
      intro predicate _ same
      exact { paired with
        target := .query (keys.push same) forward
        rest := congrArg (fun draft : ReadDraft =>
          { draft with target := .query (condition.push (.predicate predicate)) forward })
          paired.rest }
    · exact .throw _

theorem lockstep_descending (paired : simulation.Paired first second) :
    simulation.Lockstep Draw.Never (.ofExcept first.descending) (.ofExcept second.descending) := by
  have targets := paired.target
  apply Draw.Lockstep.ofExcept
  unfold ReadDraft.descending
  cases target : first.target <;> cases other : second.target <;> rw [target, other] at targets <;>
    cases targets
  case scan.scan.scan => exact .inl ⟨_, rfl, rfl⟩
  case query.query.query condition forward twin keys =>
    refine .inr ⟨_, _, rfl, rfl, { paired with target := .query keys (some false), rest := ?_ }⟩
    exact congrArg (fun draft : ReadDraft => { draft with target := .query condition (some false) })
      paired.rest

/-! ## Lockstep of scripts -/

mutual
/-- A step is paired with itself if what it takes in is. -/
theorem paired_self (simulation : Simulation) : ∀ step : ReadStep,
    (∀ taken, .read taken ∈ step.operands → simulation.operand taken taken) →
    (∀ condition, .condition condition ∈ step.operands →
      condition.Paired simulation.alike condition) → step.Paired simulation step
  | .embed taken joined, operands, _ => .embed joined (operands taken (by simp [ReadStep.operands]))
  | .nest condition joined, _, conditions =>
      .nest joined (conditions condition (by simp [ReadStep.operands]))
  | .group joined steps, operands, conditions =>
      .group joined (scriptPaired_self simulation steps operands conditions)
  | .restrict .., _, _ | .call .., _, _ | .apply _, _, _ | .applyAll _, _, _
  | .keyCondition .., _, _ | .descending, _, _ | .attributeNames _, _, _ | .index _, _, _
  | .projection _, _, _ | .limit _, _, _ | .select _, _, _ | .consistentRead _, _, _
  | .startKey _, _, _ | .fail _, _, _ => .same _ rfl

theorem scriptPaired_self (simulation : Simulation) : ∀ steps : List ReadStep,
    (∀ taken, .read taken ∈ scriptOperands steps → simulation.operand taken taken) →
    (∀ condition, .condition condition ∈ scriptOperands steps →
      condition.Paired simulation.alike condition) → ScriptPaired simulation steps steps
  | [], _, _ => .nil
  | step :: rest, operands, conditions =>
      .cons (paired_self simulation step
          (fun taken used => operands taken (List.mem_append_left _ used))
          (fun condition used => conditions condition (List.mem_append_left _ used)))
        (scriptPaired_self simulation rest
          (fun taken used => operands taken (List.mem_append_right _ used))
          (fun condition used => conditions condition (List.mem_append_right _ used)))
end

/-- A step that stands alone does the same to paired drafts. -/
theorem lockstep_of_standsAlone {step : ReadStep} (alone : step.standsAlone = true)
    (paired : simulation.Paired first second) :
    simulation.Lockstep Draw.Never (step.run first) (step.run second) := by
  cases step with
  | embed | nest | group => cases alone
  | restrict connective kind key operand =>
      exact lockstep_restrict paired connective kind key operand
  | call verbName key operand => exact lockstep_call paired verbName key operand
  | apply specification => exact lockstep_apply paired specification
  | applyAll specifications => exact lockstep_applyAll specifications paired
  | keyCondition kind key value => exact lockstep_keyCondition paired kind key value
  | descending => exact lockstep_descending paired
  | fail error => exact .throw error
  | attributeNames names =>
      exact .pure { paired with rest := congrArg (fun draft : ReadDraft =>
        { draft with attributeNames := names }) paired.rest }
  | index name =>
      exact .pure { paired with rest := congrArg (fun draft : ReadDraft =>
        { draft with indexName := some name }) paired.rest }
  | projection expression =>
      exact .pure { paired with rest := congrArg (fun draft : ReadDraft =>
        { draft with projection := some expression }) paired.rest }
  | limit limit =>
      exact .pure { paired with rest := congrArg (fun draft : ReadDraft =>
        { draft with limit := some limit }) paired.rest }
  | select select =>
      exact .pure { paired with rest := congrArg (fun draft : ReadDraft =>
        { draft with select := some select }) paired.rest }
  | consistentRead consistent =>
      exact .pure { paired with rest := congrArg (fun draft : ReadDraft =>
        { draft with consistentRead := some consistent }) paired.rest }
  | startKey key =>
      exact .pure { paired with rest := congrArg (fun draft : ReadDraft =>
        { draft with startKey := key }) paired.rest }

theorem parts_of_standsAlone {step : ReadStep} (alone : step.standsAlone = true)
    (parts : ReadDraft → ReadDraft → Prop) (draft : ReadDraft) (supply : Supply) :
    ¬step.Parts parts draft supply := by
  cases step with
  | embed | nest | group => cases alone
  | _ => simp [ReadStep.Parts]

mutual
/-- Paired steps are in lockstep on paired drafts, up to where they are known to part. -/
theorem lockstep_run : ∀ {step other : ReadStep}, step.Paired simulation other →
    ∀ {first second : ReadDraft}, simulation.Paired first second →
      simulation.Lockstep (step.Parts simulation.parts first) (step.run first) (other.run second)
  | _, _, .embed joined operands, _, _, paired => lockstep_embed paired operands joined
  | _, _, .nest joined conditions, _, _, paired => .pure (paired_nest paired conditions joined)
  | _, _, .group joined scripts, first, second, paired => by
      simp only [ReadStep.run, ReadDraft.group, bind_pure_comp]
      apply (lockstep_runScript scripts paired.branch).map
      intro child twin same
      exact paired_nest paired same.filter joined
  | _, _, .same step alone, first, _, paired =>
      (lockstep_of_standsAlone alone paired).mono
        (fun supply => (iff_false_intro (parts_of_standsAlone alone _ first supply)).symm)
        fun _ _ same => same

theorem lockstep_runScript : ∀ {steps others : List ReadStep},
    ScriptPaired simulation steps others → ∀ {first second : ReadDraft},
      simulation.Paired first second →
        simulation.Lockstep (ScriptParts simulation.parts steps first) (runScript steps first)
          (runScript others second)
  | _, _, .nil, _, _, paired => .pure paired
  | _, _, @ScriptPaired.cons _ _ other _ others firstPaired later, _, _, paired => by
      apply (lockstep_run firstPaired paired).bind
      · intro start held middle ran
        have drawn := scriptIssues_run others held middle
        rw [(other.grew_of_run ran).binder, paired.other] at drawn
        exact simulation.within_of_issues drawn
      · intro changed twin same
        exact lockstep_runScript later same
end

theorem lockstep_run_of_together (together : ∀ draft taken, ¬simulation.parts draft taken)
    {step other : ReadStep} (steps : step.Paired simulation other)
    (paired : simulation.Paired first second) :
    simulation.Lockstep Draw.Never (step.run first) (other.run second) :=
  (lockstep_run steps paired).mono
    (fun supply => iff_false_intro (step.not_parts together first supply)) fun _ _ same => same

theorem lockstep_runScript_of_together (together : ∀ draft taken, ¬simulation.parts draft taken)
    {steps others : List ReadStep} (scripts : ScriptPaired simulation steps others)
    (paired : simulation.Paired first second) :
    simulation.Lockstep Draw.Never (runScript steps first) (runScript others second) :=
  (lockstep_runScript scripts paired).mono
    (fun supply => iff_false_intro (not_scriptParts together steps first supply))
    fun _ _ same => same

end Simulation
end ItemQuery
