import ItemQuery.ReadDraft.Script
import ItemQuery.Workspace
import ItemQuery.Proofs.Simulation
import ItemQuery.Proofs.Integrity

/-!
Scripts over the drafts of one table.

An action makes an object out of those of a workspace: a new draft of the table, what a step makes
of a draft, or a request. The drafts that a step takes in are named, so the same script can be run
in any workspace. Where the drafts draw from a sequence, no step ever meets a collision
(`TableStep.uncollided_run`).
-/

namespace ItemQuery

/-! ## Steps -/

/-- Whether a step is a verb, which takes in nothing, holds no script and does not merely fail. -/
def ReadStep.isVerb : ReadStep → Bool
  | .embed _ _ | .nest _ _ | .group _ _ | .fail _ => false
  | _ => true

theorem ReadStep.standsAlone_of_isVerb {step : ReadStep} (isVerb : step.isVerb = true) :
    step.standsAlone = true := by
  cases step with
  | embed | nest | group | fail => cases isVerb
  | _ => rfl

/-- A step of a draft of a table, with the names of the drafts that it takes in. -/
inductive TableStep
  | verb (step : ReadStep) (isVerb : step.isVerb = true)
  | embed (other : String) (connective : Connective)
  | group (connective : Connective) (steps : List TableStep)

mutual
/-- The step with the drafts that are kept under the names. -/
def TableStep.resolve (objects : Dictionary Object) : TableStep → ReadStep
  | .verb step _ => step
  | .embed other connective =>
      match objects.get? other with
      | some (.read draft) => .embed draft connective
      | _ => .fail .malformed
  | .group connective steps => .group connective (resolveAll objects steps)

def TableStep.resolveAll (objects : Dictionary Object) : List TableStep → List ReadStep
  | [] => []
  | step :: rest => step.resolve objects :: resolveAll objects rest
end

/-! ## Actions -/

/-- What makes an object out of others, which are given by their names. -/
inductive TableAction
  | scan
  | query
  | update
  | branch (source : String)
  | clone (source : String)
  | step (source : String) (step : TableStep)
  /-- A group whose function hands over a draft that was made before. -/
  | group (source : String) (connective : Connective) (child : String)
  | change (source : String) (step : UpdateStep)
  | compile (source : String) (overrides : Dictionary Json)

namespace TableAction

def readDraft (objects : Dictionary Object) (name : String) : Draw ReadDraft :=
  match objects.get? name with
  | some (.read draft) => pure draft
  | _ => throw .malformed

def updateDraft (objects : Dictionary Object) (name : String) : Draw UpdateDraft :=
  match objects.get? name with
  | some (.update draft) => pure draft
  | _ => throw .malformed

theorem of_run_readDraft {objects : Dictionary Object} {name : String} {draft : ReadDraft}
    {before after : Supply} (found : (readDraft objects name).run before = .ok draft after) :
    objects.get? name = some (.read draft) ∧ before = after := by
  unfold readDraft at found
  split at found
  · next held stored =>
      cases found
      exact ⟨stored, rfl⟩
  · cases found

theorem of_run_updateDraft {objects : Dictionary Object} {name : String} {draft : UpdateDraft}
    {before after : Supply} (found : (updateDraft objects name).run before = .ok draft after) :
    objects.get? name = some (.update draft) ∧ before = after := by
  unfold updateDraft at found
  split at found
  · next held stored =>
      cases found
      exact ⟨stored, rfl⟩
  · cases found

def run (table : Table) (objects : Dictionary Object) : TableAction → Draw Object
  | .scan => pure (.read table.scan)
  | .query => pure (.read table.query)
  | .update => pure (.update table.update)
  | .branch source => do
      let draft ← readDraft objects source
      return .read draft.branch
  | .clone source =>
      match objects.get? source with
      | some object => pure object
      | none => throw .malformed
  | .step source taken => do
      let draft ← readDraft objects source
      .read <$> (taken.resolve objects).run draft
  | .group source connective child => do
      let draft ← readDraft objects source
      let child ← readDraft objects child
      .read <$> draft.group connective fun _ => pure child
  | .change source taken => do
      let draft ← updateDraft objects source
      .update <$> taken.run draft
  | .compile source overrides =>
      match objects.get? source with
      | some (.read draft) => pure (.request (draft.compile overrides))
      | some (.update draft) => pure (.request (draft.compile overrides))
      | _ => throw .malformed

end TableAction

/-- What comes of the actions of a script, one after the other, each of whose results is kept under
a name. -/
def Table.performAll (table : Table) :
    List (String × TableAction) → Workspace → List (Except QueryError Object) × Workspace
  | [], workspace => ([], workspace)
  | (name, action) :: rest, workspace =>
      let performed := workspace.perform name (action.run table workspace.objects)
      let later := table.performAll rest performed.2
      (performed.1 :: later.1, later.2)

/-! ## Tokens that are bound already -/

/-- Whether a draft binds a token already that the filter of another one brings along. -/
def ReadDraft.TakesBound (draft taken : ReadDraft) : Prop :=
  ∃ token ∈ taken.filter.bindings.names, draft.boundValues.contains token = true

instance (draft taken : ReadDraft) : Decidable (draft.TakesBound taken) :=
  inferInstanceAs (Decidable (∃ token ∈ taken.filter.bindings.names, _))

/-- Whether an action embeds, at any depth of its groups, a filter into a draft that binds one of
its tokens already. -/
def TableAction.TakesBound (objects : Dictionary Object) (supply : Supply) : TableAction → Prop
  | .step source taken =>
      match objects.get? source with
      | some (.read draft) => (taken.resolve objects).Parts ReadDraft.TakesBound draft supply
      | _ => False
  | _ => False

/-- Whether one of the actions of a script does. -/
def Table.TakesBound (table : Table) : List (String × TableAction) → Workspace → Prop
  | [], _ => False
  | (name, action) :: rest, workspace =>
      action.TakesBound workspace.objects workspace.supply ∨
        table.TakesBound rest (workspace.perform name (action.run table workspace.objects)).2

/-! ## No collisions on a sequence -/

/-- Whether a computation never meets a collision. -/
def Draw.Uncollided (action : Draw α) : Prop :=
  ∀ before token after, action.run before ≠ .error (.collision token) after

namespace Draw.Uncollided

theorem pure (value : α) : Uncollided (Pure.pure value : Draw α) := by
  intro before token after
  simp

theorem throw {error : QueryError} (other : ∀ token, error ≠ .collision token) :
    Uncollided (throw error : Draw α) := by
  intro before token after
  simp [other]

theorem bind {action : Draw α} {next : α → Draw β} (first : action.Uncollided)
    (rest : ∀ value before after, action.run before = .ok value after → (next value).Uncollided) :
    (action >>= next).Uncollided := by
  intro before token after
  rw [EStateM.run_bind]
  cases ran : action.run before with
  | ok value middle => exact rest value before middle ran middle token after
  | error error middle =>
      intro collided
      apply first before token after
      rw [ran]
      injection collided with sameError sameSupply
      rw [sameError, sameSupply]

theorem map {action : Draw α} (uncollided : action.Uncollided) (transform : α → β) :
    (transform <$> action).Uncollided := by
  rw [← bind_pure_comp]
  exact uncollided.bind fun _ _ _ _ => .pure _

end Draw.Uncollided

theorem Predicate.uncollided_create (mint : Mint) (kind : PredicateKind) (key : String)
    (operand : Operand) (connective : Connective) :
    (create mint kind key operand connective).Uncollided := by
  intro before token after
  cases mismatch : operand.mismatch? kind with
  | some mismatch =>
      rw [run_create_of_mismatch mismatch]
      simp
  | none =>
      rcases exists_run_create mismatch with ⟨_, _, ran, _⟩
      rw [ran]
      simp

theorem Binder.uncollided_specified (binder : Binder) (specification : Specification) :
    (binder.specified specification).Uncollided := by
  unfold specified named
  split
  · exact Predicate.uncollided_create _ _ _ _ _
  · exact .throw (by simp)

namespace ReadDraft

theorem uncollided_restrict (draft : ReadDraft) (connective : Connective) (kind : PredicateKind)
    (key : String) (operand : Operand) :
    (draft.restrict connective kind key operand).Uncollided :=
  (Predicate.uncollided_create _ _ _ _ _).bind fun _ _ _ _ => .pure _

theorem uncollided_apply (draft : ReadDraft) (specification : Specification) :
    (draft.apply specification).Uncollided :=
  (draft.binder.uncollided_specified specification).bind fun _ _ _ _ => .pure _

theorem uncollided_applyAll : ∀ (specifications : List Specification) (draft : ReadDraft),
    (draft.applyAll specifications).Uncollided
  | [], draft => .pure draft
  | specification :: rest, draft =>
      (draft.uncollided_apply specification).bind fun grown _ _ _ => uncollided_applyAll rest grown

theorem uncollided_call (draft : ReadDraft) (verbName key : String) (operand : Operand) :
    (draft.call verbName key operand).Uncollided := by
  unfold call Verb.ofName
  split
  · exact draft.uncollided_restrict _ _ key operand
  · exact .throw (by simp)

theorem uncollided_keyCondition (draft : ReadDraft) (kind : PredicateKind) (key : String)
    (value : AttributeValue) : (draft.keyCondition kind key value).Uncollided := by
  unfold keyCondition
  split
  · split
    · exact (Predicate.uncollided_create _ _ _ _ _).bind fun _ _ _ _ => .pure _
    · exact .throw (by simp)
  · exact .throw (by simp)

end ReadDraft

theorem ReadStep.uncollided_of_isVerb {step : ReadStep} (isVerb : step.isVerb = true)
    (draft : ReadDraft) : (step.run draft).Uncollided := by
  cases step with
  | embed | nest | group | fail => cases isVerb
  | restrict connective kind key operand =>
      exact draft.uncollided_restrict connective kind key operand
  | call verbName key operand => exact draft.uncollided_call verbName key operand
  | apply specification => exact draft.uncollided_apply specification
  | applyAll specifications => exact draft.uncollided_applyAll specifications
  | keyCondition kind key value => exact draft.uncollided_keyCondition kind key value
  | descending =>
      unfold ReadStep.run ReadDraft.descending
      split
      · exact .pure _
      · exact .throw (by simp)
  | attributeNames | index | projection | limit | select | consistentRead | startKey =>
      exact .pure _

/-- Whether all drafts of reads draw from a mint. -/
def DrawFrom (mint : Mint) (objects : Dictionary Object) : Prop :=
  ∀ name draft, objects.get? name = some (.read draft) → draft.binder.mint = mint

variable {mint : Mint} {sequence : Nat} {objects : Dictionary Object}

mutual
theorem TableStep.uncollided_run (onSequence : mint.source = .sequence sequence)
    (ofMint : DrawFrom mint objects) : ∀ (step : TableStep) (draft : ReadDraft),
    draft.binder.mint = mint → ((step.resolve objects).run draft).Uncollided
  | .verb _ isVerb, draft, _ => ReadStep.uncollided_of_isVerb isVerb draft
  | .embed other connective, draft, isMint => by
      unfold resolve
      split
      · next taken found =>
          have shares : draft.binder.mint.sharesSequence taken.binder.mint = true := by
            rw [isMint, ofMint other taken found, Mint.sharesSequence_self onSequence]
          rcases ReadDraft.exists_embed_of_sharesSequence shares connective with ⟨grown, embedded⟩
          rw [ReadStep.run, embedded]
          exact .pure grown
      · exact .throw (by simp)
  | .group connective steps, draft, isMint =>
      (uncollided_runScript onSequence ofMint steps draft.branch isMint).bind fun _ _ _ _ => .pure _

theorem TableStep.uncollided_runScript (onSequence : mint.source = .sequence sequence)
    (ofMint : DrawFrom mint objects) : ∀ (steps : List TableStep) (draft : ReadDraft),
    draft.binder.mint = mint → (runScript (resolveAll objects steps) draft).Uncollided
  | [], draft, _ => .pure draft
  | step :: rest, draft, isMint => by
      apply (uncollided_run onSequence ofMint step draft isMint).bind
      intro changed before after ran
      apply uncollided_runScript onSequence ofMint rest changed
      rw [((step.resolve objects).grew_of_run ran).binder, isMint]
end

end ItemQuery
