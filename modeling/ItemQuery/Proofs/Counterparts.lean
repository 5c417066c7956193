import ItemQuery.Proofs.Counting
import ItemQuery.Proofs.TableScript.Strategies

/-!
Scans and queries side by side.

A scan and a query that have the same filter and the same options are counterparts if no key
condition and no direction is set. What is done to both of them, by the operations that both have,
succeeds for both or fails for both with the same error, and leaves counterparts
(`SharedStep.lockstep_run`). The requests that they compile to have the same body
(`ReadDraft.body_compile_asQuery`). So a script does the same on scans as on queries, each run
having mints of its own (`SharedAction.outcomesAlike_runAll`).
-/

namespace ItemQuery

/-! ## Two runs -/

/-- Whether two mints are on sequences that two runs have opened at the same turn. The runs began
when `first` and `other` sequences had been opened. -/
structure Mint.Abreast (first other : Nat) (mint twin : Mint) : Prop where
  stem : twin.stem = mint.stem
  source : ∃ turn, mint.source = .sequence (first + turn) ∧ twin.source = .sequence (other + turn)

/-- Whether two runs have opened equally many sequences and drawn equally often from each. -/
structure Supply.Abreast (first other : Nat) (before start : Supply) : Prop where
  opened : ∃ turns, before.opened = first + turns ∧ start.opened = other + turns
  issued : ∀ turn, start.issued (other + turn) = before.issued (first + turn)

/-- Whether two computations end alike in runs that are abreast. -/
abbrev Draw.Abreast (first other : Nat) (alike : α → β → Prop) : Draw α → Draw β → Prop :=
  Draw.Lockstep (Supply.Abreast first other) (fun _ => True) Draw.Never alike

variable {first other : Nat}

theorem Supply.Abreast.advance {before start : Supply} (abreast : before.Abreast first other start)
    (turn : Nat) :
    (before.advance (first + turn)).Abreast first other (start.advance (other + turn)) where
  opened := abreast.opened
  issued later := by simp [Supply.advance, abreast.issued]

theorem Draw.Abreast.bind {γ δ : Type} {alike : α → β → Prop} {nextAlike : γ → δ → Prop}
    {action : Draw α} {twin : Draw β} {next : α → Draw γ} {nextTwin : β → Draw δ}
    (abreast : Draw.Abreast first other alike action twin)
    (rest : ∀ value held, alike value held →
      Draw.Abreast first other nextAlike (next value) (nextTwin held)) :
    Draw.Abreast first other nextAlike (action >>= next) (twin >>= nextTwin) :=
  abreast.bind_never (fun _ _ _ _ _ => trivial) rest

theorem Mint.abreast_sequential (stem : String) :
    Draw.Abreast first other (Mint.Abreast first other) (sequential stem) (sequential stem) := by
  rintro before start ⟨⟨turns, opened, alsoOpened⟩, issued⟩ -
  have mints : Mint.Abreast first other ⟨stem, .sequence before.opened⟩
      ⟨stem, .sequence start.opened⟩ :=
    ⟨rfl, turns, congrArg Source.sequence opened, congrArg Source.sequence alsoOpened⟩
  have supplies : Supply.Abreast first other { before with opened := before.opened + 1 }
      { start with opened := start.opened + 1 } :=
    ⟨⟨turns + 1, congrArg (· + 1) opened, congrArg (· + 1) alsoOpened⟩, issued⟩
  exact .ok not_false mints supplies

namespace Mint.Abreast

variable {mint twin : Mint} (mints : mint.Abreast first other twin)
include mints

theorem sharesSequence {second secondTwin : Mint}
    (others : second.Abreast first other secondTwin) :
    twin.sharesSequence secondTwin = mint.sharesSequence second := by
  rcases mints.source with ⟨turn, onFirst, onOther⟩
  rcases others.source with ⟨secondTurn, secondOnFirst, secondOnOther⟩
  rw [Bool.eq_iff_iff]
  simp [Mint.sharesSequence, onFirst, onOther, secondOnFirst, secondOnOther, mints.stem,
    others.stem]

theorem mayCollide {second secondTwin : Mint} (others : second.Abreast first other secondTwin) :
    twin.mayCollide secondTwin = mint.mayCollide second := by
  have shares := mints.sharesSequence others
  rcases mints.source with ⟨turn, onFirst, onOther⟩
  rcases others.source with ⟨secondTurn, secondOnFirst, secondOnOther⟩
  simp [Mint.mayCollide, onFirst, onOther, secondOnFirst, secondOnOther, mints.stem, others.stem,
    shares]

theorem next : Draw.Abreast first other Eq mint.next twin.next := by
  rintro before start supplies -
  rcases mints.source with ⟨turn, onFirst, onOther⟩
  rw [run_next_of_sequence onFirst, run_next_of_sequence onOther, supplies.issued]
  have sameName : mint.numbered (before.issued (first + turn) + 1) =
      twin.numbered (before.issued (first + turn) + 1) := by
    rw [numbered, numbered, mints.stem]
  exact .ok not_false sameName (supplies.advance turn)

theorem bindAll (values : List AttributeValue) :
    Draw.Abreast first other Eq (mint.bindAll values) (twin.bindAll values) := by
  induction values with
  | nil => exact .pure rfl
  | cons value rest induction =>
      apply mints.next.bind
      rintro placeholder _ rfl
      apply induction.bind
      rintro bound _ rfl
      exact .pure rfl

/-- Mints that are abreast create the same predicates. -/
theorem create (kind : PredicateKind) (key : String) (operand : Operand)
    (connective : Connective) :
    Draw.Abreast first other Eq (Predicate.create mint kind key operand connective)
      (Predicate.create twin kind key operand connective) := by
  unfold Predicate.create
  split
  · exact .throw _
  · apply (mints.bindAll operand.values).bind
    rintro bound _ rfl
    exact .pure rfl

end Mint.Abreast

/-! ## Drafts -/

namespace ReadDraft

/-- The query that has everything that a scan has, and draws from some mint. -/
def asQuery (mint : Mint) (scan : ReadDraft) : ReadDraft :=
  { scan with target := .query .empty none, binder := ⟨mint, scan.binder.marshaler⟩ }

/-- Whether a scan and a query are the same but for the operation and the sequence. -/
structure Counterparts (first other : Nat) (scan query : ReadDraft) : Prop where
  isScan : scan.target = .scan
  mints : scan.binder.mint.Abreast first other query.binder.mint
  same : query = scan.asQuery query.binder.mint

theorem counterparts_start {mint twin : Mint} (mints : mint.Abreast first other twin)
    (tableName : String) (marshaler : Marshaler) :
    (start .scan tableName ⟨mint, marshaler⟩).Counterparts first other
      (start (.query .empty none) tableName ⟨twin, marshaler⟩) :=
  ⟨rfl, mints, rfl⟩

theorem boundValues_asQuery {scan : ReadDraft} (isScan : scan.target = .scan) (mint : Mint) :
    (scan.asQuery mint).boundValues = scan.boundValues := by
  simp only [boundValues, asQuery, isScan]
  rfl

/-- A scan and the query that has everything that it has compile to the same body. -/
theorem body_compile_asQuery {scan : ReadDraft} (isScan : scan.target = .scan) (mint : Mint)
    (overrides : Dictionary Json) :
    ((scan.asQuery mint).compile overrides).body = (scan.compile overrides).body := by
  have sameFields : (scan.asQuery mint).toInput.fields = scan.toInput.fields := by
    have noKeys : toInput scan = .scan scan.toScanInput := by rw [toInput, isScan]
    have bound : (scan.asQuery mint).boundValues = scan.filter.bindings := by
      rw [boundValues_asQuery isScan, boundValues, isScan]
      rfl
    rw [noKeys]
    change ((scan.asQuery mint).toQueryInput .empty none).fields = scan.toScanInput.fields
    -- What a query alone could say is not said, and fields that are absent are not written.
    rw [toQueryInput, bound]
    rfl
  exact congrArg (Dictionary.extend · overrides) sameFields

namespace Counterparts

variable {scan query : ReadDraft} (counterparts : scan.Counterparts first other query)
include counterparts

/-- What is done to everything that a scan shares with its query is done to both. -/
theorem of_change (change : ReadDraft → ReadDraft) (isScan : (change scan).target = .scan)
    (binder : ∀ draft, (change draft).binder = draft.binder)
    (shared : ∀ mint, change (scan.asQuery mint) = (change scan).asQuery mint) :
    (change scan).Counterparts first other (change query) := by
  refine ⟨isScan, ?_, ?_⟩
  · rw [binder, binder]
    exact counterparts.mints
  · rw [binder, ← shared, ← counterparts.same]

theorem filter : query.filter = scan.filter := by
  rw [counterparts.same]
  rfl

theorem boundValues : query.boundValues = scan.boundValues := by
  rw [counterparts.same, boundValues_asQuery counterparts.isScan]

theorem push (entry : Entry) : (scan.push entry).Counterparts first other (query.push entry) :=
  counterparts.of_change (·.push entry) counterparts.isScan (fun _ => rfl) fun _ => rfl

theorem nest (connective : Connective) (condition : Condition) :
    (scan.nest connective condition).Counterparts first other
      (query.nest connective condition) := by
  unfold ReadDraft.nest
  split
  · exact counterparts
  · exact counterparts.of_change
      (fun draft => { draft with filter := draft.filter.add connective condition.toEntry })
      counterparts.isScan (fun _ => rfl) fun _ => rfl

theorem branch : scan.branch.Counterparts first other query.branch := by
  refine counterparts.of_change ReadDraft.branch ?_ (fun _ => rfl) fun _ => rfl
  exact congrArg ReadTarget.blank counterparts.isScan

theorem collision? {taken twin : ReadDraft} (operands : taken.Counterparts first other twin) :
    query.collision? twin = scan.collision? taken := by
  unfold ReadDraft.collision?
  rw [counterparts.mints.sharesSequence operands.mints,
    counterparts.mints.mayCollide operands.mints, operands.filter, counterparts.boundValues]

theorem body_compile (overrides : Dictionary Json) :
    (query.compile overrides).body = (scan.compile overrides).body := by
  rw [counterparts.same, body_compile_asQuery counterparts.isScan]

end Counterparts

end ReadDraft

/-! ## Steps -/

namespace ReadDraft.Counterparts

variable {scan query : ReadDraft} (counterparts : scan.Counterparts first other query)
include counterparts

theorem lockstep_restrict (connective : Connective) (kind : PredicateKind) (key : String)
    (operand : Operand) :
    Draw.Abreast first other (Counterparts first other)
      (scan.restrict connective kind key operand) (query.restrict connective kind key operand) := by
  unfold ReadDraft.restrict
  apply (counterparts.mints.create kind key operand connective).bind
  rintro predicate _ rfl
  exact .pure (counterparts.push (.predicate predicate))

theorem lockstep_call (verbName key : String) (operand : Operand) :
    Draw.Abreast first other (Counterparts first other) (scan.call verbName key operand)
      (query.call verbName key operand) := by
  unfold ReadDraft.call
  cases Verb.ofName verbName with
  | error error => exact .throw error
  | ok verb => exact counterparts.lockstep_restrict verb.connective verb.kind key operand

theorem lockstep_apply (specification : Specification) :
    Draw.Abreast first other (Counterparts first other) (scan.apply specification)
      (query.apply specification) := by
  unfold ReadDraft.apply Binder.specified Binder.named
  cases PredicateKind.ofName? specification.kindName.toList with
  | none => exact .throw _
  | some kind => exact counterparts.lockstep_restrict _ kind _ _

omit counterparts in
theorem lockstep_applyAll : ∀ (specifications : List Specification) {scan query : ReadDraft},
    scan.Counterparts first other query →
      Draw.Abreast first other (Counterparts first other) (scan.applyAll specifications)
        (query.applyAll specifications)
  | [], _, _, counterparts => .pure counterparts
  | specification :: rest, _, _, counterparts => by
      unfold ReadDraft.applyAll
      apply (counterparts.lockstep_apply specification).bind
      exact fun _ _ grown => lockstep_applyAll rest grown

/-- Where one of two counterparts takes in a filter, so does the other, and where there is a
collision it is for both the same. -/
theorem lockstep_embed {taken twin : ReadDraft} (operands : taken.Counterparts first other twin)
    (connective : Connective) :
    Draw.Abreast first other (Counterparts first other)
      (.ofExcept (scan.embed taken connective)) (.ofExcept (query.embed twin connective)) := by
  unfold ReadDraft.embed
  rw [counterparts.collision? operands, operands.filter]
  split
  · exact .pure counterparts
  · split
    · exact .throw _
    · exact .pure (counterparts.push _)

end ReadDraft.Counterparts

/-- Whether a step stands alone and is one that scans have as well as queries. -/
def ReadStep.isShared : ReadStep → Bool
  | .keyCondition .. | .descending => false
  | step => step.standsAlone

theorem ReadStep.lockstep_of_isShared {step : ReadStep} (isShared : step.isShared = true)
    {scan query : ReadDraft} (counterparts : scan.Counterparts first other query) :
    Draw.Abreast first other (ReadDraft.Counterparts first other) (step.run scan)
      (step.run query) := by
  cases step with
  | embed | nest | group | keyCondition | descending => cases isShared
  | restrict connective kind key operand =>
      exact counterparts.lockstep_restrict connective kind key operand
  | call verbName key operand => exact counterparts.lockstep_call verbName key operand
  | apply specification => exact counterparts.lockstep_apply specification
  | applyAll specifications => exact counterparts.lockstep_applyAll specifications
  | fail error => exact .throw error
  | attributeNames names =>
      exact .pure (counterparts.of_change ({ · with attributeNames := names })
        counterparts.isScan (fun _ => rfl) fun _ => rfl)
  | index name =>
      exact .pure (counterparts.of_change ({ · with indexName := some name })
        counterparts.isScan (fun _ => rfl) fun _ => rfl)
  | projection expression =>
      exact .pure (counterparts.of_change ({ · with projection := some expression })
        counterparts.isScan (fun _ => rfl) fun _ => rfl)
  | limit limit =>
      exact .pure (counterparts.of_change ({ · with limit := some limit })
        counterparts.isScan (fun _ => rfl) fun _ => rfl)
  | select select =>
      exact .pure (counterparts.of_change ({ · with select := some select })
        counterparts.isScan (fun _ => rfl) fun _ => rfl)
  | consistentRead consistent =>
      exact .pure (counterparts.of_change ({ · with consistentRead := some consistent })
        counterparts.isScan (fun _ => rfl) fun _ => rfl)
  | startKey key =>
      exact .pure (counterparts.of_change ({ · with startKey := key })
        counterparts.isScan (fun _ => rfl) fun _ => rfl)

/-! ## Objects -/

/-- Whether an object of a run on scans and one of a run on queries are counterparts. Mints are
abreast, conditions are the same, and requests have the same body. -/
inductive Object.Counterparts (first other : Nat) : Object → Object → Prop
  | mint {mint twin : Mint} (mints : mint.Abreast first other twin) :
      Counterparts first other (.mint mint) (.mint twin)
  | condition (condition : Condition) :
      Counterparts first other (.condition condition) (.condition condition)
  | read {scan query : ReadDraft} (drafts : scan.Counterparts first other query) :
      Counterparts first other (.read scan) (.read query)
  | request {request twin : Request} (isScan : request.operation = .scan)
      (isQuery : twin.operation = .query) (sameBody : twin.body = request.body) :
      Counterparts first other (.request request) (.request twin)

/-- What counterparts compile to are counterparts. -/
theorem ReadDraft.Counterparts.request {scan query : ReadDraft}
    (counterparts : scan.Counterparts first other query) (overrides : Dictionary Json) :
    (Object.request (scan.compile overrides)).Counterparts first other
      (.request (query.compile overrides)) := by
  refine .request ?_ ?_ (counterparts.body_compile overrides)
  · rw [compile, toInput, counterparts.isScan]
    rfl
  · rw [counterparts.same]
    rfl

/-- Whether the objects under each name are counterparts. -/
def ObjectsCounterparts (first other : Nat) (objects others : Dictionary Object) : Prop :=
  ∀ name, Option.Rel (Object.Counterparts first other) (objects.get? name) (others.get? name)

theorem ObjectsCounterparts.insert {objects others : Dictionary Object}
    (counterparts : ObjectsCounterparts first other objects others) (name : String)
    {object twin : Object} (same : object.Counterparts first other twin) :
    ObjectsCounterparts first other (objects.insert name object) (others.insert name twin) := by
  intro wanted
  rw [Dictionary.get?_insert, Dictionary.get?_insert]
  split
  · exact .some same
  · exact counterparts wanted

namespace Object

def asMint? : Object → Option Mint
  | .mint held => some held
  | _ => none

def asCondition? : Object → Option Condition
  | .condition held => some held
  | _ => none

def asRead? : Object → Option ReadDraft
  | .read draft => some draft
  | _ => none

/-- What is kept under a name, seen as something that it has to be. -/
def fetch (view? : Object → Option α) (objects : Dictionary Object) (name : String) : Draw α :=
  match (objects.get? name).bind view? with
  | some held => pure held
  | none => throw .malformed

theorem Counterparts.asMint? {object twin : Object}
    (counterparts : object.Counterparts first other twin) :
    Option.Rel (Mint.Abreast first other) object.asMint? twin.asMint? := by
  cases counterparts with
  | mint mints => exact .some mints
  | _ => exact .none

theorem Counterparts.asCondition? {object twin : Object}
    (counterparts : object.Counterparts first other twin) :
    Option.Rel Eq object.asCondition? twin.asCondition? := by
  cases counterparts with
  | condition condition => exact .some rfl
  | _ => exact .none

theorem Counterparts.asRead? {object twin : Object}
    (counterparts : object.Counterparts first other twin) :
    Option.Rel (ReadDraft.Counterparts first other) object.asRead? twin.asRead? := by
  cases counterparts with
  | read drafts => exact .some drafts
  | _ => exact .none

end Object

namespace ObjectsCounterparts

variable {objects others : Dictionary Object}
  (counterparts : ObjectsCounterparts first other objects others)
include counterparts

theorem bind {view? : Object → Option α} {alike : α → α → Prop}
    (views : ∀ object twin, object.Counterparts first other twin →
      Option.Rel alike (view? object) (view? twin)) (name : String) :
    Option.Rel alike ((objects.get? name).bind view?) ((others.get? name).bind view?) := by
  have same := counterparts name
  generalize objects.get? name = object? at same ⊢
  generalize others.get? name = twin? at same ⊢
  cases same with
  | none => exact .none
  | some same => exact views _ _ same

theorem lockstep_fetch {view? : Object → Option α} {alike : α → α → Prop}
    (views : ∀ object twin, object.Counterparts first other twin →
      Option.Rel alike (view? object) (view? twin)) (name : String) :
    Draw.Abreast first other alike (Object.fetch view? objects name)
      (Object.fetch view? others name) := by
  have same := counterparts.bind views name
  unfold Object.fetch
  generalize (objects.get? name).bind view? = held? at same ⊢
  generalize (others.get? name).bind view? = twin? at same ⊢
  cases same with
  | none => exact .throw .malformed
  | some same => exact .pure same

theorem fetch_mint (name : String) :
    Draw.Abreast first other (Mint.Abreast first other) (Object.fetch Object.asMint? objects name)
      (Object.fetch Object.asMint? others name) :=
  counterparts.lockstep_fetch (fun _ _ same => same.asMint?) name

theorem fetch_condition (name : String) :
    Draw.Abreast first other Eq (Object.fetch Object.asCondition? objects name)
      (Object.fetch Object.asCondition? others name) :=
  counterparts.lockstep_fetch (fun _ _ same => same.asCondition?) name

theorem fetch_read (name : String) :
    Draw.Abreast first other (ReadDraft.Counterparts first other)
      (Object.fetch Object.asRead? objects name) (Object.fetch Object.asRead? others name) :=
  counterparts.lockstep_fetch (fun _ _ same => same.asRead?) name

end ObjectsCounterparts

/-! ## Steps with names -/

/-- A step that scans and queries have, with the names of the drafts and conditions that it takes
in. -/
inductive SharedStep
  | alone (step : ReadStep) (isShared : step.isShared = true)
  | embed (taken : String) (connective : Connective)
  | nest (condition : String) (connective : Connective)
  | group (connective : Connective) (steps : List SharedStep)

namespace SharedStep

mutual
/-- The step with what is kept under the names. -/
def resolve (objects : Dictionary Object) : SharedStep → ReadStep
  | .alone step _ => step
  | .embed taken connective =>
      match (objects.get? taken).bind Object.asRead? with
      | some draft => .embed draft connective
      | none => .fail .malformed
  | .nest condition connective =>
      match (objects.get? condition).bind Object.asCondition? with
      | some held => .nest held connective
      | none => .fail .malformed
  | .group connective steps => .group connective (resolveAll objects steps)

def resolveAll (objects : Dictionary Object) : List SharedStep → List ReadStep
  | [] => []
  | step :: rest => step.resolve objects :: resolveAll objects rest
end

variable {objects others : Dictionary Object}

mutual
/-- A step does the same to counterparts, if the objects are counterparts too. -/
theorem lockstep_run (objectsSame : ObjectsCounterparts first other objects others) :
    ∀ (step : SharedStep) {scan query : ReadDraft}, scan.Counterparts first other query →
      Draw.Abreast first other (ReadDraft.Counterparts first other)
        ((step.resolve objects).run scan) ((step.resolve others).run query)
  | .alone step isShared, _, _, counterparts => step.lockstep_of_isShared isShared counterparts
  | .embed taken connective, _, _, counterparts => by
      have same := objectsSame.bind (fun _ _ same => same.asRead?) taken
      unfold resolve
      generalize (objects.get? taken).bind Object.asRead? = taken? at same ⊢
      generalize (others.get? taken).bind Object.asRead? = twin? at same ⊢
      cases same with
      | none => exact .throw .malformed
      | some operands => exact counterparts.lockstep_embed operands connective
  | .nest condition connective, _, _, counterparts => by
      have same := objectsSame.bind (fun _ _ same => same.asCondition?) condition
      unfold resolve
      generalize (objects.get? condition).bind Object.asCondition? = held? at same ⊢
      generalize (others.get? condition).bind Object.asCondition? = twin? at same ⊢
      cases same with
      | none => exact .throw .malformed
      | some same =>
          subst same
          exact .pure (counterparts.nest connective _)
  | .group connective steps, _, _, counterparts => by
      apply (lockstep_runScript objectsSame steps counterparts.branch).bind
      intro child twin children
      -- Only the filters of the two children are taken in, and these are the same.
      rw [children.filter]
      exact .pure (counterparts.nest connective child.filter)

theorem lockstep_runScript (objectsSame : ObjectsCounterparts first other objects others) :
    ∀ (steps : List SharedStep) {scan query : ReadDraft}, scan.Counterparts first other query →
      Draw.Abreast first other (ReadDraft.Counterparts first other)
        (runScript (resolveAll objects steps) scan) (runScript (resolveAll others steps) query)
  | [], _, _, counterparts => .pure counterparts
  | step :: rest, _, _, counterparts => by
      apply (lockstep_run objectsSame step counterparts).bind
      exact fun _ _ changed => lockstep_runScript objectsSame rest changed
end

end SharedStep

/-! ## Actions with names -/

/-- What can be done in a run on scans as well as in a run on queries, with the names of the objects
that it is done to. -/
inductive SharedAction
  /-- A mint on a new sequence. -/
  | openMint (stem : String)
  | start (tableName mint : String) (marshaler : Marshaler)
  | branch (source : String)
  | step (source : String) (taken : SharedStep)
  /-- A group whose function hands over a draft that was made before. -/
  | group (source : String) (connective : Connective) (child : String)
  | condition (held : Condition)
  | filterOf (source : String)
  /-- A condition with one more predicate, which the binder of a draft makes. -/
  | test (growing source : String) (kind : PredicateKind) (key : String) (operand : Operand)
      (connective : Connective)
  | add (outer : String) (connective : Connective) (inner : String)
  | compile (source : String) (overrides : Dictionary Json)

namespace SharedAction

/-- What an action makes in a run whose drafts are all of one operation. -/
def run (target : ReadTarget) (objects : Dictionary Object) : SharedAction → Draw Object
  | .openMint stem => .mint <$> Mint.sequential stem
  | .start tableName mint marshaler => do
      let mint ← Object.fetch Object.asMint? objects mint
      return .read (.start target tableName ⟨mint, marshaler⟩)
  | .branch source => do
      let draft ← Object.fetch Object.asRead? objects source
      return .read draft.branch
  | .step source taken => do
      let draft ← Object.fetch Object.asRead? objects source
      .read <$> (taken.resolve objects).run draft
  | .group source connective child => do
      let draft ← Object.fetch Object.asRead? objects source
      let child ← Object.fetch Object.asRead? objects child
      .read <$> draft.group connective fun _ => pure child
  | .condition held => pure (.condition held)
  | .filterOf source => do
      let draft ← Object.fetch Object.asRead? objects source
      return .condition draft.filter
  | .test growing source kind key operand connective => do
      let held ← Object.fetch Object.asCondition? objects growing
      let draft ← Object.fetch Object.asRead? objects source
      let predicate ← draft.binder.predicate kind key operand connective
      return .condition (held.push (.predicate predicate))
  | .add outer connective inner => do
      let outer ← Object.fetch Object.asCondition? objects outer
      let inner ← Object.fetch Object.asCondition? objects inner
      return .condition (outer.add connective inner.toEntry)
  | .compile source overrides => do
      let draft ← Object.fetch Object.asRead? objects source
      return .request (draft.compile overrides)

/-- What comes of actions one after the other, each of whose results is kept under a name. -/
def runAll (target : ReadTarget) :
    List (String × SharedAction) → Workspace → List (Except QueryError Object) × Workspace
  | [], workspace => ([], workspace)
  | (name, action) :: rest, workspace =>
      let performed := workspace.perform name (action.run target workspace.objects)
      let later := runAll target rest performed.2
      (performed.1 :: later.1, later.2)

variable {objects others : Dictionary Object}

theorem lockstep_run (objectsSame : ObjectsCounterparts first other objects others)
    (action : SharedAction) :
    Draw.Abreast first other (Object.Counterparts first other) (action.run .scan objects)
      (action.run (.query .empty none) others) := by
  cases action with
  | openMint stem => exact (Mint.abreast_sequential stem).map fun _ _ mints => .mint mints
  | start tableName mint marshaler =>
      apply (objectsSame.fetch_mint mint).bind
      exact fun _ _ mints => .pure (.read (ReadDraft.counterparts_start mints tableName marshaler))
  | branch source =>
      apply (objectsSame.fetch_read source).bind
      exact fun _ _ drafts => .pure (.read drafts.branch)
  | step source taken =>
      apply (objectsSame.fetch_read source).bind
      intro scan query drafts
      exact (taken.lockstep_run objectsSame drafts).map fun _ _ changed => .read changed
  | group source connective child =>
      apply (objectsSame.fetch_read source).bind
      intro scan query drafts
      apply (objectsSame.fetch_read child).bind
      intro taken twin children
      have filters := children.filter
      simp only [ReadDraft.group, pure_bind, map_pure, filters]
      exact .pure (.read (drafts.nest connective taken.filter))
  | condition held => exact .pure (.condition held)
  | filterOf source =>
      apply (objectsSame.fetch_read source).bind
      intro scan query drafts
      rw [drafts.filter]
      exact .pure (.condition scan.filter)
  | test growing source kind key operand connective =>
      apply (objectsSame.fetch_condition growing).bind
      rintro held _ rfl
      apply (objectsSame.fetch_read source).bind
      intro scan query drafts
      apply (drafts.mints.create kind key operand connective).bind
      rintro predicate _ rfl
      exact .pure (.condition _)
  | add outer connective inner =>
      apply (objectsSame.fetch_condition outer).bind
      rintro held _ rfl
      apply (objectsSame.fetch_condition inner).bind
      rintro added _ rfl
      exact .pure (.condition _)
  | compile source overrides =>
      apply (objectsSame.fetch_read source).bind
      intro scan query drafts
      exact .pure (drafts.request overrides)

end SharedAction

/-! ## Scripts -/

/-- Whether two actions made counterparts or failed with the same error. -/
inductive OutcomesAlike (first other : Nat) :
    Except QueryError Object → Except QueryError Object → Prop
  | ok {object twin : Object} (objects : object.Counterparts first other twin) :
      OutcomesAlike first other (.ok object) (.ok twin)
  | error (error : QueryError) : OutcomesAlike first other (.error error) (.error error)

/-- Whether two workspaces are those of runs that have come equally far. -/
structure Workspace.Abreast (first other : Nat) (scans queries : Workspace) : Prop where
  objects : ObjectsCounterparts first other scans.objects queries.objects
  supplies : scans.supply.Abreast first other queries.supply

/-- An action does the same in two workspaces, and they stay abreast. -/
theorem Workspace.Abreast.perform {scans queries : Workspace}
    (abreast : scans.Abreast first other queries) (name : String) (action : SharedAction) :
    OutcomesAlike first other
        (scans.perform name (action.run .scan scans.objects)).1
        (queries.perform name (action.run (.query .empty none) queries.objects)).1 ∧
      (scans.perform name (action.run .scan scans.objects)).2.Abreast first other
        (queries.perform name (action.run (.query .empty none) queries.objects)).2 := by
  have ends := action.lockstep_run abreast.objects scans.supply queries.supply abreast.supplies
    trivial
  cases ran : (action.run .scan scans.objects).run scans.supply <;>
    cases alsoRan : (action.run (.query .empty none) queries.objects).run queries.supply <;>
    rw [ran, alsoRan] at ends <;> cases ends
  case ok.ok.ok together same supplies =>
    rw [perform_of_ok ran, perform_of_ok alsoRan]
    exact ⟨.ok same, abreast.objects.insert name same, supplies⟩
  case error.error.error together supplies =>
    rw [perform_of_error ran, perform_of_error alsoRan]
    exact ⟨.error _, abreast.objects, supplies⟩
  case ok.error.collision apart => exact absurd apart not_false
  case error.error.collision apart => exact absurd apart not_false

theorem SharedAction.outcomesAlike_of_abreast : ∀ (script : List (String × SharedAction))
    {scans queries : Workspace}, scans.Abreast first other queries →
      List.Forall₂ (OutcomesAlike first other) (runAll .scan script scans).1
        (runAll (.query .empty none) script queries).1
  | [], _, _, _ => .nil
  | (name, action) :: rest, _, _, abreast =>
      have ⟨same, kept⟩ := abreast.perform name action
      .cons same (outcomesAlike_of_abreast rest kept)

/-- Whether nothing was drawn from sequences that have not been opened. -/
def Supply.Blank (supply : Supply) : Prop :=
  ∀ sequence, supply.opened ≤ sequence → supply.issued sequence = 0

theorem Stage.InSession.blank {permitted : Act → Prop} {stage : Stage}
    (session : stage.InSession permitted) : stage.supply.Blank :=
  session.numbered.blank

/-- A script of operations that scans and queries both have is run once on scans and once on
queries, with mints of its own. Each action succeeds in both runs or fails in both with the same
error, what it makes are counterparts, and the requests that it compiles have the same body. -/
theorem SharedAction.outcomesAlike_runAll (script : List (String × SharedAction))
    {supply otherSupply : Supply} (blank : supply.Blank) (otherBlank : otherSupply.Blank) :
    List.Forall₂ (OutcomesAlike supply.opened otherSupply.opened)
      (runAll .scan script ⟨.empty, supply⟩).1
      (runAll (.query .empty none) script ⟨.empty, otherSupply⟩).1 := by
  apply outcomesAlike_of_abreast
  refine ⟨fun name => .none, ⟨0, rfl, rfl⟩, fun turn => ?_⟩
  rw [otherBlank _ (Nat.le_add_right _ _), blank _ (Nat.le_add_right _ _)]

/-! ## A script with failures -/

/-- The third action fails after a draw, and the eighth takes in a filter from a mint whose stem
begins with that of the other. -/
def sharedScript : List (String × SharedAction) :=
  [("mint", .openMint "p"), ("games", .start "games" "mint" ⟨false⟩),
    ("lost", .step "games" (.group .or
      [.alone (.restrict .and .eq "lost" (.scalar (.bool true))) rfl,
        .alone (.call "andMatches" "name" (.scalar (.string "chess"))) rfl])),
    ("rated", .step "games" (.alone (.restrict .and .eq "rated" (.scalar (.bool true))) rfl)),
    ("otherMint", .openMint "p1"), ("other", .start "games" "otherMint" ⟨false⟩),
    ("named", .step "other"
      (.alone (.call "or_begins_with" "name" (.scalar (.string "chess"))) rfl)),
    ("taking", .step "rated" (.embed "named" .and)),
    ("first", .step "rated" (.alone (.limit 5) rfl)),
    ("request", .compile "first" (.ofList [("Select", .string "COUNT")]))]

/-- A session in which another mint has drawn before. -/
def drawnStage : Stage :=
  (Stage.start fun _ => "").afterActs
    [.call (.openMint .default), .call (.discard ⟨"p", .sequence 0⟩)]

theorem SharedAction.outcomesAlike_runAll_of_sharedScript :
    (Supply.initial fun _ => "").Blank ∧ drawnStage.supply.Blank ∧
      List.Forall₂ (OutcomesAlike 0 drawnStage.supply.opened)
        (runAll .scan sharedScript ⟨.empty, .initial fun _ => ""⟩).1
        (runAll (.query .empty none) sharedScript ⟨.empty, drawnStage.supply⟩).1 ∧
      (runAll .scan sharedScript ⟨.empty, .initial fun _ => ""⟩).1[2]? =
        some (.error (.unsupported "andMatches")) ∧
      (runAll .scan sharedScript ⟨.empty, .initial fun _ => ""⟩).1[7]? =
        some (.error (.collision ":p11")) ∧
      ∃ request, (runAll .scan sharedScript ⟨.empty, .initial fun _ => ""⟩).1[9]? =
          some (.ok (.request request)) ∧
        request.filterExpression? = some "(rated = :p2)" := by
  have session : drawnStage.InSession fun _ => True :=
    Stage.InSession.afterActs _ (.start _) (fun _ _ => trivial) (by decide)
  have blank : (Supply.initial fun _ => "").Blank := fun _ _ => rfl
  exact ⟨blank, session.blank,
    SharedAction.outcomesAlike_runAll sharedScript blank session.blank,
    by decide, by decide, _, rfl, by decide⟩

end ItemQuery
