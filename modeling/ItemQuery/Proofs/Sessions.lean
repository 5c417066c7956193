import ItemQuery.Proofs.Ledger
import ItemQuery.Proofs.Updates.Drawing

/-!
Sessions: runs in which updates and batches stand beside reads.

An act is a call or something that is done with updates, batches or requests. A session is a run of
acts on objects made so far, in any order. What an act draws comes from the mint of one of its
operands (`Act.issues_of_mint?`), and the mint of what it makes is that of an operand, or is on a
sequence that the act has opened, or draws at random (`Act.mint_of_run`).
-/

namespace ItemQuery

/-! ## Opening sequences -/

/-- Whether a mint, if it is on a sequence, is on one between two. -/
def Mint.OnNew (mint : Mint) (first last : Nat) : Prop :=
  ∀ sequence, mint.source = .sequence sequence → first ≤ sequence ∧ sequence < last

/-- Whether a computation does nothing to a supply but open sequences, and the mint of what it makes
is an old one or of the new sort, and then on a sequence that was opened if it is on any. -/
def Draw.Founds (old new : Mint → Prop) (mint? : α → Option Mint) (action : Draw α) : Prop :=
  ∀ before, ∃ opened, before.opened ≤ opened ∧
    action.supplyAfter before = { before with opened } ∧
    ∀ made after, action.run before = .ok made after → ∀ mint, mint? made = some mint →
      old mint ∨ new mint ∧ mint.OnNew before.opened opened

namespace Draw.Founds

variable {old new : Mint → Prop} {mint? : α → Option Mint} {other? : β → Option Mint}
  {action : Draw α}

theorem pure {value : α} (known : ∀ mint, mint? value = some mint → old mint) :
    Founds old new mint? (Pure.pure value) := by
  refine fun before => ⟨before.opened, Nat.le_refl _, rfl, ?_⟩
  intro made after ran mint owns
  cases ran
  exact .inl (known mint owns)

theorem pure_of_eq_none {value : α} (noMint : mint? value = none) :
    Founds old new mint? (Pure.pure value) := by
  apply pure
  intro mint owns
  rw [noMint] at owns
  cases owns

theorem throw (error : QueryError) : Founds old new mint? (throw error : Draw α) :=
  fun before => ⟨before.opened, Nat.le_refl _, rfl, nofun⟩

theorem bind_pure (founds : action.Founds old new mint?) {transform : α → β}
    (same : ∀ made, other? (transform made) = mint? made) :
    (action >>= fun made => Pure.pure (transform made)).Founds old new other? := by
  intro before
  rcases founds before with ⟨opened, further, supplied, origin⟩
  refine ⟨opened, further, by rw [supplyAfter_bind_pure, supplied], ?_⟩
  intro made after ran
  rcases run_bind_eq_ok.mp ran with ⟨source, middle, first, finished⟩
  cases finished
  rw [same]
  exact origin source after first

theorem map (founds : action.Founds old new mint?) {transform : α → β}
    (same : ∀ made, other? (transform made) = mint? made) :
    (transform <$> action).Founds old new other? := by
  rw [← bind_pure_comp]
  exact founds.bind_pure same

theorem mono {older newer : Mint → Prop} (founds : action.Founds older newer mint?)
    (known : ∀ mint, older mint → old mint) (weaken : ∀ mint, newer mint → new mint) :
    action.Founds old new mint? := by
  intro before
  rcases founds before with ⟨opened, further, supplied, origin⟩
  refine ⟨opened, further, supplied, fun made after ran mint owns => ?_⟩
  exact (origin made after ran mint owns).imp (known mint) (And.imp_left (weaken mint))

/-- Where two computations run one after the other, only what the second makes counts. -/
theorem bind (founds : action.Founds old new mint?) {next : α → Draw β}
    (later : ∀ made, (next made).Founds old new other?) :
    (action >>= next).Founds old new other? := by
  intro before
  rcases founds before with ⟨opened, further, supplied, _⟩
  rw [supplyAfter_bind]
  unfold supplyAfter at supplied
  cases ran : action.run before with
  | error error after =>
      rw [ran] at supplied
      refine ⟨opened, further, supplied, ?_⟩
      intro made last finished
      rw [EStateM.run_bind, ran] at finished
      cases finished
  | ok first middle =>
      rw [ran] at supplied
      subst supplied
      rcases later first { before with opened } with ⟨last, furtherOn, suppliedLast, origin⟩
      refine ⟨last, Nat.le_trans further furtherOn, suppliedLast, ?_⟩
      intro made after finished mint owns
      rw [EStateM.run_bind, ran] at finished
      refine (origin made after finished mint owns).imp_right fun ⟨isNew, onNew⟩ => ⟨isNew, ?_⟩
      intro sequence onSequence
      rcases onNew sequence onSequence with ⟨above, below⟩
      exact ⟨Nat.le_trans further above, below⟩

end Draw.Founds

theorem Mint.founds_ofConfig (config : Config) :
    (ofConfig config).Founds (fun _ => False) (fun mint => mint.stem = config.stem) some := by
  intro before
  unfold ofConfig
  cases config.strategy with
  | sequential =>
      refine ⟨before.opened + 1, Nat.le_succ _, rfl, ?_⟩
      intro made after ran mint owns
      cases ran
      cases owns
      refine .inr ⟨rfl, fun sequence onSequence => ?_⟩
      cases onSequence
      exact ⟨Nat.le_refl _, Nat.lt_succ_self _⟩
  | random =>
      refine ⟨before.opened, Nat.le_refl _, rfl, ?_⟩
      intro made after ran mint owns
      cases ran
      cases owns
      exact .inr ⟨rfl, nofun⟩

namespace Table

/-- Whether a computation makes a table with a mint of its own, whose stem is valid. -/
abbrev Founded (action : Draw Table) : Prop :=
  action.Founds (fun _ => False) Mint.Valid fun table => some table.mint

theorem founded_create (name : String) : Founded (create name) := by
  have founds := (Mint.founds_ofConfig .default).mono (fun _ impossible => impossible)
    fun mint sameStem => (⟨.default, sameStem.symm, rfl⟩ : mint.Valid)
  exact founds.bind_pure fun _ => rfl

theorem founded_withConfig (table : Table) (config : Config) :
    Founded (table.withConfig config) := by
  unfold withConfig
  cases valid : config.validate with
  | error error => exact .throw _
  | ok accepted =>
      have founds := (Mint.founds_ofConfig config).mono (fun _ impossible => impossible)
        fun mint sameStem => (⟨config, sameStem.symm, valid⟩ : mint.Valid)
      exact founds.bind_pure fun _ => rfl

theorem founded_ofEnvironment (name : String) (lookup : String → Option String) :
    Founded (ofEnvironment name lookup) := by
  unfold ofEnvironment
  cases Config.ofEnvironment lookup with
  | error error => exact .throw _
  | ok config => exact (founded_create name).bind fun table => table.founded_withConfig config

end Table

/-! ## Acts -/

/-- What can be asked for in a session, with the objects that it is asked of. -/
inductive Act
  | call (call : Call)
  /-- Hand out an object once more. -/
  | clone (object : Object)
  | tableOfEnvironment (name : String) (lookup : String → Option String)
  | startUpdate (tableName : String) (binder : Binder)
  | updateTable (table : Table)
  | change (draft : UpdateDraft) (step : UpdateStep)
  | startBatch (tableName : String)
  | batchTable (table : Table)
  | queue (draft : BatchDraft) (step : BatchStep)
  | compileRead (draft : ReadDraft) (overrides : Dictionary Json)
  | compileUpdate (draft : UpdateDraft) (overrides : Dictionary Json)
  | compileBatch (draft : BatchDraft) (overrides : Dictionary Json)

namespace Act

def operands : Act → List Object
  | .call asked => asked.operands
  | .clone object => [object]
  | .tableOfEnvironment _ _ | .startBatch _ => []
  | .startUpdate _ binder => [.binder binder]
  | .updateTable table | .batchTable table => [.table table]
  | .change draft _ | .compileUpdate draft _ => [.update draft]
  | .queue draft _ | .compileBatch draft _ => [.batch draft]
  | .compileRead draft _ => [.read draft]

def action : Act → Draw Object
  | .call asked => asked.action
  | .clone object => pure object
  | .tableOfEnvironment name lookup => .table <$> Table.ofEnvironment name lookup
  | .startUpdate tableName binder => pure (.update (.start tableName binder))
  | .updateTable table => pure (.update table.update)
  | .change draft step => .update <$> step.run draft
  | .startBatch tableName => pure (.batch (.start tableName))
  | .batchTable table => pure (.batch table.batch)
  | .queue draft step => .batch <$> Draw.ofMarshal (step.run draft)
  | .compileRead draft overrides => pure (.request (draft.compile overrides))
  | .compileUpdate draft overrides => pure (.request (draft.compile overrides))
  | .compileBatch draft overrides => pure (.request (draft.compile overrides))

/-- The placeholders that the act draws, with the values that they are drawn for. -/
def issues : Act → Supply → List Issue
  | .call asked, supply => asked.issues supply
  | .change draft step, supply => step.issues draft supply
  | _, _ => []

/-- The mint that the act draws from. -/
def mint? : Act → Option Mint
  | .call asked => asked.mint?
  | .change draft _ => some draft.binder.mint
  | _ => none

theorem exists_operand_of_mint? {act : Act} {mint : Mint} (source : act.mint? = some mint) :
    ∃ operand ∈ act.operands, operand.mint? = some mint := by
  cases act with
  | call asked => exact Call.exists_operand_of_mint? source
  | change draft step => exact ⟨.update draft, List.mem_singleton_self _, source⟩
  | _ => cases source

theorem issues_of_mint? {act : Act} {mint : Mint} (source : act.mint? = some mint)
    (before : Supply) :
    mint.Issues before (act.issues before) (act.action.supplyAfter before) := by
  cases act with
  | call asked => exact Call.issues_of_mint? source before
  | change draft step =>
      cases source
      rw [action, Draw.supplyAfter_map]
      exact step.issues_run draft before
  | _ => cases source

end Act

/-! ## Mints -/

/-- Whether a mint is that of one of some objects. -/
def Mint.OfSome (operands : List Object) (mint : Mint) : Prop :=
  ∃ operand ∈ operands, operand.mint? = some mint

/-- What the mints are like that a call may found: those of tables are valid. -/
def Call.MayFound (call : Call) (mint : Mint) : Prop :=
  match call with
  | .openMint config => mint.stem = config.stem
  | _ => mint.Valid

/-- A call that does not draw may found a mint. -/
theorem Call.founds_of_mint?_eq_none {call : Call} (noSource : call.mint? = none) :
    call.action.Founds (Mint.OfSome call.operands) call.MayFound Object.mint? := by
  cases call with
  | discard | predicate | named | specified | step => cases noSource
  | openMint config =>
      exact ((Mint.founds_ofConfig config).mono (fun _ => False.elim) fun _ same => same).map
        fun _ => rfl
  | makeTable name =>
      exact ((Table.founded_create name).mono (fun _ => False.elim) fun _ valid => valid).map
        fun _ => rfl
  | withConfig table config =>
      exact ((table.founded_withConfig config).mono (fun _ => False.elim) fun _ valid => valid).map
        fun _ => rfl
  | keyConditionOf draft =>
      rw [action]
      cases draft.target with
      | scan => exact .throw _
      | query keys forward => exact .pure_of_eq_none rfl
  | group draft connective child =>
      refine @Draw.Founds.pure _ _ _ _ (Object.read (draft.nest connective child.filter)) ?_
      intro mint owns
      have sameBinder : (draft.nest connective child.filter).binder = draft.binder := by
        unfold ReadDraft.nest
        split <;> rfl
      rw [Object.mint?, sameBinder] at owns
      exact ⟨.read draft, List.mem_cons_self, owns⟩
  | mintOf | makeBinder | binderOf | withIndex | scanTable | queryTable | start | branch =>
      exact .pure fun mint owns => ⟨_, List.mem_cons_self, owns⟩
  | _ => exact .pure_of_eq_none rfl

namespace Act

/-- What the mints are like that an act may found. -/
def MayFound (act : Act) (mint : Mint) : Prop :=
  match act with
  | .call asked => asked.MayFound mint
  | _ => mint.Valid

/-- An act that does not draw issues nothing, but may found a mint. -/
theorem founds_of_mint?_eq_none {act : Act} (noSource : act.mint? = none) :
    (∀ before, act.issues before = []) ∧
      act.action.Founds (Mint.OfSome act.operands) act.MayFound Object.mint? := by
  cases act with
  | call asked =>
      exact ⟨fun before => (Call.opens_of_mint?_eq_none noSource before).1,
        Call.founds_of_mint?_eq_none noSource⟩
  | change draft step => cases noSource
  | tableOfEnvironment name lookup =>
      exact ⟨fun _ => rfl, ((Table.founded_ofEnvironment name lookup).mono (fun _ => False.elim)
        fun _ valid => valid).map fun _ => rfl⟩
  | clone object =>
      exact ⟨fun _ => rfl, .pure fun mint owns => ⟨object, List.mem_singleton_self _, owns⟩⟩
  | startUpdate | updateTable =>
      exact ⟨fun _ => rfl, .pure fun mint owns => ⟨_, List.mem_singleton_self _, owns⟩⟩
  | queue draft step =>
      refine ⟨fun _ => rfl, ?_⟩
      rw [action]
      cases step.run draft with
      | error error => exact .throw _
      | ok changed => exact .pure_of_eq_none rfl
  | _ => exact ⟨fun _ => rfl, .pure_of_eq_none rfl⟩

/-- What a drawing act makes has the mint of an operand, if it has one. -/
theorem mint_of_run {act : Act} {source : Mint} (draws : act.mint? = some source)
    {before after : Supply} {object : Object} (ran : act.action.run before = .ok object after)
    {mint : Mint} (owns : object.mint? = some mint) : mint.OfSome act.operands := by
  cases act with
  | call asked =>
      cases asked with
      | discard drawn =>
          rcases Draw.run_map_eq_ok.mp ran with ⟨placeholder, _, rfl⟩
          exact ⟨.mint drawn, List.mem_cons_self, owns⟩
      | predicate | named | specified =>
          rcases Draw.run_map_eq_ok.mp ran with ⟨predicate, _, rfl⟩
          cases owns
      | step draft step =>
          rcases Draw.run_map_eq_ok.mp ran with ⟨grown, stepped, rfl⟩
          rw [Object.mint?, (step.grew_of_run stepped).binder] at owns
          exact ⟨.read draft, List.mem_cons_self, owns⟩
      | _ => cases draws
  | change draft step =>
      rcases Draw.run_map_eq_ok.mp ran with ⟨grown, stepped, rfl⟩
      rw [Object.mint?, (UpdateStep.grew_of_run stepped).binder] at owns
      exact ⟨.update draft, List.mem_singleton_self _, owns⟩
  | _ => cases draws

end Act

/-! ## Sessions -/

namespace Stage

/-- The stage after an act. If the act fails no object is made. -/
def afterAct (stage : Stage) (act : Act) : Stage where
  made :=
    match act.action.run stage.supply with
    | .ok object _ => stage.made ++ [object]
    | .error _ _ => stage.made
  issues := stage.issues ++ act.issues stage.supply
  supply := act.action.supplyAfter stage.supply

/-- The stages that permitted acts on objects that were made lead to. -/
inductive InSession (permitted : Act → Prop) : Stage → Prop
  | start (randomWord : Nat → String) : InSession permitted (.start randomWord)
  | act {stage : Stage} (earlier : InSession permitted stage) (act : Act)
      (isPermitted : permitted act) (known : ∀ operand ∈ act.operands, operand ∈ stage.made) :
      InSession permitted (stage.afterAct act)

/-- The stage after several acts. -/
def afterActs (stage : Stage) : List Act → Stage
  | [] => stage
  | act :: rest => (stage.afterAct act).afterActs rest

/-- Whether every act of a list finds its operands. -/
def Knows (stage : Stage) : List Act → Prop
  | [] => True
  | act :: rest =>
      (∀ operand ∈ act.operands, operand ∈ stage.made) ∧ (stage.afterAct act).Knows rest

instance decidableKnows : ∀ (acts : List Act) (stage : Stage), Decidable (stage.Knows acts)
  | [], _ => inferInstanceAs (Decidable True)
  | act :: rest, stage =>
      have := decidableKnows rest (stage.afterAct act)
      inferInstanceAs (Decidable (_ ∧ _))

theorem InSession.afterActs {permitted : Act → Prop} : ∀ (acts : List Act) {stage : Stage},
    stage.InSession permitted → (∀ act ∈ acts, permitted act) → stage.Knows acts →
      (stage.afterActs acts).InSession permitted
  | [], _, session, _, _ => session
  | first :: rest, _, session, arePermitted, known =>
      have ⟨isPermitted, others⟩ := List.forall_mem_cons.mp arePermitted
      afterActs rest (session.act first isPermitted known.1) others known.2

theorem made_subset_afterAct (stage : Stage) (act : Act) :
    stage.made ⊆ (stage.afterAct act).made := by
  unfold afterAct
  intro object member
  cases act.action.run stage.supply with
  | ok made after => exact List.mem_append_left _ member
  | error error after => exact member

/-- An object of a stage after an act was made before, or the act has made it. -/
theorem mem_made_afterAct {stage : Stage} {act : Act} {object : Object}
    (member : object ∈ (stage.afterAct act).made) :
    object ∈ stage.made ∨ act.action.run stage.supply = .ok object (stage.afterAct act).supply := by
  unfold afterAct Draw.supplyAfter at *
  cases ran : act.action.run stage.supply with
  | error error after => exact .inl (by simpa [ran] using member)
  | ok made after =>
      have isOldOrMade : object ∈ stage.made ∨ object = made := by simpa [ran] using member
      exact isOldOrMade.imp_right fun same => by rw [same]

end Stage

end ItemQuery
