import ItemQuery.Proofs.References.Compiled
import ItemQuery.Proofs.Sessions

/-!
The drafts of a session.

What is known of drafts that calls and steps lead to holds in sessions as well: reads are accounted
for by the log (`Stage.InSession.accounted`), predicates are of every sort that the mints of the
session make (`Stage.InSession.all_made`), and updates are those that steps lead to
(`Stage.InSession.update_reached`). So drafts of a session have values for the tokens that they show
(`Stage.InSession.valueNames_read`, `Stage.InSession.valueNames_update`).
-/

namespace ItemQuery

/-! ## What acts make -/

/-- No call makes an update. -/
theorem Call.ne_update_of_run {call : Call} {before after : Supply} {object : Object}
    (ran : call.action.run before = .ok object after) (draft : UpdateDraft) :
    object ≠ .update draft := by
  rintro rfl
  cases call with
  | openMint | discard | predicate | named | specified | makeTable | withConfig | step | group =>
      rcases Draw.run_map_eq_ok.mp ran with ⟨_, _, same⟩
      cases same
  | keyConditionOf read =>
      rw [action] at ran
      cases target : read.target with
      | scan => simp [target] at ran
      | query keys forward =>
          rw [target] at ran
          cases ran
  | _ => cases ran

namespace Act

/-- Acts that are no calls hand out entries that were there before, or none. -/
theorem entries_of_run {act : Act} {before after : Supply} {object : Object}
    (ran : act.action.run before = .ok object after) :
    (∃ asked, act = .call asked ∧ asked.action.run before = .ok object after) ∨
      object ∈ act.operands ∨ object.entries = [] := by
  cases act with
  | call asked => exact .inl ⟨asked, rfl, ran⟩
  | clone held =>
      cases ran
      exact .inr (.inl (List.mem_singleton_self _))
  | tableOfEnvironment | change | queue =>
      rcases Draw.run_map_eq_ok.mp ran with ⟨_, _, rfl⟩
      exact .inr (.inr rfl)
  | _ =>
      cases ran
      exact .inr (.inr rfl)

/-- An update is handed out once more, begun, or changed by a step. -/
theorem update_of_run {act : Act} {before after : Supply} {draft : UpdateDraft}
    (ran : act.action.run before = .ok (.update draft) after) :
    .update draft ∈ act.operands ∨ (∃ tableName binder, draft = .start tableName binder) ∨
      ∃ earlier step, .update earlier ∈ act.operands ∧
        (UpdateStep.run step earlier).run before = .ok draft after := by
  cases act with
  | call asked => exact absurd rfl (Call.ne_update_of_run ran draft)
  | clone held =>
      cases ran
      exact .inl (List.mem_singleton_self _)
  | startUpdate tableName binder =>
      cases ran
      exact .inr (.inl ⟨tableName, binder, rfl⟩)
  | updateTable table =>
      cases ran
      exact .inr (.inl ⟨table.name, table.binder, rfl⟩)
  | change earlier step =>
      rcases Draw.run_map_eq_ok.mp ran with ⟨grown, stepped, same⟩
      cases same
      exact .inr (.inr ⟨earlier, step, List.mem_singleton_self _, stepped⟩)
  | tableOfEnvironment | queue =>
      rcases Draw.run_map_eq_ok.mp ran with ⟨_, _, same⟩
      cases same
  | _ => cases ran

end Act

/-! ## Sessions -/

namespace Stage

theorem randomWord_afterAct (stage : Stage) (act : Act) :
    (stage.afterAct act).supply.randomWord = stage.supply.randomWord := by
  cases source : act.mint? with
  | some mint => exact (Act.issues_of_mint? source stage.supply).randomWord_eq
  | none =>
      rcases (Act.founds_of_mint?_eq_none source).2 stage.supply with ⟨opened, _, supplied, _⟩
      exact congrArg (fun supply => supply.randomWord) supplied

theorem randomWord_afterActs : ∀ (acts : List Act) (stage : Stage),
    (stage.afterActs acts).supply.randomWord = stage.supply.randomWord
  | [], _ => rfl
  | act :: rest, stage => by
      rw [afterActs, randomWord_afterActs rest, randomWord_afterAct]

namespace InSession

variable {permitted : Act → Prop} {stage : Stage} (session : stage.InSession permitted)
include session

/-- Whatever an object of a session binds was drawn for the value that it is bound to. -/
theorem accounted : ∀ object ∈ stage.made, object.Accounted stage.made stage.issues := by
  induction session with
  | start randomWord => exact List.forall_mem_nil _
  | @act stage _ act _ known induction =>
      have fromBefore : ∀ object ∈ stage.made, object ∈ (stage.afterAct act).made ∧
          object.Accounted (stage.afterAct act).made (stage.afterAct act).issues :=
        fun object member => ⟨stage.made_subset_afterAct act member,
          (induction object member).mono (stage.made_subset_afterAct act)
            (List.subset_append_left _ _)⟩
      intro object member
      rcases mem_made_afterAct member with isOld | ran
      · exact (fromBefore object isOld).2
      · rcases Act.entries_of_run ran with ⟨asked, rfl, ran⟩ | isOperand | noEntries
        · exact Call.accounted_of_run (fun operand used => fromBefore operand (known operand used))
            (List.subset_append_right _ _) ran
        · exact (fromBefore object (known object isOperand)).2
        · intro entry present
          rw [noEntries] at present
          cases present

/-- The predicates of a session are of every sort that the mints of the session make. -/
theorem all_made {sort : Predicate → Prop}
    (closed : ∀ predicate joined, sort predicate → sort (predicate.withConnective joined))
    (makes : stage.Makes sort) : ∀ object ∈ stage.made, object.All (Entry.Made sort) := by
  induction session with
  | start randomWord => exact List.forall_mem_nil _
  | @act stage _ act _ known induction =>
      have makesBefore : stage.Makes sort := by
        intro object isMade mint owns
        rw [← stage.randomWord_afterAct act]
        exact makes object (stage.made_subset_afterAct act isMade) mint owns
      have allBefore := induction makesBefore
      intro object member
      rcases mem_made_afterAct member with isOld | ran
      · exact allBefore object isOld
      · rcases Act.entries_of_run ran with ⟨asked, rfl, ran⟩ | isOperand | noEntries
        · exact Call.made_of_run closed rfl
            (fun operand used => makesBefore operand (known operand used))
            (fun operand used => allBefore operand (known operand used)) ran
        · exact allBefore object (known object isOperand)
        · intro entry present
          rw [noEntries] at present
          cases present

theorem update_reached : ∀ draft, .update draft ∈ stage.made →
    draft.Reached stage.supply.randomWord := by
  induction session with
  | start randomWord => exact fun _ member => absurd member List.not_mem_nil
  | @act stage _ act _ known induction =>
      rw [stage.randomWord_afterAct act]
      intro draft member
      rcases mem_made_afterAct member with isOld | ran
      · exact induction draft isOld
      · rcases Act.update_of_run ran with
          isOperand | ⟨tableName, binder, rfl⟩ | ⟨earlier, step, isOperand, stepped⟩
        · exact induction draft (known _ isOperand)
        · exact .start tableName binder
        · exact (induction earlier (known _ isOperand)).step step rfl stepped

theorem shows {draft : ReadDraft} (isMade : .read draft ∈ stage.made) :
    ∀ entry ∈ (Object.read draft).entries, ∀ predicate, entry.Contains stage.made predicate →
      predicate.kind.Shows predicate.placeholders.length := by
  have allMade := session.all_made (fun _ _ shows => shows) fun _ _ _ _ _ creates => creates.shows
  intro entry present predicate contains
  exact contains.sorted (allMade _ isMade entry present) allMade

/-- A compiled read has values for the tokens that the read shows, whatever else is overridden. -/
theorem valueNames_read {draft : ReadDraft} (isMade : .read draft ∈ stage.made)
    {overrides : Dictionary Json} (absent : overrides.get? "ExpressionAttributeValues" = none)
    {token : String} :
    token ∈ (draft.compile overrides).valueNames ↔ draft.Emits stage.made token := by
  rw [ReadDraft.compile, Request.valueNames_ofInput_of_absent _ absent,
    ReadDraft.attributeValues_toInput]
  exact ReadDraft.mem_names_boundValues_of (session.accounted _ isMade) (session.shows isMade)

theorem valueNames_update {draft : UpdateDraft} (isMade : .update draft ∈ stage.made)
    {overrides : Dictionary Json} (absent : overrides.get? "ExpressionAttributeValues" = none)
    {token : String} :
    token ∈ (draft.compile overrides).valueNames ↔ draft.Emits token := by
  rw [UpdateDraft.compile, Request.valueNames_ofInput_of_absent _ absent]
  exact (session.update_reached draft isMade).mem_names_tokenValues

end InSession

end Stage

end ItemQuery
