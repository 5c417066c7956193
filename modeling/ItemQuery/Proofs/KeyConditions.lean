import ItemQuery.Proofs.Counting
import ItemQuery.Proofs.Sessions.Reads

/-!
Key conditions in the form that the store takes.

The store wants of a key condition that it is a conjunction of comparisons, without groups. Whatever
else is done to a query, its key condition is the list of the tests that were asked for on the key,
in this order and joined by `and` (`ReadDraft.Keyed.exists_predicates`). Where all draw from one
sequence no token of a key condition is one of a filter (`Stage.InSession.keysApart`), because a
token is drawn once and no act puts it on both sides.
-/

namespace ItemQuery

/-! ## Tests -/

/-- The kinds of predicates that the store takes in a key condition. -/
def keyKinds : List PredicateKind := [.eq, .lt, .ltEq, .gt, .gtEq, .beginsWith]

theorem PredicateKind.mem_keyKinds_iff {kind : PredicateKind} :
    kind ∈ keyKinds ↔ kind.isKeyCondition = true := by
  cases kind <;> decide

/-- The clauses that the store takes in a key condition: comparisons, and tests of how a key
begins. -/
inductive IsKeyClause (key token : String) : String → Prop
  | comparison {operator : String} (known : operator ∈ ["=", "<", "<=", ">", ">="]) :
      IsKeyClause key token (key ++ " " ++ operator ++ " " ++ token)
  | beginsWith : IsKeyClause key token ("begins_with(" ++ key ++ ", " ++ token ++ ")")

theorem isKeyClause_renderKind {kind : PredicateKind} (isKey : kind ∈ keyKinds)
    (key token : String) : IsKeyClause key token (Predicate.renderKind kind key [token]) := by
  have comparison : ∀ operator ∈ ["=", "<", "<=", ">", ">="],
      Predicate.renderKind kind key [token] = key ++ (" " ++ operator ++ " ") ++ token →
        IsKeyClause key token (Predicate.renderKind kind key [token]) := by
    intro operator known same
    rw [same, ← String.append_assoc, ← String.append_assoc]
    exact .comparison known
  cases kind with
  | eq => exact comparison "=" (by decide) rfl
  | lt => exact comparison "<" (by decide) rfl
  | ltEq => exact comparison "<=" (by decide) rfl
  | gt => exact comparison ">" (by decide) rfl
  | gtEq => exact comparison ">=" (by decide) rfl
  | beginsWith => exact .beginsWith
  | notEq | contains | within => exact absurd isKey (by decide)

/-- Whether a predicate is what becomes of a test on the key: it has the kind of the test, which is
one that the store takes, and is joined by `and` to what stands before it. -/
structure KeyTest.Makes (test : KeyTest) (predicate : Predicate) : Prop where
  kind : predicate.kind = test.kind
  isKey : test.kind ∈ keyKinds
  key : predicate.key = test.key
  connective : predicate.connective = .and
  clause : ∃ placeholder : Placeholder, predicate.bound = [(placeholder, test.value)] ∧
    IsKeyClause test.key placeholder.token predicate.render

theorem KeyTest.makes_of_create {mint : Mint} {test : KeyTest} {before after : Supply}
    {predicate : Predicate} (isKey : test.kind.isKeyCondition = true)
    (created : (Predicate.create mint test.kind test.key (.scalar test.value) .and).run before =
      .ok predicate after) : test.Makes predicate := by
  rcases Predicate.of_run_create created with ⟨_, equal, _, values⟩
  rcases List.map_eq_singleton_iff.mp values with ⟨⟨placeholder, value⟩, bound, same⟩
  rw [bound] at equal
  cases same
  rw [equal]
  refine ⟨rfl, PredicateKind.mem_keyKinds_iff.mpr isKey, rfl, rfl, placeholder, rfl, ?_⟩
  exact isKeyClause_renderKind (PredicateKind.mem_keyKinds_iff.mpr isKey) _ _

theorem KeyTest.joined_of_makes {tests : List KeyTest} {predicates : List Predicate}
    (makes : List.Forall₂ Makes tests predicates) :
    ∀ predicate ∈ predicates, predicate.connective = .and := by
  induction makes with
  | nil => exact List.forall_mem_nil _
  | cons first _ induction => exact List.forall_mem_cons.mpr ⟨first.connective, induction⟩

namespace ReadDraft

variable {draft : ReadDraft} {condition : Condition} {forward : Option Bool} {kind : PredicateKind}

theorem exists_run_keyCondition (target : draft.target = .query condition forward)
    (isKey : kind ∈ keyKinds) (key : String) (value : AttributeValue) (before : Supply) :
    ∃ grown after, (draft.keyCondition kind key value).run before = .ok grown after := by
  rw [PredicateKind.mem_keyKinds_iff] at isKey
  have fits : (Operand.scalar value).mismatch? kind = none := by
    cases kind with
    | notEq | contains | within => cases isKey
    | _ => rfl
  rcases @Predicate.exists_run_create draft.binder.mint kind key (.scalar value) .and before fits
    with ⟨bound, after, created, _⟩
  rw [keyCondition, target]
  simp only [isKey, if_true]
  exact ⟨_, after, Draw.run_bind_eq_ok.mpr ⟨_, after, created, rfl⟩⟩

theorem run_keyCondition_of_not_mem (target : draft.target = .query condition forward)
    (noKey : kind ∉ keyKinds) (key : String) (value : AttributeValue) (before : Supply) :
    (draft.keyCondition kind key value).run before =
      .error (.unsupported ("key" ++ kind.name)) before := by
  rw [PredicateKind.mem_keyKinds_iff] at noKey
  rw [keyCondition, target]
  simp only [noKey]
  rfl

end ReadDraft

/-! ## What was asked for on the key -/

/-- Whether a read came about so that some tests were asked for on its key, in this order. Those
that were asked for on other drafts do not count, nor do those on the branch of a group. -/
inductive ReadDraft.Keyed : ReadDraft → List KeyTest → Prop
  | begun (target : ReadTarget) (tableName : String) (binder : Binder)
      (indexName : Option String) :
      Keyed { ReadDraft.start target tableName binder with indexName := indexName } []
  | step {draft grown : ReadDraft} {tests : List KeyTest} {before after : Supply}
      (earlier : Keyed draft tests) (step : ReadStep)
      (ran : (step.run draft).run before = .ok grown after) :
      Keyed grown (tests ++ step.keyTests)
  | group {draft : ReadDraft} {tests : List KeyTest} (earlier : Keyed draft tests)
      (connective : Connective) (child : ReadDraft) :
      Keyed (draft.nest connective child.filter) tests

namespace ReadDraft

theorem target_nest (draft : ReadDraft) (connective : Connective) (condition : Condition) :
    (draft.nest connective condition).target = draft.target := by
  unfold nest
  split <;> rfl

/-- The key condition of a query holds a predicate for each test that was asked for on it, in the
order of the tests, and nothing else. -/
theorem Keyed.exists_predicates {draft : ReadDraft} {tests : List KeyTest}
    (keyed : draft.Keyed tests) {condition : Condition}
    (isQuery : draft.target.keyCondition? = some condition) :
    ∃ predicates : List Predicate, condition = ⟨.and, predicates.map .predicate⟩ ∧
      List.Forall₂ KeyTest.Makes tests predicates := by
  induction keyed generalizing condition with
  | begun target tableName binder indexName =>
      cases target with
      | scan => cases isQuery
      | query keys forward =>
          cases isQuery
          exact ⟨[], rfl, .nil⟩
  | @step draft grown tests before after _ step ran induction =>
      rcases step.keys_of_run ran with ⟨kind, key, value, rfl, _, ran⟩ | ⟨noTests, sameKeys⟩
      · rcases of_run_keyCondition ran with ⟨held, forward, predicate, target, isKey, created, rfl⟩
        cases isQuery
        rcases induction (by rw [target]; rfl) with ⟨predicates, rfl, makes⟩
        refine ⟨predicates ++ [predicate], by simp [Condition.push], ?_⟩
        have madeBy : KeyTest.Makes ⟨kind, key, value⟩ predicate :=
          KeyTest.makes_of_create isKey created
        exact List.rel_append makes (.cons madeBy .nil)
      · rw [noTests, List.append_nil]
        exact induction (sameKeys ▸ isQuery)
  | group _ connective child induction =>
      rw [target_nest] at isQuery
      exact induction isQuery

end ReadDraft

/-! ## Text -/

theorem Entry.renderAll_predicates {predicates : List Predicate}
    (joined : ∀ predicate ∈ predicates, predicate.connective = .and) :
    renderAll (predicates.map .predicate) =
      String.intercalate " and " (predicates.map Predicate.render) := by
  have rest : ∀ predicates : List Predicate,
      (∀ predicate ∈ predicates, predicate.connective = .and) → ∀ first : String,
        first ++ renderRest (predicates.map .predicate) =
          String.intercalate " and " (first :: predicates.map Predicate.render) := by
    intro predicates
    induction predicates with
    | nil => simp [renderRest]
    | cons predicate others induction =>
        intro joined first
        rcases List.forall_mem_cons.mp joined with ⟨isAnd, othersJoined⟩
        have isAnd : (Entry.predicate predicate).connective = .and := isAnd
        rw [List.map_cons, List.map_cons, renderRest, isAnd, String.intercalate_cons_cons,
          ← induction othersJoined, render]
        simp only [Connective.text, String.append_assoc]
        rfl
  cases predicates with
  | nil => rfl
  | cons first others =>
      rw [List.map_cons, renderAll, render]
      exact rest others (List.forall_mem_cons.mp joined).2 _

namespace ReadDraft

theorem keyConditionExpression?_compile {draft : ReadDraft} {condition : Condition}
    (isQuery : draft.target.keyCondition? = some condition) :
    (draft.compile .empty).keyConditionExpression? = condition.render? := by
  rw [Request.keyConditionExpression?, Request.text?, compile,
    Request.get?_expression _ (by decide)]
  unfold toInput
  cases target : draft.target with
  | scan =>
      rw [target] at isQuery
      cases isQuery
  | query keys forward =>
      rw [target] at isQuery
      cases isQuery
      change (condition.render?.map Json.string).bind Json.string? = _
      cases condition.render? <;> rfl

/-- The key condition is compiled to its clauses in one pair of parentheses, if there are any. -/
theorem keyConditionExpression?_of_predicates {draft : ReadDraft} {predicates : List Predicate}
    (isQuery : draft.target.keyCondition? = some ⟨.and, predicates.map .predicate⟩)
    (joined : ∀ predicate ∈ predicates, predicate.connective = .and) :
    (draft.compile .empty).keyConditionExpression? = if predicates = [] then none
      else some ("(" ++ String.intercalate " and " (predicates.map Predicate.render) ++ ")") := by
  rw [keyConditionExpression?_compile isQuery, Condition.render?, Condition.isEmpty]
  cases predicates with
  | nil => rfl
  | cons first others =>
      rw [← Entry.renderAll_predicates joined]
      rfl

end ReadDraft

/-! ## Sessions -/

/-- The reads of a session have all come about so. -/
theorem Stage.InSession.exists_keyed {permitted : Act → Prop} {stage : Stage}
    (session : stage.InSession permitted) :
    ∀ draft, .read draft ∈ stage.made → ∃ tests, draft.Keyed tests := by
  induction session with
  | start randomWord => exact fun _ member => absurd member List.not_mem_nil
  | act _ act _ known induction =>
      intro draft member
      rcases mem_made_afterAct member with isOld | ran
      · exact induction draft isOld
      · rcases Act.read_of_run ran with isOperand | ⟨target, tableName, binder, indexName, rfl⟩ |
          ⟨earlier, step, rfl, stepped⟩ | ⟨earlier, connective, child, rfl, rfl⟩
        · exact induction draft (known _ isOperand)
        · exact ⟨[], .begun target tableName binder indexName⟩
        · rcases induction earlier (known _ (by simp [Act.operands, Call.operands])) with
            ⟨tests, keyed⟩
          exact ⟨_, keyed.step step stepped⟩
        · rcases induction earlier (known _ (by simp [Act.operands, Call.operands])) with
            ⟨tests, keyed⟩
          exact ⟨tests, keyed.group connective child⟩

/-! ## Tokens of keys and of filters -/

/-- Whether an entry has a value for a token. -/
def Entry.HasToken (entry : Entry) (token : String) : Prop :=
  ∃ value, (token, value) ∈ entry.tokenValues

namespace Entry

variable {entry : Entry} {joined : Connective} {token : String}

theorem hasToken_group {entries : List Entry} :
    (Entry.group joined entries).HasToken token ↔ ∃ entry ∈ entries, entry.HasToken token := by
  simp only [HasToken, mem_tokenValues_group]
  constructor
  · rintro ⟨value, entry, inGroup, binds⟩
    exact ⟨entry, inGroup, value, binds⟩
  · rintro ⟨entry, inGroup, value, binds⟩
    exact ⟨value, entry, inGroup, binds⟩

@[simp] theorem hasToken_withConnective :
    (entry.withConnective joined).HasToken token ↔ entry.HasToken token := by
  cases entry <;> exact Iff.rfl

theorem HasToken.of_capture (has : (Entry.fragment (entry.capture joined)).HasToken token) :
    entry.HasToken token := by
  rcases has with ⟨value, binds⟩
  exact ⟨value, mem_tokenValues_of_capture binds⟩

end Entry

/-- Whether a token stands for a value in what an object has apart from a key condition. -/
def Object.FreeToken (object : Object) (token : String) : Prop :=
  match object with
  | .read draft => draft.filter.toEntry.HasToken token
  | other => ∃ entry ∈ other.entries, entry.HasToken token

/-- Whether a token stands for a value in the key condition of a draft. -/
def ReadDraft.KeyToken (draft : ReadDraft) (token : String) : Prop :=
  ∃ value, (token, value) ∈ draft.target.tokenValues

/-- Whether a token was drawn among some issues. -/
def DrawnToken (issues : List Issue) (token : String) : Prop :=
  ∃ issue ∈ issues, issue.placeholder.token = token

theorem Drawn.token {issues : List Issue} {binding : String × AttributeValue}
    (drawn : Drawn issues binding) : DrawnToken issues binding.1 := by
  rcases drawn with ⟨issue, member, named, _⟩
  exact ⟨issue, member, named⟩

namespace Object

variable {token : String} {condition : Condition}

theorem freeToken_ofEntry {entry : Entry} :
    (ofEntry entry).FreeToken token ↔ entry.HasToken token := by
  cases entry <;> simp [FreeToken, ofEntry, entries, Condition.toEntry]

theorem freeToken_condition :
    (Object.condition condition).FreeToken token ↔ ∃ entry ∈ condition.entries,
      entry.HasToken token := by
  simp [FreeToken, entries, Condition.toEntry, Entry.hasToken_group]

theorem freeToken_pushAll {added : List Entry} :
    (Object.condition (condition.pushAll added)).FreeToken token ↔
      (Object.condition condition).FreeToken token ∨ ∃ entry ∈ added, entry.HasToken token := by
  simp [freeToken_condition, Condition.pushAll, or_and_right, exists_or]

theorem freeToken_read {draft : ReadDraft} :
    (Object.read draft).FreeToken token ↔ ∃ entry ∈ draft.filter.entries, entry.HasToken token :=
  Entry.hasToken_group

theorem FreeToken.of_given {object : Object} {value : AttributeValue}
    (given : (token, value) ∈ object.given) : object.FreeToken token := by
  cases object with
  | condition held => exact ⟨_, List.mem_singleton_self _, value, given⟩
  | read draft => exact ⟨value, Entry.get?_bindings_eq_some (Dictionary.get?_eq_some_iff.mpr given)⟩
  | _ => cases given

end Object

/-- Whether an act leaves key conditions where they are, and hands none out for other use. -/
def Act.LeavesKeys (act : Act) : Prop := ∀ draft, act ≠ .call (.keyConditionOf draft)

/-- The tokens that a call puts together are those of its operands, or it has drawn them. -/
theorem Call.freeToken_of_run {call : Call} (leaves : (Act.call call).LeavesKeys)
    {before after : Supply} {object : Object} (ran : call.action.run before = .ok object after)
    {token : String} (free : object.FreeToken token) :
    (∃ operand ∈ call.operands, operand.FreeToken token) ∨
      DrawnToken (call.issues before) token := by
  cases call with
  | predicate | named | specified =>
      rcases Draw.run_map_eq_ok.mp ran with ⟨predicate, made, rfl⟩
      have has : (Entry.predicate predicate).HasToken token := Object.freeToken_ofEntry.mp free
      rcases has with ⟨value, binds⟩
      rw [issues, Mint.issuesOfRun_of_ok made]
      exact .inr (Mint.drawn_issuesOf predicate _ binds).token
  | step draft taken =>
      rcases Draw.run_map_eq_ok.mp ran with ⟨grown, made, rfl⟩
      rcases free with ⟨value, binds⟩
      rcases (taken.grew_of_run made).filterValues.mem _ binds with old | given | drawn
      · exact .inl ⟨.read draft, List.mem_cons_self, value, old⟩
      · rcases List.mem_flatMap.mp given with ⟨operand, used, given⟩
        exact .inl ⟨operand, List.mem_cons_of_mem _ used, .of_given given⟩
      · exact .inr drawn.token
  | group draft connective child =>
      cases ran
      rw [Object.freeToken_read, ReadDraft.nest] at free
      split at free
      · exact .inl ⟨.read draft, List.mem_cons_self, Object.freeToken_read.mpr free⟩
      · rcases free with ⟨entry, member, has⟩
        rcases List.mem_append.mp member with old | new
        · exact .inl ⟨.read draft, List.mem_cons_self, Object.freeToken_read.mpr ⟨entry, old, has⟩⟩
        · rw [List.mem_singleton.mp new, Entry.hasToken_withConnective] at has
          exact .inl ⟨.read child, by simp [operands], has⟩
  | rejoin predicate connective =>
      cases ran
      have has : (Entry.predicate (predicate.withConnective connective)).HasToken token :=
        Object.freeToken_ofEntry.mp free
      exact .inl ⟨.predicate predicate, List.mem_cons_self, _, List.mem_singleton_self _, has⟩
  | push condition entry =>
      cases ran
      rcases Object.freeToken_pushAll.mp free with old | ⟨present, new, has⟩
      · exact .inl ⟨.condition condition, List.mem_cons_self, old⟩
      · rw [List.mem_singleton.mp new] at has
        exact .inl ⟨.ofEntry entry, by simp [operands], Object.freeToken_ofEntry.mpr has⟩
  | add condition connective entry =>
      cases ran
      rcases Object.freeToken_pushAll.mp free with old | ⟨present, new, has⟩
      · exact .inl ⟨.condition condition, List.mem_cons_self, old⟩
      · rw [List.mem_singleton.mp new, Entry.hasToken_withConnective] at has
        exact .inl ⟨.ofEntry entry, by simp [operands], Object.freeToken_ofEntry.mpr has⟩
  | pushAll condition entries =>
      cases ran
      rcases Object.freeToken_pushAll.mp free with old | ⟨present, new, has⟩
      · exact .inl ⟨.condition condition, List.mem_cons_self, old⟩
      · exact .inl ⟨.ofEntry present, by simp [operands, List.mem_map_of_mem new],
          Object.freeToken_ofEntry.mpr has⟩
  | withConnective condition connective =>
      cases ran
      rw [Object.freeToken_condition] at free
      exact .inl ⟨.condition condition, List.mem_cons_self, Object.freeToken_condition.mpr free⟩
  | filterOf draft =>
      cases ran
      rw [Object.freeToken_condition] at free
      exact .inl ⟨.read draft, List.mem_cons_self, Object.freeToken_read.mpr free⟩
  | keyConditionOf draft => exact absurd rfl (leaves draft)
  | capture source connective =>
      cases ran
      have has : (Entry.fragment (source.capture connective)).HasToken token :=
        Object.freeToken_ofEntry.mp free
      exact .inl ⟨.ofEntry source, List.mem_cons_self, Object.freeToken_ofEntry.mpr has.of_capture⟩
  | start | branch | scanTable | queryTable =>
      cases ran
      rcases Object.freeToken_read.mp free with ⟨_, none, _⟩
      cases none
  | emptyCondition =>
      cases ran
      rcases Object.freeToken_condition.mp free with ⟨_, none, _⟩
      cases none
  | mintOf | makeBinder | binderOf | withIndex =>
      cases ran
      rcases free with ⟨_, none, _⟩
      cases none
  | openMint | discard | makeTable | withConfig =>
      rcases Draw.run_map_eq_ok.mp ran with ⟨_, _, rfl⟩
      rcases free with ⟨_, none, _⟩
      cases none

theorem Object.FreeToken.exists_entry {object : Object} {token : String}
    (free : object.FreeToken token) : ∃ entry ∈ object.entries, entry.HasToken token := by
  cases object with
  | read draft => exact ⟨draft.filter.toEntry, filter_mem_entries draft, free⟩
  | _ => exact free

theorem Act.freeToken_of_run {act : Act} (leaves : act.LeavesKeys) {before after : Supply}
    {object : Object} (ran : act.action.run before = .ok object after) {token : String}
    (free : object.FreeToken token) :
    (∃ operand ∈ act.operands, operand.FreeToken token) ∨
      DrawnToken (act.issues before) token := by
  rcases Act.entries_of_run ran with ⟨asked, rfl, ran⟩ | isOperand | noEntries
  · exact Call.freeToken_of_run leaves ran free
  · exact .inl ⟨object, isOperand, free⟩
  · rcases free.exists_entry with ⟨_, present, _⟩
    rw [noEntries] at present
    cases present

theorem ReadDraft.keyToken_iff {draft : ReadDraft} {token : String} :
    draft.KeyToken token ↔ ∃ entry ∈ draft.target.entries, entry.HasToken token := by
  unfold KeyToken
  cases draft.target with
  | scan => simp [ReadTarget.tokenValues, ReadTarget.entries]
  | query condition forward => exact @Entry.hasToken_group condition.connective _ _

theorem ReadTarget.tokenValues_eq_of_keyCondition? {first second : ReadTarget}
    (same : first.keyCondition? = second.keyCondition?) :
    first.tokenValues = second.tokenValues := by
  cases first <;> cases second <;> cases same <;> rfl

/-- A token of a key condition was one before, or the act has drawn it for the key condition and has
left the filter alone. -/
theorem Act.keyToken_of_run {act : Act} {before after : Supply} {grown : ReadDraft}
    (ran : act.action.run before = .ok (.read grown) after) {token : String}
    (isKey : grown.KeyToken token) :
    (∃ draft, .read draft ∈ act.operands ∧ draft.KeyToken token) ∨
      DrawnToken (act.issues before) token ∧
        ∃ draft, .read draft ∈ act.operands ∧ grown.filter = draft.filter := by
  rcases Act.read_of_run ran with isOperand | ⟨target, tableName, binder, indexName, rfl⟩ |
    ⟨draft, step, rfl, stepped⟩ | ⟨draft, connective, child, rfl, rfl⟩
  · exact .inl ⟨grown, isOperand, isKey⟩
  · rcases isKey with ⟨value, binds⟩
    cases target <;> cases binds
  · have isOperand : .read draft ∈ (Act.call (.step draft step)).operands := List.mem_cons_self
    rcases step.keys_of_run stepped with ⟨_, _, _, _, sameFilter, _⟩ | ⟨_, sameKeys⟩
    · rcases ReadDraft.keyToken_iff.mp isKey with ⟨entry, present, value, binds⟩
      rcases (step.grew_of_run stepped).target.mem entry present with old | added
      · exact .inl ⟨draft, isOperand, ReadDraft.keyToken_iff.mpr ⟨entry, old, value, binds⟩⟩
      · rcases added.tokenValues _ binds with given | drawn
        · cases given
        · exact .inr ⟨drawn.token, draft, isOperand, sameFilter⟩
    · rw [ReadDraft.KeyToken, ReadTarget.tokenValues_eq_of_keyCondition? sameKeys] at isKey
      exact .inl ⟨draft, isOperand, isKey⟩
  · refine .inl ⟨draft, List.mem_cons_self, ?_⟩
    rwa [ReadDraft.KeyToken, draft.target_nest] at isKey

namespace Stage

/-- Whether no token of a key condition stands anywhere else. -/
def KeysApart (stage : Stage) : Prop :=
  ∀ draft, .read draft ∈ stage.made → ∀ object ∈ stage.made, ∀ token,
    draft.KeyToken token → ¬object.FreeToken token

/-- What an act draws was not drawn before, where there is one sequence. -/
theorem Numbered.not_drawnToken {stage : Stage} {act : Act}
    (numbered : (stage.afterAct act).Numbered) {mint : Mint} {sequence : Nat}
    (onSequence : mint.source = .sequence sequence)
    (shared : ∀ object ∈ (stage.afterAct act).made, ∀ other ∈ object.mint?, other = mint)
    {token : String} (new : DrawnToken (act.issues stage.supply) token) :
    ¬DrawnToken stage.issues token := by
  have ofMint : ∀ issue ∈ (stage.afterAct act).issues, issue.mint = mint := by
    intro issue member
    rcases numbered.owned issue member with ⟨object, isMade, owns⟩
    exact shared object isMade issue.mint owns
  rcases new with ⟨issue, isNew, named⟩
  have has : (stage.afterAct act).Has mint := by
    rw [← ofMint issue (List.mem_append_right _ isNew)]
    exact numbered.owned issue (List.mem_append_right _ isNew)
  -- All names that were drawn are the first names of the one mint, and these are different.
  have names : (stage.afterAct act).names mint =
      stage.issues.map (fun issue => issue.placeholder.name) ++
        (act.issues stage.supply).map fun issue => issue.placeholder.name := by
    rw [← List.map_append, Stage.names, List.filter_eq_self.mpr]
    · rfl
    · exact fun issue member => decide_eq_true (ofMint issue member)
  have nodup := mint.nodup_firstNames ((stage.afterAct act).supply.issued sequence)
  rw [← numbered.names mint has sequence onSequence, names] at nodup
  rintro ⟨earlier, isOld, alsoNamed⟩
  have sameName : earlier.placeholder.name = issue.placeholder.name :=
    congrArg Placeholder.name (Placeholder.token_injective (alsoNamed.trans named.symm))
  exact List.disjoint_of_nodup_append nodup (List.mem_map_of_mem isOld)
    (sameName ▸ List.mem_map_of_mem isNew)

/-- An act that draws nothing twice keeps keys and filters apart: what it draws for a key condition
does not come into the filter, and nothing else has it. -/
theorem KeysApart.afterAct {stage : Stage} (apart : stage.KeysApart) {act : Act}
    (leaves : act.LeavesKeys) (known : ∀ operand ∈ act.operands, operand ∈ stage.made)
    (accounted : ∀ object ∈ stage.made, object.Accounted stage.made stage.issues)
    (fresh : ∀ token, DrawnToken (act.issues stage.supply) token →
      ¬DrawnToken stage.issues token) : (stage.afterAct act).KeysApart := by
  have keyDrawn : ∀ draft token, .read draft ∈ stage.made → draft.KeyToken token →
      DrawnToken stage.issues token := by
    intro draft token isMade isKey
    rcases ReadDraft.keyToken_iff.mp isKey with ⟨entry, present, value, binds⟩
    have ofEntry := (Object.accounted_read.mp (accounted _ isMade)).1 entry present
    exact (ofEntry.drawn _ binds).token
  have freeDrawn : ∀ object ∈ stage.made, ∀ token, object.FreeToken token →
      DrawnToken stage.issues token := by
    intro object isMade token free
    rcases free.exists_entry with ⟨entry, present, value, binds⟩
    exact ((accounted object isMade entry present).drawn _ binds).token
  intro draft isRead object isMade token isKey free
  have keySource : (∃ old, .read old ∈ stage.made ∧ old.KeyToken token) ∨
      DrawnToken (act.issues stage.supply) token ∧
        act.action.run stage.supply = .ok (.read draft) (stage.afterAct act).supply ∧
        ∃ old, .read old ∈ stage.made ∧ draft.filter = old.filter := by
    rcases mem_made_afterAct isRead with isOld | ran
    · exact .inl ⟨draft, isOld, isKey⟩
    · rcases Act.keyToken_of_run ran isKey with ⟨old, used, isKey⟩ | ⟨drawn, old, used, same⟩
      · exact .inl ⟨old, known _ used, isKey⟩
      · exact .inr ⟨drawn, ran, old, known _ used, same⟩
  have freeSource : (∃ old ∈ stage.made, old.FreeToken token) ∨
      DrawnToken (act.issues stage.supply) token ∧
        act.action.run stage.supply = .ok object (stage.afterAct act).supply := by
    rcases mem_made_afterAct isMade with isOld | ran
    · exact .inl ⟨object, isOld, free⟩
    · rcases Act.freeToken_of_run leaves ran free with ⟨old, used, free⟩ | drawn
      · exact .inl ⟨old, known _ used, free⟩
      · exact .inr ⟨drawn, ran⟩
  rcases keySource with ⟨keyed, keyedMade, isKey⟩ | ⟨keyNew, ran, old, oldMade, sameFilter⟩
  · rcases freeSource with ⟨freed, freedMade, free⟩ | ⟨freeNew, _⟩
    · exact apart keyed keyedMade freed freedMade token isKey free
    · exact fresh token freeNew (keyDrawn keyed token keyedMade isKey)
  · rcases freeSource with ⟨freed, freedMade, free⟩ | ⟨_, alsoRan⟩
    · exact fresh token keyNew (freeDrawn freed freedMade token free)
    · -- The one draft that the act makes has the new token in its key condition only.
      cases ran.symm.trans alsoRan
      rw [Object.FreeToken, sameFilter] at free
      exact fresh token keyNew (freeDrawn (.read old) oldMade token free)

theorem InSession.keysApart {permitted : Act → Prop} {stage : Stage}
    (session : stage.InSession permitted) (leaves : ∀ act, permitted act → act.LeavesKeys)
    {mint : Mint} {sequence : Nat} (onSequence : mint.source = .sequence sequence)
    (shared : ∀ object ∈ stage.made, ∀ other ∈ object.mint?, other = mint) : stage.KeysApart := by
  induction session with
  | start randomWord => exact fun _ member => absurd member List.not_mem_nil
  | @act stage earlier act isPermitted known induction =>
      have apart := induction fun object isMade =>
        shared object (stage.made_subset_afterAct act isMade)
      have numbered := (earlier.act act isPermitted known).numbered
      exact apart.afterAct (leaves act isPermitted) known earlier.accounted
        fun _ new => numbered.not_drawnToken onSequence shared new

/-- The key condition of a query is the list of the tests that were asked for on it, in that order
and joined by `and`, each of a kind that the store takes; it is compiled to their clauses in one pair
of parentheses, and left out if there are none. A test of another kind is refused and draws nothing.
Where all draw from one sequence, and key conditions are not handed out for other use, no token of
the key condition is one of the filter. -/
theorem InSession.keyed_and_apart {permitted : Act → Prop} {stage : Stage}
    (session : stage.InSession permitted) :
    (∀ draft, .read draft ∈ stage.made → ∃ tests, draft.Keyed tests) ∧
    (∀ (draft : ReadDraft) (condition : Condition) (forward : Option Bool) (tests : List KeyTest),
      draft.target = .query condition forward → draft.Keyed tests →
        ∃ predicates : List Predicate, condition = ⟨.and, predicates.map .predicate⟩ ∧
          List.Forall₂ KeyTest.Makes tests predicates ∧
          (draft.compile .empty).keyConditionExpression? = if tests = [] then none
            else some ("(" ++ String.intercalate " and " (predicates.map Predicate.render) ++ ")")) ∧
    (∀ (draft : ReadDraft) (condition : Condition) (forward : Option Bool) (kind : PredicateKind)
      (key : String) (value : AttributeValue) (before : Supply),
      draft.target = .query condition forward →
        if kind ∈ keyKinds then
          ∃ grown after, (draft.keyCondition kind key value).run before = .ok grown after
        else (draft.keyCondition kind key value).run before =
          .error (.unsupported ("key" ++ kind.name)) before) ∧
    ((∀ act, permitted act → act.LeavesKeys) → ∀ mint sequence, mint.source = .sequence sequence →
      (∀ object ∈ stage.made, ∀ other ∈ object.mint?, other = mint) →
        ∀ draft condition forward, .read draft ∈ stage.made →
          draft.target = .query condition forward →
            List.Disjoint condition.bindings.names draft.filter.bindings.names) := by
  refine ⟨session.exists_keyed, ?_, ?_, ?_⟩
  · intro draft condition forward tests target keyed
    have isQuery : draft.target.keyCondition? = some condition := by
      rw [target]
      rfl
    rcases keyed.exists_predicates isQuery with ⟨predicates, rfl, makes⟩
    refine ⟨predicates, rfl, makes, ?_⟩
    rw [draft.keyConditionExpression?_of_predicates isQuery (KeyTest.joined_of_makes makes)]
    cases makes with
    | nil => rfl
    | cons first others => rfl
  · intro draft condition forward kind key value before target
    split
    · next isKey => exact ReadDraft.exists_run_keyCondition target isKey key value before
    · next noKey => exact ReadDraft.run_keyCondition_of_not_mem target noKey key value before
  · intro leaves mint sequence onSequence shared draft condition forward isMade target token inKeys
      inFilter
    have apart := session.keysApart leaves onSequence shared draft isMade (.read draft) isMade token
    rcases Dictionary.mem_names_iff.mp inKeys with ⟨value, bound⟩
    rcases Dictionary.mem_names_iff.mp inFilter with ⟨other, alsoBound⟩
    refine apart ⟨value, ?_⟩ ⟨other, Dictionary.mem_of_get?_ofList alsoBound⟩
    rw [target]
    exact Dictionary.mem_of_get?_ofList bound

end Stage

/-! ## A session with key conditions -/

def ownGames : ReadDraft :=
  { gamesTable.query with
    target := .query ⟨.and, [.predicate ⟨.eq, "owner", .and, [(⟨"p1"⟩, .string "kim")]⟩]⟩ none }

/-- The branch that the group was built on had a key condition, for which the second placeholder was
drawn. -/
def ownOrRatedGames : ReadDraft :=
  ownGames.push (.group .or [.predicate ⟨.eq, "rated", .and, [(⟨"p3"⟩, .bool true)]⟩])

def namedOwnGames : ReadDraft :=
  { ownOrRatedGames with
    target := .query ⟨.and, [.predicate ⟨.eq, "owner", .and, [(⟨"p1"⟩, .string "kim")]⟩,
      .predicate ⟨.beginsWith, "name", .and, [(⟨"p4"⟩, .string "ch")]⟩]⟩ none }

def ownStep : ReadStep := .keyCondition .eq "owner" (.string "kim")

def ratedGroup : ReadStep :=
  .group .or [.keyCondition .eq "owner" (.string "lee"),
    .restrict .and .eq "rated" (.scalar (.bool true))]

def nameStep : ReadStep := .keyCondition .beginsWith "name" (.string "ch")

def keyedStage : Stage :=
  (Stage.start fun _ => "").afterActs
    [.call (.makeTable "games"), .call (.queryTable gamesTable),
      .call (.step gamesTable.query ownStep), .call (.step ownGames ratedGroup),
      .call (.step ownOrRatedGames nameStep)]

theorem Stage.InSession.keyed_and_apart_of_names :
    keyedStage.InSession Act.LeavesKeys ∧ .read namedOwnGames ∈ keyedStage.made ∧
      (∃ tests, namedOwnGames.Keyed tests) ∧
      namedOwnGames.Keyed (ownStep.keyTests ++ nameStep.keyTests) ∧
      (∃ condition forward, namedOwnGames.target = .query condition forward ∧
        condition.bindings.names = [":p1", ":p4"] ∧
        List.Disjoint condition.bindings.names namedOwnGames.filter.bindings.names) ∧
      (∃ predicates, List.Forall₂ KeyTest.Makes (ownStep.keyTests ++ nameStep.keyTests) predicates ∧
        predicates.length = 2) ∧
      (namedOwnGames.compile .empty).keyConditionExpression? =
        some "(owner = :p1 and begins_with(name, :p4))" ∧
      (namedOwnGames.keyCondition .contains "name" (.string "ch")).run keyedStage.supply =
        .error (.unsupported "keyContains") keyedStage.supply := by
  have session : keyedStage.InSession Act.LeavesKeys :=
    Stage.InSession.afterActs _ (.start _) (by simp [Act.LeavesKeys]) (by decide)
  have isMade : .read namedOwnGames ∈ keyedStage.made := by decide
  have shared : ∀ object ∈ keyedStage.made, ∀ other ∈ object.mint?, other = gamesTable.mint := by
    decide
  have owned : ownGames.Keyed (([] : List KeyTest) ++ ownStep.keyTests) :=
    @ReadDraft.Keyed.step gamesTable.query ownGames [] (.initial fun _ => "") _
      (.begun (.query .empty none) "games" gamesTable.binder none) ownStep rfl
  have grouped : ownOrRatedGames.Keyed (ownStep.keyTests ++ ratedGroup.keyTests) :=
    @ReadDraft.Keyed.step ownGames ownOrRatedGames _ ((Supply.initial fun _ => "").advance 0) _
      owned ratedGroup rfl
  have named : namedOwnGames.Keyed (ownStep.keyTests ++ nameStep.keyTests) :=
    @ReadDraft.Keyed.step ownOrRatedGames namedOwnGames _
      ((((Supply.initial fun _ => "").advance 0).advance 0).advance 0) _ grouped nameStep rfl
  rcases session.keyed_and_apart with ⟨keyed, predicates, refused, apart⟩
  refine ⟨session, isMade, keyed namedOwnGames isMade, named, ?_, ?_, ?_, ?_⟩
  · exact ⟨_, _, rfl, by decide,
      apart (fun _ leaves => leaves) gamesTable.mint 0 rfl shared namedOwnGames _ _ isMade rfl⟩
  · rcases predicates namedOwnGames _ _ _ rfl named with ⟨made, _, makes, _⟩
    exact ⟨made, makes, makes.length_eq.symm⟩
  · decide
  · exact refused namedOwnGames _ _ .contains "name" (.string "ch") keyedStage.supply rfl

end ItemQuery
