import ItemQuery.Proofs.ByteOrder
import ItemQuery.Proofs.Updates.Growth

/-!
What an update assigns in the end.

A log lists the assignments that the steps made, each with the placeholder that was next in line
then. Of an attribute the log has the placeholder from the first assignment and the value from the
last (`Assignment.outcome?`), and the draft holds exactly these
(`UpdateDraft.Made.outcomes`). Its tokens differ, also where others drew from the same counter in
between (`UpdateDraft.Made.nodup`), so that every value is found under its own token in the input
that the draft compiles to (`UpdateDraft.Made.exists_carries`).
-/

namespace ItemQuery

/-! ## Logs -/

/-- The placeholder that a mint issues next, see `Mint.run_next_eq`. -/
def Mint.upcoming (mint : Mint) (supply : Supply) : Placeholder :=
  mint.nth supply.randomWord (mint.count supply)

/-- A value that an attribute was assigned, and the placeholder that was next in line then. -/
structure Assignment where
  name : String
  value : AttributeValue
  upcoming : Placeholder

namespace Assignment

/-- What becomes of an attribute: the placeholder that was next in line when the attribute was
first assigned, and the value that it was last assigned. -/
def outcome? (log : List Assignment) (name : String) : Option (Placeholder × AttributeValue) :=
  match log.filter fun assignment => assignment.name = name with
  | [] => none
  | first :: later => some (first.upcoming, (later.getLastD first).value)

variable {log : List Assignment} {assignment : Assignment} {name : String}

theorem outcome?_append_of_ne (other : assignment.name ≠ name) :
    outcome? (log ++ [assignment]) name = outcome? log name := by
  simp [outcome?, List.filter_append, other]

/-- One more assignment of an attribute changes its value. Only the first one chooses the
placeholder. -/
theorem outcome?_append_self (log : List Assignment) (assignment : Assignment) :
    outcome? (log ++ [assignment]) assignment.name =
      some (((outcome? log assignment.name).map Prod.fst).getD assignment.upcoming,
        assignment.value) := by
  unfold outcome?
  rw [List.filter_append]
  cases log.filter fun earlier => earlier.name = assignment.name with
  | nil => simp
  | cons first later => simp

theorem exists_outcome?_iff :
    (∃ outcome, outcome? log name = some outcome) ↔ ∃ assignment ∈ log, assignment.name = name := by
  unfold outcome?
  constructor
  · rintro ⟨outcome, found⟩
    cases occurrences : log.filter fun assignment => assignment.name = name with
    | nil =>
        rw [occurrences] at found
        cases found
    | cons first later =>
        have member : first ∈ log.filter fun assignment => assignment.name = name := by
          rw [occurrences]
          exact List.mem_cons_self
        rw [List.mem_filter, decide_eq_true_eq] at member
        exact ⟨first, member⟩
  · rintro ⟨assignment, member, named⟩
    cases occurrences : log.filter fun assignment => assignment.name = name with
    | nil =>
        rw [List.filter_eq_nil_iff] at occurrences
        exact absurd (decide_eq_true named) (occurrences assignment member)
    | cons first later => exact ⟨_, rfl⟩

end Assignment

/-- The assignments that are made when values are assigned one after the other. -/
def UpdateDraft.logOf (draft : UpdateDraft) :
    List (String × AttributeValue) → Supply → List Assignment
  | [], _ => []
  | (name, value) :: rest, supply =>
      ⟨name, value, draft.binder.mint.upcoming supply⟩ ::
        match (draft.assign name value).run supply with
        | .ok assigned middle => logOf assigned rest middle
        | .error _ _ => []

/-- The assignments that a step makes. -/
def UpdateStep.log (step : UpdateStep) (draft : UpdateDraft) (supply : Supply) :
    List Assignment :=
  draft.logOf step.assigns supply

/-! ## Updates in the making -/

/-- The drafts that steps which all succeed lead to, with what was assigned and required on the way.
In between others may draw from the same supply. -/
inductive UpdateDraft.Made : List Assignment → List Requirement → UpdateDraft → Supply → Prop
  | start (tableName : String) (binder : Binder) (supply : Supply) :
      Made [] [] (.start tableName binder) supply
  | meanwhile {log : List Assignment} {required : List Requirement} {draft : UpdateDraft}
      {before after : Supply} (made : Made log required draft before)
      (words : after.randomWord = before.randomWord)
      (further : draft.binder.mint.count before ≤ draft.binder.mint.count after) :
      Made log required draft after
  | call {log : List Assignment} {required : List Requirement} {draft grown : UpdateDraft}
      {before after : Supply} (step : UpdateStep) (made : Made log required draft before)
      (ran : (step.run draft).run before = .ok grown after) :
      Made (log ++ step.log draft before) (required ++ step.requires) grown after

namespace UpdateDraft

theorem Made.others {log : List Assignment} {required : List Requirement} {draft : UpdateDraft}
    {mint : Mint} {issues : List Issue} {before after : Supply}
    (made : Made log required draft before) (drawn : mint.Issues before issues after) :
    Made log required draft after :=
  made.meanwhile drawn.randomWord_eq (drawn.count_le draft.binder.mint)

/-! ## Outcomes -/

/-- Whether a draft holds what becomes of each attribute of a log. -/
def Holds (draft : UpdateDraft) (log : List Assignment) : Prop :=
  ∀ name, draft.assignments.get? name = Assignment.outcome? log name

variable {log : List Assignment} {required : List Requirement} {draft grown : UpdateDraft}
  {before after : Supply}

theorem holds_assign (holds : draft.Holds log) {name : String} {value : AttributeValue}
    (ran : (draft.assign name value).run before = .ok grown after) :
    grown.Holds (log ++ [⟨name, value, draft.binder.mint.upcoming before⟩]) := by
  intro wanted
  rcases assign_cases ran with ⟨placeholder, rfl, drawn⟩
  rw [Dictionary.get?_insert]
  by_cases same : wanted = name
  · subst same
    rw [if_pos rfl, Assignment.outcome?_append_self log ⟨wanted, value, _⟩, ← holds wanted]
    rcases drawn with ⟨⟨held, found⟩, _⟩ | ⟨absent, issued⟩
    · rw [found]
      rfl
    · rcases draft.binder.mint.run_next_eq before with ⟨_, next, _⟩
      cases next.symm.trans issued
      rw [absent]
      rfl
  · rw [if_neg same, Assignment.outcome?_append_of_ne (Ne.symm same), holds wanted]

theorem holds_assignAll : ∀ (assignments : List (String × AttributeValue)) {log : List Assignment}
    {draft grown : UpdateDraft} {before after : Supply}, draft.Holds log →
      (draft.assignAll assignments).run before = .ok grown after →
        grown.Holds (log ++ draft.logOf assignments before)
  | [], log, draft, grown, _, _, holds, ran => by
      cases ran
      rw [logOf, List.append_nil]
      exact holds
  | (name, value) :: rest, log, draft, grown, before, _, holds, ran => by
      rcases Draw.run_bind_eq_ok.mp ran with ⟨assigned, middle, first, finished⟩
      rw [logOf, first, List.append_cons]
      exact holds_assignAll rest (holds_assign holds first) finished

/-- Assignments are logged alike for drafts with the same mint and the same assignments. -/
theorem logOf_congr : ∀ (assignments : List (String × AttributeValue)) {draft other : UpdateDraft}
    (supply : Supply), other.binder = draft.binder → other.assignments = draft.assignments →
      other.logOf assignments supply = draft.logOf assignments supply
  | [], _, _, _, _, _ => rfl
  | (name, value) :: rest, draft, other, supply, sameBinder, sameAssignments => by
      rw [logOf, logOf, sameBinder]
      congr 1
      unfold assign
      rw [sameBinder, sameAssignments]
      cases draft.assignments.get? name with
      | some assignment => exact logOf_congr rest supply rfl rfl
      | none =>
          rcases draft.binder.mint.exists_run_next supply with ⟨placeholder, middle, drawn⟩
          simp only [EStateM.run_bind, drawn, EStateM.run_pure]
          exact logOf_congr rest middle rfl rfl

theorem condition_assignAll : ∀ (assignments : List (String × AttributeValue))
    {draft grown : UpdateDraft} {before after : Supply},
    (draft.assignAll assignments).run before = .ok grown after →
      grown.condition = draft.condition
  | [], _, _, _, _, ran => by
      cases ran
      rfl
  | (name, value) :: rest, _, _, _, _, ran => by
      rcases Draw.run_bind_eq_ok.mp ran with ⟨assigned, middle, first, finished⟩
      rw [condition_assignAll rest finished]
      rcases assign_cases first with ⟨placeholder, rfl, _⟩
      rfl

/-- An update holds the first placeholder and the last value of each attribute. -/
theorem Made.outcomes (made : Made log required draft before) : draft.Holds log := by
  induction made with
  | start => exact fun _ => rfl
  | meanwhile _ _ _ induction => exact induction
  | @call log required draft grown before after step _ ran induction =>
      rcases UpdateStep.run_cases ran with
        ⟨_, prepared, same, assigned⟩ | ⟨requirement, _, noAssignments, ran⟩
      · have holds : prepared.Holds log := by
          intro name
          rw [same.assignments]
          exact induction name
        rw [UpdateStep.log, ← logOf_congr step.assigns before same.binder same.assignments]
        exact holds_assignAll step.assigns holds assigned
      · rcases require_cases ran with ⟨bound, _, _, rfl⟩
        rw [UpdateStep.log, noAssignments, logOf, List.append_nil]
        exact induction

end UpdateDraft

/-! ## Conditions -/

/-- Whether a predicate is what was required, with its operand bound to placeholders. -/
structure Requirement.BoundIn (requirement : Requirement) (predicate : Predicate) : Prop where
  kind : predicate.kind = requirement.kind
  key : predicate.key = requirement.key
  connective : predicate.connective = requirement.connective
  values : predicate.bound.map Prod.snd = requirement.operand.values

namespace UpdateDraft

variable {log : List Assignment} {required : List Requirement} {draft grown : UpdateDraft}
  {before after supply : Supply}

/-- The condition of an update consists of what was required. -/
theorem Made.predicates (made : Made log required draft supply) :
    ∃ predicates : List Predicate, draft.condition = ⟨.and, predicates.map .predicate⟩ ∧
      List.Forall₂ Requirement.BoundIn required predicates := by
  induction made with
  | start => exact ⟨[], rfl, .nil⟩
  | meanwhile _ _ _ induction => exact induction
  | @call log required draft grown before after step _ ran induction =>
      rcases induction with ⟨predicates, condition, bound⟩
      rcases UpdateStep.run_cases ran with
        ⟨noPredicate, prepared, same, assigned⟩ | ⟨requirement, one, _, ran⟩
      · refine ⟨predicates, ?_, ?_⟩
        · rw [condition_assignAll step.assigns assigned, same.condition, condition]
        · rw [noPredicate, List.append_nil]
          exact bound
      · rcases require_cases ran with ⟨values, isOperand, _, rfl⟩
        refine ⟨predicates ++ [⟨requirement.kind, requirement.key, requirement.connective, values⟩],
          ?_, ?_⟩
        · simp [Condition.push, condition]
        · rw [one]
          exact List.rel_append bound (.cons ⟨rfl, rfl, rfl, isOperand⟩ .nil)

/-! ## Tokens -/

/-- Whether the tokens of a draft differ from each other, and from all that its mint has yet to
issue. -/
structure Apart (draft : UpdateDraft) (supply : Supply) : Prop where
  nodup : draft.tokens.Nodup
  indexed : ∀ token ∈ draft.tokens, ∃ index, index < draft.binder.mint.count supply ∧
    token = (draft.binder.mint.nth supply.randomWord index).token

theorem Apart.grew (apart : draft.Apart before)
    (injective : Function.Injective (draft.binder.mint.nth before.randomWord))
    (grew : draft.Grew before grown after) : grown.Apart after := by
  rcases grew.tokens with ⟨issues, drawn, tokens⟩
  have further := drawn.count_le draft.binder.mint
  have issuedTokens : (issues.map fun issue => issue.placeholder.token) =
      (issues.map Issue.placeholder).map Placeholder.token := by
    rw [List.map_map]
    rfl
  constructor
  · rw [tokens.nodup_iff, List.nodup_append, issuedTokens]
    refine ⟨apart.nodup, (drawn.nodup injective).map fun _ _ => Placeholder.token_injective, ?_⟩
    intro token old other new same
    subst same
    rcases apart.indexed token old with ⟨earlier, below, named⟩
    rw [List.map_map, List.mem_map] at new
    rcases new with ⟨issue, member, isToken⟩
    rcases drawn.indexed issue member with ⟨index, above, _, isNth⟩
    have sameIndex : earlier = index := by
      apply injective
      rw [← isNth]
      exact Placeholder.token_injective (named.symm.trans isToken.symm)
    omega
  · rw [grew.binder, drawn.randomWord_eq]
    intro token member
    rcases List.mem_append.mp (tokens.subset member) with old | new
    · rcases apart.indexed token old with ⟨index, below, named⟩
      exact ⟨index, Nat.lt_of_lt_of_le below further, named⟩
    · rcases List.mem_map.mp new with ⟨issue, issued, rfl⟩
      rcases drawn.indexed issue issued with ⟨index, _, below, isNth⟩
      exact ⟨index, below, by rw [isNth]⟩

/-- Nobody who draws from the same counter gets a token of the draft. -/
theorem Made.apart (made : Made log required draft supply)
    (differ : draft.binder.mint.source = .random → Function.Injective supply.randomWord) :
    draft.Apart supply := by
  induction made with
  | start =>
      constructor
      · exact List.nodup_nil
      · intro token member
        cases member
  | @meanwhile log required draft before after _ words further induction =>
      rw [words] at differ
      have apart := induction differ
      refine ⟨apart.nodup, ?_⟩
      intro token member
      rcases apart.indexed token member with ⟨index, below, named⟩
      rw [words]
      exact ⟨index, Nat.lt_of_lt_of_le below further, named⟩
  | @call log required draft grown before after step _ ran induction =>
      have grew := UpdateStep.grew_of_run ran
      rcases grew.tokens with ⟨issues, drawn, _⟩
      rw [grew.binder, drawn.randomWord_eq] at differ
      exact (induction differ).grew (Mint.nth_injective differ) grew

end UpdateDraft

/-! ## Inputs -/

/-- What the input of an update carries after a log of assignments and some requirements: a clause
for each attribute, and a predicate for each requirement. -/
structure UpdateInput.Carries (log : List Assignment) (required : List Requirement)
    (clauses : List (String × Placeholder × AttributeValue)) (predicates : List Predicate)
    (input : UpdateInput) : Prop where
  names (name : String) :
    name ∈ clauses.map Prod.fst ↔ ∃ assignment ∈ log, assignment.name = name
  ordered : clauses.Pairwise fun first second => utf8Bytes first.1 < utf8Bytes second.1
  outcomes : ∀ clause ∈ clauses, Assignment.outcome? log clause.1 = some clause.2
  updateExpression : input.updateExpression =
    if clauses = [] then none
    else some ("SET " ++ String.intercalate ", "
      (clauses.map fun clause => clause.1 ++ " = " ++ clause.2.1.token))
  requirements : List.Forall₂ Requirement.BoundIn required predicates
  conditionExpression : input.conditionExpression =
    Condition.render? ⟨.and, predicates.map .predicate⟩
  tokens : ((clauses.map fun clause => clause.2.1.token) ++
    predicates.flatMap Predicate.tokens).Nodup
  assigned : ∀ clause ∈ clauses,
    input.attributeValues.get? clause.2.1.token = some clause.2.2
  bound : ∀ predicate ∈ predicates, ∀ operand ∈ predicate.bound,
    input.attributeValues.get? operand.1.token = some operand.2
  size : input.attributeValues.size =
    clauses.length + (required.flatMap fun requirement => requirement.operand.values).length

theorem Requirement.flatMap_values {required : List Requirement} {predicates : List Predicate}
    (bound : List.Forall₂ Requirement.BoundIn required predicates) :
    (required.flatMap fun requirement => requirement.operand.values) =
      predicates.flatMap fun predicate => predicate.bound.map Prod.snd := by
  induction bound with
  | nil => rfl
  | cons first _ induction => rw [List.flatMap_cons, List.flatMap_cons, induction, first.values]

theorem Predicate.tokens_eq (predicate : Predicate) :
    predicate.tokens = predicate.tokenValues.map Prod.fst := by
  simp [tokens, placeholders, tokenValues]

namespace UpdateDraft

variable {log : List Assignment} {required : List Requirement} {draft : UpdateDraft}
  {supply : Supply}

theorem tokenValues_of_predicates {predicates : List Predicate}
    (condition : draft.condition = ⟨.and, predicates.map .predicate⟩) :
    draft.tokenValues =
      (draft.assignments.entries.map fun clause => (clause.2.1.token, clause.2.2)) ++
        predicates.flatMap Predicate.tokenValues := by
  rw [tokenValues, Condition.tokenValues_eq, condition, Dictionary.values, List.map_map,
    List.flatMap_map]
  rfl

/-- Updates assign each attribute its last value under its first placeholder, in the order of the
names, and bind the operands of their conditions to placeholders of their own. -/
theorem Made.exists_carries (made : Made log required draft supply)
    (differ : draft.binder.mint.source = .random → Function.Injective supply.randomWord) :
    ∃ clauses predicates, draft.toUpdateInput.Carries log required clauses predicates := by
  rcases made.predicates with ⟨predicates, condition, bound⟩
  have tokenValues := draft.tokenValues_of_predicates condition
  have differs := (made.apart differ).nodup
  rw [tokens] at differs
  have stored (token : String) (value : AttributeValue) (member : (token, value) ∈ draft.tokenValues) :
      draft.toUpdateInput.attributeValues.get? token = some value :=
    Dictionary.get?_eq_some_iff.mpr ((Dictionary.perm_ofList differs).symm.subset member)
  refine ⟨draft.assignments.entries, predicates, ?_⟩
  constructor
  case names =>
    intro name
    rw [← Assignment.exists_outcome?_iff, ← made.outcomes name, ← Dictionary.mem_names_iff]
    rfl
  case ordered => exact draft.assignments.ordered.imp utf8Bytes_lt_of_lt
  case outcomes =>
    intro clause member
    rw [← made.outcomes clause.1]
    exact Dictionary.get?_eq_some_iff.mpr member
  case updateExpression =>
    simp only [toUpdateInput, updateExpression?, Dictionary.isEmpty, List.isEmpty_iff]
    rfl
  case requirements => exact bound
  case conditionExpression => rw [toUpdateInput, condition]
  case tokens =>
    have sameTokens : draft.tokenValues.map Prod.fst =
        (draft.assignments.entries.map fun clause => clause.2.1.token) ++
          predicates.flatMap Predicate.tokens := by
      rw [tokenValues, List.map_append, List.map_map, List.map_flatMap,
        funext Predicate.tokens_eq]
      rfl
    rw [← sameTokens]
    exact differs
  case assigned =>
    intro clause member
    apply stored
    rw [tokenValues]
    exact List.mem_append_left _ (List.mem_map_of_mem member)
  case bound =>
    intro predicate member operand inPredicate
    apply stored
    rw [tokenValues]
    exact List.mem_append_right _
      (List.mem_flatMap.mpr ⟨predicate, member, List.mem_map_of_mem inPredicate⟩)
  case size =>
    have sameSize : draft.toUpdateInput.attributeValues.size = draft.tokenValues.length :=
      (Dictionary.perm_ofList differs).length_eq
    rw [sameSize, tokenValues, Requirement.flatMap_values bound]
    simp [List.length_flatMap, Predicate.tokenValues]

/-- An attribute is assigned, is assigned again along with another one, and others draw before the
condition does. -/
theorem exists_carries_of_reassigned :
    ∃ log required draft supply,
      UpdateDraft.Made log required draft supply ∧
        draft.binder.mint.source = .sequence 0 ∧
        draft.toUpdateInput.updateExpression = some "SET level = :p2, rank = :p1" ∧
        draft.toUpdateInput.conditionExpression = some "(active = :p4)" ∧
        ∃ clauses predicates, draft.toUpdateInput.Carries log required clauses predicates := by
  have first := Made.call (.assign "rank" (.string "low"))
    (.start "games" ⟨⟨"p", .sequence 0⟩, ⟨false⟩⟩ (.initial toString)) rfl
  have second := Made.call
    (.setAll (.json (.object [("rank", .string "top"), ("level", .string "last")]))) first rfl
  have later := second.others
    (show Mint.Issues ⟨"p", .sequence 0⟩ _ _ _ from .next none rfl (.none _))
  have made := Made.call (.require .and .eq "active" (.scalar (.bool true))) later rfl
  exact ⟨_, _, _, _, made, rfl, by decide, by decide, made.exists_carries nofun⟩

end UpdateDraft

end ItemQuery
