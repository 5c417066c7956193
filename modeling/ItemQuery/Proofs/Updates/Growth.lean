import ItemQuery.Proofs.Bindings
import ItemQuery.Proofs.Drawing

/-!
What a step adds to the draft of an update.

A step either assigns values to some attributes, one after the other, or appends one predicate to
the condition (`UpdateStep.run_cases`). In both cases the tokens of the draft stay, and those come
to them that the mint of the draft issued for the step, each once (`UpdateStep.grew_of_run`).
-/

namespace ItemQuery

/-! ## Dictionaries -/

namespace Dictionary

variable {α : Type u} {β : Type v} {name : String} {value held : α}

theorem nodup_entries (dictionary : Dictionary α) : dictionary.entries.Nodup := by
  apply dictionary.ordered.imp
  intro first second before same
  rw [same] at before
  exact String.lt_irrefl _ before

/-- A name that is stored for the first time adds one entry. -/
theorem perm_entries_insert {dictionary : Dictionary α} (absent : dictionary.get? name = none) :
    (dictionary.insert name value).entries.Perm ((name, value) :: dictionary.entries) := by
  have new (other : α) : (name, other) ∉ dictionary.entries := by
    rw [← get?_eq_some_iff, absent]
    exact Option.some_ne_none other ∘ Eq.symm
  rw [List.perm_ext_iff_of_nodup (nodup_entries _)
    (List.nodup_cons.mpr ⟨new value, dictionary.nodup_entries⟩)]
  rintro ⟨wanted, found⟩
  rw [← get?_eq_some_iff, get?_insert, List.mem_cons, ← get?_eq_some_iff, Prod.mk.injEq]
  by_cases same : wanted = name
  · rw [if_pos same, same, absent]
    simp [eq_comm]
  · simp [same]

/-- Where a value is replaced, nothing changes in what the old and the new one have in common. -/
theorem map_insert_of_get? (common : α → β) {dictionary : Dictionary α}
    (found : dictionary.get? name = some held) (same : common value = common held) :
    (dictionary.insert name value).map common = dictionary.map common := by
  apply ext_get?
  intro wanted
  rw [get?_map, get?_map, get?_insert]
  split
  · next sameName => rw [sameName, found, Option.map_some, Option.map_some, same]
  · rfl

/-- Entries with names of their own are all kept. -/
theorem perm_ofList {entries : List (String × α)} (names : (entries.map Prod.fst).Nodup) :
    (ofList entries).entries.Perm entries := by
  rw [List.perm_ext_iff_of_nodup (nodup_entries _) names.of_map]
  intro entry
  rw [← get?_eq_some_iff]
  constructor
  · exact mem_of_get?_ofList
  · intro member
    apply get?_ofList_of_forall member
    intro other alsoMember
    have same := List.inj_on_of_nodup_map names alsoMember member rfl
    rw [← same]

end Dictionary

/-! ## Growth -/

namespace UpdateDraft

def tokens (draft : UpdateDraft) : List String := draft.tokenValues.map Prod.fst

/-- The tokens of the assignments alone. -/
def assignedTokens (draft : UpdateDraft) : Dictionary String :=
  draft.assignments.map fun assignment => assignment.1.token

theorem tokens_eq (draft : UpdateDraft) :
    draft.tokens = draft.assignedTokens.values ++ draft.condition.tokenValues.map Prod.fst := by
  simp [tokens, tokenValues, assignedTokens, Dictionary.values, Dictionary.map]

/-- Between two states of a draft its tokens stay, and those come to them that its mint issued. -/
structure Grew (draft : UpdateDraft) (before : Supply) (grown : UpdateDraft) (after : Supply) :
    Prop where
  binder : grown.binder = draft.binder
  tokens : ∃ issues, draft.binder.mint.Issues before issues after ∧
    grown.tokens.Perm (draft.tokens ++ issues.map fun issue => issue.placeholder.token)

variable {draft middle grown : UpdateDraft} {before between after : Supply}

theorem Grew.of_same (binder : grown.binder = draft.binder) (tokens : grown.tokens = draft.tokens)
    (supply : Supply) : draft.Grew supply grown supply where
  binder
  tokens := ⟨[], .none supply, by rw [tokens, List.map_nil, List.append_nil]⟩

theorem Grew.trans (first : draft.Grew before middle between)
    (second : middle.Grew between grown after) : draft.Grew before grown after := by
  rcases first with ⟨firstBinder, issues, drawn, tokens⟩
  rcases second with ⟨secondBinder, more, drawnMore, moreTokens⟩
  rw [firstBinder] at drawnMore
  refine ⟨secondBinder.trans firstBinder, issues ++ more, drawn.append drawnMore, ?_⟩
  rw [List.map_append, ← List.append_assoc]
  exact moreTokens.trans (tokens.append_right _)

/-! ## Assignments -/

/-- An attribute that is assigned already keeps its placeholder and nothing is drawn; another one
gets the next placeholder of the mint. -/
theorem assign_cases {name : String} {value : AttributeValue}
    (ran : (draft.assign name value).run before = .ok grown after) :
    ∃ placeholder,
      grown = { draft with
        assignments := draft.assignments.insert name (placeholder, value) } ∧
      ((∃ held, draft.assignments.get? name = some (placeholder, held)) ∧ after = before ∨
        draft.assignments.get? name = none ∧
          draft.binder.mint.next.run before = .ok placeholder after) := by
  unfold assign at ran
  split at ran
  · next placeholder held found =>
      cases ran
      exact ⟨placeholder, rfl, .inl ⟨⟨held, found⟩, rfl⟩⟩
  · next absent =>
      rcases Draw.run_bind_eq_ok.mp ran with ⟨placeholder, middle, issued, finished⟩
      cases finished
      exact ⟨placeholder, rfl, .inr ⟨absent, issued⟩⟩

theorem grew_assign {name : String} {value : AttributeValue}
    (ran : (draft.assign name value).run before = .ok grown after) :
    draft.Grew before grown after := by
  rcases assign_cases ran with ⟨placeholder, rfl, ⟨⟨held, found⟩, rfl⟩ | ⟨absent, issued⟩⟩
  · have sameTokens : (draft.assignments.insert name (placeholder, value)).map
        (fun assignment => assignment.1.token) = draft.assignedTokens :=
      Dictionary.map_insert_of_get? _ found rfl
    refine ⟨rfl, [], .none _, ?_⟩
    rw [tokens_eq, tokens_eq, assignedTokens, sameTokens, List.map_nil, List.append_nil]
  · have notAssigned : draft.assignedTokens.get? name = none := by
      rw [assignedTokens, Dictionary.get?_map, absent, Option.map_none]
    have inserted : (draft.assignedTokens.insert name placeholder.token).values.Perm
        (placeholder.token :: draft.assignedTokens.values) :=
      (Dictionary.perm_entries_insert notAssigned).map Prod.snd
    refine ⟨rfl, [⟨draft.binder.mint, placeholder, some value⟩], .next _ issued (.none after), ?_⟩
    rw [tokens_eq, tokens_eq, assignedTokens, Dictionary.map_insert]
    exact (inserted.append_right _).trans (List.perm_append_singleton _ _).symm

theorem grew_assignAll : ∀ (assignments : List (String × AttributeValue))
    {draft grown : UpdateDraft} {before after : Supply},
    (draft.assignAll assignments).run before = .ok grown after → draft.Grew before grown after
  | [], _, _, _, _, ran => by
      cases ran
      exact .of_same rfl rfl _
  | (name, value) :: rest, _, _, _, _, ran => by
      rcases Draw.run_bind_eq_ok.mp ran with ⟨assigned, middle, first, finished⟩
      exact (grew_assign first).trans (grew_assignAll rest finished)

/-! ## Conditions -/

/-- A predicate that is required binds the values of its operand to what was issued for it. -/
theorem require_cases {connective : Connective} {kind : PredicateKind} {key : String}
    {operand : Operand}
    (ran : (draft.require connective kind key operand).run before = .ok grown after) :
    ∃ bound : List (Placeholder × AttributeValue), bound.map Prod.snd = operand.values ∧
      draft.binder.mint.Issues before (draft.binder.mint.issuesOf bound) after ∧
      grown = { draft with
        condition := draft.condition.push (.predicate ⟨kind, key, connective, bound⟩) } := by
  rcases Draw.run_bind_eq_ok.mp ran with ⟨predicate, middle, created, finished⟩
  cases finished
  rcases Predicate.of_run_create created with ⟨_, isPredicate, issued, values⟩
  refine ⟨predicate.bound, values, issued, ?_⟩
  rw [← isPredicate]

theorem grew_require {connective : Connective} {kind : PredicateKind} {key : String}
    {operand : Operand}
    (ran : (draft.require connective kind key operand).run before = .ok grown after) :
    draft.Grew before grown after := by
  rcases require_cases ran with ⟨bound, _, issued, rfl⟩
  refine ⟨rfl, _, issued, ?_⟩
  have bindings : ((Entry.predicate ⟨kind, key, connective, bound⟩).tokenValues.map Prod.fst) =
      (draft.binder.mint.issuesOf bound).map fun issue => issue.placeholder.token := by
    rw [Entry.tokenValues, Predicate.tokenValues, Mint.issuesOf, List.map_map, List.map_map]
    rfl
  rw [tokens_eq, tokens_eq, Condition.tokenValues_push, List.map_append, bindings,
    ← List.append_assoc]
  exact .refl _

end UpdateDraft

/-! ## Steps -/

/-- A predicate that an update is to depend on. -/
structure Requirement where
  connective : Connective
  kind : PredicateKind
  key : String
  operand : Operand

namespace UpdateStep

/-- The values that a step assigns to attributes, in the order in which it does. -/
def assigns : UpdateStep → List (String × AttributeValue)
  | .set name native =>
      match AttributeValue.marshal native with
      | .ok value => [(name, value)]
      | .error _ => []
  | .assign name value => [(name, value)]
  | .setAll native | .setKeyed _ native =>
      match Item.marshal native with
      | .ok item => item.entries
      | .error _ => []
  | .diff _ first second =>
      match Item.marshal first, Item.marshal second with
      | .ok old, .ok new => (UpdateDraft.changes old new).entries
      | _, _ => []
  | _ => []

/-- The predicates that a step requires. -/
def requires : UpdateStep → List Requirement
  | .require connective kind name operand => [⟨connective, kind, name, operand⟩]
  | _ => []

variable {draft grown : UpdateDraft} {before after : Supply} {step : UpdateStep}

/-- Two drafts with the same mint, assignments and condition. -/
structure Prepared (draft prepared : UpdateDraft) : Prop where
  binder : prepared.binder = draft.binder
  assignments : prepared.assignments = draft.assignments
  condition : prepared.condition = draft.condition

theorem Prepared.tokens {prepared : UpdateDraft} (same : Prepared draft prepared) :
    prepared.tokens = draft.tokens := by
  rw [UpdateDraft.tokens, UpdateDraft.tokenValues, same.assignments, same.condition]
  rfl

theorem prepared_of_keyOf {native : Native} {keyed : UpdateDraft}
    (ran : draft.keyOf native = .ok keyed) : Prepared draft keyed := by
  unfold UpdateDraft.keyOf at ran
  cases marshaled : Item.marshal native with
  | error error =>
      rw [marshaled] at ran
      cases ran
  | ok key =>
      rw [marshaled] at ran
      cases ran
      exact ⟨rfl, rfl, rfl⟩

/-- Whether a run only assigns values, to a draft that may have got another key before. -/
def OnlyAssigns (assignments : List (String × AttributeValue)) (draft : UpdateDraft)
    (before : Supply) (grown : UpdateDraft) (after : Supply) : Prop :=
  ∃ prepared, Prepared draft prepared ∧
    (prepared.assignAll assignments).run before = .ok grown after

theorem onlyAssigns_nil (same : Prepared draft grown) (supply : Supply) :
    OnlyAssigns [] draft supply grown supply :=
  ⟨grown, same, rfl⟩

theorem onlyAssigns_single {name : String} {value : AttributeValue}
    (ran : (draft.assign name value).run before = .ok grown after) :
    OnlyAssigns [(name, value)] draft before grown after :=
  ⟨draft, ⟨rfl, rfl, rfl⟩, Draw.run_bind_eq_ok.mpr ⟨grown, after, ran, rfl⟩⟩

theorem onlyAssigns_setAll {native : Native} {prepared : UpdateDraft}
    (same : Prepared draft prepared) (ran : (prepared.setAll native).run before = .ok grown after) :
    OnlyAssigns (setAll native).assigns draft before grown after := by
  rcases Draw.run_bind_eq_ok.mp ran with ⟨item, middle, marshaled, finished⟩
  rcases Draw.run_ofMarshal_eq_ok.mp marshaled with ⟨isItem, rfl⟩
  simp only [assigns, isItem]
  exact ⟨prepared, same, finished⟩

/-- What a step that succeeds does to a draft. -/
theorem run_cases (ran : (step.run draft).run before = .ok grown after) :
    (step.requires = [] ∧ OnlyAssigns step.assigns draft before grown after) ∨
      ∃ requirement, step.requires = [requirement] ∧ step.assigns = [] ∧
        (draft.require requirement.connective requirement.kind requirement.key
          requirement.operand).run before = .ok grown after := by
  cases step with
  | keyOf native =>
      rcases Draw.run_ofMarshal_eq_ok.mp ran with ⟨keyed, rfl⟩
      exact .inl ⟨rfl, onlyAssigns_nil (prepared_of_keyOf keyed) _⟩
  | key | attributeNames | returnValues =>
      cases ran
      refine .inl ⟨rfl, onlyAssigns_nil ?_ before⟩
      exact ⟨rfl, rfl, rfl⟩
  | set name native =>
      rcases Draw.run_bind_eq_ok.mp ran with ⟨value, middle, marshaled, finished⟩
      rcases Draw.run_ofMarshal_eq_ok.mp marshaled with ⟨isValue, rfl⟩
      refine .inl ⟨rfl, ?_⟩
      simp only [assigns, isValue]
      exact onlyAssigns_single finished
  | assign name value => exact .inl ⟨rfl, onlyAssigns_single ran⟩
  | setAll values => exact .inl ⟨rfl, onlyAssigns_setAll ⟨rfl, rfl, rfl⟩ ran⟩
  | setKeyed native values =>
      rcases Draw.run_bind_eq_ok.mp ran with ⟨keyed, middle, marshaled, finished⟩
      rcases Draw.run_ofMarshal_eq_ok.mp marshaled with ⟨isKeyed, rfl⟩
      exact .inl ⟨rfl, onlyAssigns_setAll (prepared_of_keyOf isKeyed) finished⟩
  | diff native first second =>
      rcases Draw.run_bind_eq_ok.mp ran with ⟨old, _, marshaled, ran⟩
      rcases Draw.run_ofMarshal_eq_ok.mp marshaled with ⟨isOld, rfl⟩
      rcases Draw.run_bind_eq_ok.mp ran with ⟨new, _, marshaled, ran⟩
      rcases Draw.run_ofMarshal_eq_ok.mp marshaled with ⟨isNew, rfl⟩
      rcases Draw.run_bind_eq_ok.mp ran with ⟨keyed, _, marshaled, finished⟩
      rcases Draw.run_ofMarshal_eq_ok.mp marshaled with ⟨isKeyed, rfl⟩
      refine .inl ⟨rfl, ?_⟩
      simp only [assigns, isOld, isNew]
      exact ⟨keyed, prepared_of_keyOf isKeyed, finished⟩
  | require connective kind name operand =>
      exact .inr ⟨⟨connective, kind, name, operand⟩, rfl, rfl, ran⟩

theorem grew_of_run (ran : (step.run draft).run before = .ok grown after) :
    draft.Grew before grown after := by
  rcases run_cases ran with ⟨_, prepared, same, assigned⟩ | ⟨requirement, _, _, required⟩
  · exact (UpdateDraft.Grew.of_same same.binder same.tokens before).trans
      (UpdateDraft.grew_assignAll step.assigns assigned)
  · exact UpdateDraft.grew_require required

end UpdateStep

end ItemQuery
