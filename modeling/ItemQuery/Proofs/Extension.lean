import ItemQuery.Proofs.Embedding
import ItemQuery.Proofs.Integrity
import ItemQuery.Proofs.Translation

/-!
Extensions: the operations that append to the filter of a draft.

An extension that succeeds leaves the entries of the filter where they are, and appends one under the
connective that was asked for, or one for each of several specifications, or none where there is
nothing to take in. Nothing else of the draft changes, whatever was done to the branch that a group
was built on (`Extension.pushAll_and_filterExpression_of_run`). So the text of the filter grows
before its last parenthesis only.
-/

namespace ItemQuery

/-! ## Text -/

namespace Entry

theorem renderRest_append (entries added : List Entry) :
    renderRest (entries ++ added) = renderRest entries ++ renderRest added := by
  induction entries with
  | nil => simp [renderRest]
  | cons entry rest induction =>
      rw [List.cons_append, renderRest, renderRest, induction, ← String.append_assoc]

theorem renderAll_append {entries : List Entry} (nonempty : entries ≠ []) (added : List Entry) :
    renderAll (entries ++ added) = renderAll entries ++ renderRest added := by
  cases entries with
  | nil => exact absurd rfl nonempty
  | cons first rest =>
      rw [List.cons_append, renderAll, renderAll, renderRest_append, ← String.append_assoc]

end Entry

/-- A condition that shows a text shows more of it before the last parenthesis when entries come
behind its own. -/
theorem Condition.render?_pushAll {condition : Condition} {text : String}
    (shown : condition.render? = some text) (added : List Entry) :
    ∃ front, text = front ++ ")" ∧
      (condition.pushAll added).render? = some (front ++ Entry.renderRest added ++ ")") := by
  rcases condition with ⟨joined, entries⟩
  have nonempty : entries ≠ [] := by
    rintro rfl
    cases shown
  have shows : ∀ entries : List Entry, entries ≠ [] →
      (Condition.mk joined entries).render? = some ("(" ++ Entry.renderAll entries ++ ")") := by
    intro entries nonempty
    simp [render?, isEmpty, nonempty, render, toEntry, Entry.render]
  rw [shows entries nonempty] at shown
  refine ⟨"(" ++ Entry.renderAll entries, (Option.some.inj shown).symm, ?_⟩
  rw [pushAll, shows (entries ++ added) (by simp [nonempty]), Entry.renderAll_append nonempty,
    ← String.append_assoc]

theorem ReadDraft.filterExpression?_compile (draft : ReadDraft) :
    (draft.compile .empty).filterExpression? = draft.filter.render? := by
  rw [Request.filterExpression?, Request.text?, draft.get?_filterExpression]
  cases draft.filter.render? <;> rfl

/-! ## Extensions -/

/-- An operation that appends to the filter of a draft. A verb is `restrict` with its connective and
kind. The function that builds a group may do anything with the branch that it is given, and may
hand over any draft. -/
inductive Extension
  | restrict (connective : Connective) (kind : PredicateKind) (key : String) (operand : Operand)
  | call (verbName key : String) (operand : Operand)
  | apply (specification : Specification)
  | applyAll (specifications : List Specification)
  | embed (other : ReadDraft) (connective : Connective)
  | nest (connective : Connective) (condition : Condition)
  | group (connective : Connective) (build : ReadDraft → Draw ReadDraft)

namespace Extension

def run : Extension → ReadDraft → Draw ReadDraft
  | .restrict connective kind key operand, draft => draft.restrict connective kind key operand
  | .call verbName key operand, draft => draft.call verbName key operand
  | .apply specification, draft => draft.apply specification
  | .applyAll specifications, draft => draft.applyAll specifications
  | .embed other connective, draft => .ofExcept (draft.embed other connective)
  | .nest connective condition, draft => pure (draft.nest connective condition)
  | .group connective build, draft => draft.group connective build

/-- What a condition is joined by that is taken in as one entry, unless it is empty. -/
def connectivesOf (connective : Connective) (condition : Condition) : List Connective :=
  if condition.isEmpty then [] else [connective]

/-- The connectives of the entries that an extension appends. Those of a group depend on what is
built for it. -/
def connectives : Extension → ReadDraft → Supply → List Connective
  | .restrict connective .., _, _ => [connective]
  | .call verbName _ _, _, _ =>
      match Verb.ofName verbName with
      | .ok verb => [verb.connective]
      | .error _ => []
  | .apply specification, _, _ => [specification.connective]
  | .applyAll specifications, _, _ => specifications.map Specification.connective
  | .embed other connective, _, _ => connectivesOf connective other.filter
  | .nest connective condition, _, _ => connectivesOf connective condition
  | .group connective build, draft, supply =>
      match (build draft.branch).run supply with
      | .ok child _ => connectivesOf connective child.filter
      | .error _ _ => []

/-- Run extensions one after the other. -/
def runAll : List Extension → ReadDraft → Draw ReadDraft
  | [], draft => pure draft
  | extension :: rest, draft => do
      let grown ← extension.run draft
      runAll rest grown

end Extension

/-! ## What is appended -/

namespace ReadDraft

/-- Whether a draft differs from another only in entries with some connectives at the end of its
filter. -/
def Extends (draft : ReadDraft) (connectives : List Connective) (grown : ReadDraft) : Prop :=
  ∃ added, added.map Entry.connective = connectives ∧ grown = draft.pushAll added

variable {draft grown : ReadDraft} {before after : Supply}

theorem pushAll_nil (draft : ReadDraft) : draft.pushAll [] = draft := by
  simp [pushAll, Condition.pushAll]

theorem Extends.refl (draft : ReadDraft) : draft.Extends [] draft :=
  ⟨[], rfl, draft.pushAll_nil.symm⟩

theorem extends_push (draft : ReadDraft) (entry : Entry) :
    draft.Extends [entry.connective] (draft.push entry) :=
  ⟨[entry], rfl, rfl⟩

theorem Extends.trans {middle : ReadDraft} {connectives others : List Connective}
    (first : draft.Extends connectives middle) (second : middle.Extends others grown) :
    draft.Extends (connectives ++ others) grown := by
  rcases first with ⟨added, rfl, rfl⟩
  rcases second with ⟨more, rfl, rfl⟩
  exact ⟨added ++ more, List.map_append, draft.pushAll_pushAll added more⟩

/-- A predicate is created under the connective that it is asked for. -/
theorem extends_restrict {connective : Connective} {kind : PredicateKind} {key : String}
    {operand : Operand}
    (ran : (draft.restrict connective kind key operand).run before = .ok grown after) :
    draft.Extends [connective] grown := by
  rcases Draw.run_bind_eq_ok.mp ran with ⟨predicate, middle, created, finished⟩
  cases finished
  rcases Predicate.of_run_create created with ⟨_, equal, _, _⟩
  have sameConnective : (Entry.predicate predicate).connective = connective := by
    rw [equal]
    rfl
  rw [← sameConnective]
  exact draft.extends_push _

theorem extends_apply {specification : Specification}
    (ran : (draft.apply specification).run before = .ok grown after) :
    draft.Extends [specification.connective] grown := by
  unfold apply Binder.specified Binder.named at ran
  cases named : PredicateKind.ofName? specification.kindName.toList with
  | none =>
      rw [named] at ran
      cases ran
  | some kind =>
      rw [named] at ran
      exact extends_restrict ran

theorem extends_applyAll : ∀ (specifications : List Specification) {draft grown : ReadDraft}
    {before after : Supply}, (draft.applyAll specifications).run before = .ok grown after →
      draft.Extends (specifications.map Specification.connective) grown
  | [], draft, _, _, _, ran => by
      cases ran
      exact .refl draft
  | _ :: rest, _, _, _, _, ran => by
      rcases Draw.run_bind_eq_ok.mp ran with ⟨applied, middle, first, later⟩
      exact (extends_apply first).trans (extends_applyAll rest later)

theorem extends_embed {other : ReadDraft} {connective : Connective}
    (embedded : draft.embed other connective = .ok grown) :
    draft.Extends (Extension.connectivesOf connective other.filter) grown := by
  rcases of_embed embedded with ⟨isEmpty, rfl⟩ | ⟨nonempty, _, rfl⟩
  · rw [Extension.connectivesOf, if_pos isEmpty]
    exact .refl grown
  · rw [Extension.connectivesOf, if_neg (by simp [nonempty])]
    exact draft.extends_push (.fragment (other.filter.toEntry.capture connective))

theorem extends_nest (draft : ReadDraft) (connective : Connective) (condition : Condition) :
    draft.Extends (Extension.connectivesOf connective condition)
      (draft.nest connective condition) := by
  unfold Extension.connectivesOf nest
  split
  · exact .refl draft
  · exact draft.extends_push (condition.toEntry.withConnective connective)

end ReadDraft

namespace Extension

variable {draft grown : ReadDraft} {before after : Supply}

/-- What an extension that succeeds does to a draft. -/
theorem extends_of_run : ∀ {extension : Extension},
    (extension.run draft).run before = .ok grown after →
      draft.Extends (extension.connectives draft before) grown
  | .restrict .., ran => ReadDraft.extends_restrict ran
  | .call verbName key operand, ran => by
      rcases Draw.run_bind_eq_ok.mp ran with ⟨verb, middle, named, finished⟩
      rcases Draw.run_ofExcept_eq_ok.mp named with ⟨found, rfl⟩
      rw [connectives, found]
      exact ReadDraft.extends_restrict finished
  | .apply _, ran => ReadDraft.extends_apply ran
  | .applyAll specifications, ran => ReadDraft.extends_applyAll specifications ran
  | .embed _ _, ran => ReadDraft.extends_embed (Draw.run_ofExcept_eq_ok.mp ran).1
  | .nest connective condition, ran => by
      cases ran
      exact draft.extends_nest connective condition
  | .group connective build, ran => by
      rcases Draw.run_bind_eq_ok.mp ran with ⟨child, middle, built, finished⟩
      cases finished
      rw [connectives, built]
      exact draft.extends_nest connective child.filter

theorem extends_of_runAll : ∀ (extensions : List Extension) {draft grown : ReadDraft}
    {before after : Supply}, (runAll extensions draft).run before = .ok grown after →
      ∃ connectives, draft.Extends connectives grown
  | [], draft, _, _, _, ran => by
      cases ran
      exact ⟨[], .refl draft⟩
  | _ :: rest, _, _, _, _, ran => by
      rcases Draw.run_bind_eq_ok.mp ran with ⟨middle, _, first, later⟩
      rcases extends_of_runAll rest later with ⟨connectives, extension⟩
      exact ⟨_, (extends_of_run first).trans extension⟩

/-- An extension that succeeds appends entries with the connectives that were asked for, and changes
nothing else of the draft; the text of a filter that was there grows before its last parenthesis. A
run of several extensions also appends only. -/
theorem pushAll_and_filterExpression_of_run :
    (∀ (extension : Extension) (draft grown : ReadDraft) (before after : Supply),
      (extension.run draft).run before = .ok grown after →
        ∃ added, added.map Entry.connective = extension.connectives draft before ∧
          grown = { draft with
            filter := { draft.filter with entries := draft.filter.entries ++ added } } ∧
          ∀ text, (draft.compile .empty).filterExpression? = some text →
            ∃ front, text = front ++ ")" ∧ (grown.compile .empty).filterExpression? =
              some (front ++ Entry.renderRest added ++ ")")) ∧
    ∀ (extensions : List Extension) (draft grown : ReadDraft) (before after : Supply),
      (runAll extensions draft).run before = .ok grown after →
        ∃ added, grown = { draft with
          filter := { draft.filter with entries := draft.filter.entries ++ added } } := by
  constructor
  · intro extension draft grown before after ran
    rcases extends_of_run ran with ⟨added, connectives, rfl⟩
    refine ⟨added, connectives, rfl, ?_⟩
    intro text shown
    rw [ReadDraft.filterExpression?_compile] at shown ⊢
    exact Condition.render?_pushAll shown added
  · intro extensions draft grown before after ran
    rcases extends_of_runAll extensions ran with ⟨_, added, _, rfl⟩
    exact ⟨added, rfl⟩

/-! ## A group that is built on its own terms -/

/-- The games of one owner that are rated. -/
def ownRatedGames : ReadDraft :=
  { gamesTable.query with
    target := .query ⟨.and, [.predicate ⟨.eq, "owner", .and, [(⟨"p2"⟩, .string "kim")]⟩]⟩ none
    filter := ratedGames.filter }

/-- The function that builds the group sets an index, a limit and a key condition on the branch, and
appends one predicate. -/
def selfWilledGroup : Extension :=
  .group .or fun branch => do
    let lost ← branch.restrict .and .eq "lost" (.scalar (.bool true))
    let keyed ← lost.keyCondition .eq "owner" (.string "lee")
    return { keyed with indexName := some "byOwner", limit := some 5 }

theorem pushAll_and_filterExpression_of_run_selfWilledGroup :
    ∃ grown after, (selfWilledGroup.run ownRatedGames).run gamesStage.supply = .ok grown after ∧
      grown.target = ownRatedGames.target ∧ grown.indexName = none ∧ grown.limit = none ∧
      (grown.compile .empty).filterExpression? = some "(rated = :p1 or (lost = :p4))" ∧
      ∃ more last, (runAll [selfWilledGroup, .nest .and .empty] ownRatedGames).run
          gamesStage.supply = .ok more last ∧ more.limit = none := by
  rcases pushAll_and_filterExpression_of_run with ⟨one, several⟩
  rcases one selfWilledGroup ownRatedGames _ gamesStage.supply _ rfl with
    ⟨added, _, same, shows⟩
  refine ⟨_, _, rfl, ?_, ?_, ?_, ?_, ?_⟩
  · rw [same]
  · rw [same]
    rfl
  · rw [same]
    rfl
  · decide
  · rcases several [selfWilledGroup, .nest .and .empty] ownRatedGames _ gamesStage.supply _ rfl with
      ⟨more, sameAll⟩
    refine ⟨_, _, rfl, ?_⟩
    rw [sameAll]
    rfl

end Extension

end ItemQuery
