import Mathlib.Data.List.Forall2
import ItemQuery.Proofs.Clause
import ItemQuery.Proofs.Fields
import ItemQuery.Proofs.Predicate

/-!
Scripts of filter steps against their translation.

Running a script on an empty scan gives the text of its clauses and binds the numbers in the text to
the values of the clauses, in one order (`compile_of_clauses`). The steps of the run append entries
that read as the phrases of the clauses and bind the numbers that come next; one induction over the
script carries both.
-/

namespace ItemQuery

/-! ## Entries that read as phrases -/

/-- Whether an entry reads as a phrase and is joined by its connective. -/
def Entry.ReadsAs (entry : Entry) (said : Connective × Phrase) : Prop :=
  entry.connective = said.1 ∧ entry.render = said.2.text

theorem Entry.renderRest_of_readsAs {entries : List Entry} {said : List (Connective × Phrase)}
    (readsAs : List.Forall₂ Entry.ReadsAs entries said) :
    Entry.renderRest entries = Phrase.textOfRest said := by
  induction readsAs with
  | nil => rfl
  | @cons entry phrase rest others first _ induction =>
      rw [Entry.renderRest, Phrase.textOfRest, first.1, first.2, induction]

theorem Entry.render_group_of_readsAs {first : Entry} {rest : List Entry} {joined : Connective}
    {said : List (Connective × Phrase)}
    (readsAs : List.Forall₂ Entry.ReadsAs (first :: rest) said) :
    ∃ phrase, Phrase.ofJoined? said = some phrase ∧
      (Entry.group joined (first :: rest)).render = phrase.text := by
  cases readsAs with
  | cons head tail =>
      refine ⟨_, rfl, ?_⟩
      rw [Entry.render, Entry.renderAll, Phrase.text, head.2, Entry.renderRest_of_readsAs tail]

theorem Condition.render?_of_readsAs {condition : Condition} {said : List (Connective × Phrase)}
    (readsAs : List.Forall₂ Entry.ReadsAs condition.entries said) :
    condition.render? = (Phrase.ofJoined? said).map Phrase.text := by
  rcases condition with ⟨joined, entries⟩
  cases entries with
  | nil => cases readsAs; rfl
  | cons first rest =>
      rcases Entry.render_group_of_readsAs readsAs with ⟨phrase, found, text⟩
      rw [found]
      exact congrArg some text

/-! ## Scripts run on drafts -/

def Mint.tokenValuesAbove (mint : Mint) (number : Nat) (values : List AttributeValue) :
    List (String × AttributeValue) :=
  (mint.boundAbove number values).map fun entry => (entry.1.token, entry.2)

/-- Whether entries read as the clauses say and bind the values of the clauses to their numbers. -/
structure Translates (mint : Mint) (clauses : List Clause) (number : Nat) (entries : List Entry) :
    Prop where
  readsAs : List.Forall₂ Entry.ReadsAs entries (Clause.phrasesOfAll mint clauses number)
  binds : entries.flatMap Entry.tokenValues =
    mint.tokenValuesAbove number (Clause.valuesOfAll clauses)

namespace Translates

variable {mint : Mint} {number : Nat}

theorem cons {clause : Clause} {rest : List Clause} {entries others : List Entry}
    (first : Translates mint [clause] number entries)
    (later : Translates mint rest (number + clause.values.length) others) :
    Translates mint (clause :: rest) number (entries ++ others) where
  readsAs := by
    have readsAs := first.readsAs
    rw [Clause.phrasesOfAll, Clause.phrasesOfAll, List.append_nil] at readsAs
    exact List.rel_append readsAs later.readsAs
  binds := by
    rw [List.flatMap_append, first.binds, later.binds, Clause.valuesOfAll_singleton,
      Clause.valuesOfAll_cons]
    simp only [Mint.tokenValuesAbove, Mint.boundAbove_append, List.map_append]

theorem test (mint : Mint) (number : Nat) (connective : Connective) (kind : PredicateKind)
    (key : String) (operand : Operand) :
    Translates mint [.test connective kind key operand] number
      [.predicate ⟨kind, key, connective, mint.boundAbove number operand.values⟩] where
  readsAs := by
    refine .cons ⟨rfl, ?_⟩ .nil
    rw [Phrase.text, ← Mint.placeholders_boundAbove]
    rfl
  binds := by
    rw [Clause.valuesOfAll_singleton]
    simp [Clause.values, Clause.operands, Entry.tokenValues, Predicate.tokenValues,
      Mint.tokenValuesAbove]

/-- The entries of a group, or nothing in place of a group of nothing. -/
theorem group {clauses : List Clause} {entries : List Entry} (connective : Connective)
    (inner : Translates mint clauses number entries) :
    Translates mint [.group connective clauses] number
      (if entries.isEmpty then [] else [.group connective entries]) where
  readsAs := by
    have readsAs := inner.readsAs
    rw [Clause.phrasesOfAll, Clause.phrasesOfAll, List.append_nil, Clause.phrases]
    cases entries with
    | nil =>
        generalize Clause.phrasesOfAll mint clauses number = said at readsAs
        cases readsAs
        exact .nil
    | cons first rest =>
        rcases Entry.render_group_of_readsAs readsAs with ⟨phrase, found, text⟩
        rw [found]
        exact .cons ⟨rfl, text⟩ .nil
  binds := by
    rw [Clause.valuesOfAll_singleton]
    refine Eq.trans ?_ inner.binds
    cases entries with
    | nil => rfl
    | cons first rest => simp [Entry.tokenValues, Entry.tokenValuesOfAll_eq_flatMap]

end Translates

/-- The draft with entries at the end of its filter. -/
def ReadDraft.pushAll (draft : ReadDraft) (entries : List Entry) : ReadDraft :=
  { draft with filter := draft.filter.pushAll entries }

theorem ReadDraft.pushAll_pushAll (draft : ReadDraft) (first second : List Entry) :
    (draft.pushAll first).pushAll second = draft.pushAll (first ++ second) := by
  simp [pushAll, Condition.pushAll]

theorem ReadDraft.nest_eq_pushAll (draft : ReadDraft) (connective : Connective)
    (entries : List Entry) :
    draft.nest connective (draft.branch.pushAll entries).filter =
      draft.pushAll (if entries.isEmpty then [] else [.group connective entries]) := by
  cases entries with
  | nil => simp [nest, branch, start, pushAll, Condition.pushAll, Condition.empty,
      Condition.isEmpty]
  | cons first rest => simp [nest, branch, start, pushAll, Condition.pushAll, Condition.empty,
      Condition.isEmpty, Condition.add, Condition.push, Condition.toEntry, Entry.withConnective]

/-- What a script comes to that is run on a draft: the entries of its clauses, whose numbers are
then used up, or the error of the script. -/
inductive Translated (mint : Mint) (sequence : Nat) (draft : ReadDraft) (before : Supply) :
    Except QueryError (List Clause) → EStateM.Result QueryError Supply ReadDraft → Prop
  | ok {clauses : List Clause} {added : List Entry} {after : Supply}
      (fits : ∀ operand ∈ Clause.operandsOfAll clauses, operand.values ≠ [])
      (translates : Translates mint clauses (before.issued sequence) added)
      (counted : after.issued sequence =
        before.issued sequence + (Clause.valuesOfAll clauses).length) :
      Translated mint sequence draft before (.ok clauses) (.ok (draft.pushAll added) after)
  | error (error : QueryError) (after : Supply) :
      Translated mint sequence draft before (.error error) (.error error after)

theorem Operand.values_ne_nil {kind : PredicateKind} {operand : Operand}
    (fits : operand.mismatch? kind = none) : operand.values ≠ [] := by
  intro isEmpty
  unfold Operand.mismatch? at fits
  rw [if_pos isEmpty] at fits
  split at fits <;> cases fits

theorem translated_restrict {mint : Mint} {sequence : Nat}
    (onSequence : mint.source = .sequence sequence) {draft : ReadDraft}
    (ofMint : draft.binder.mint = mint) (connective : Connective) (kind : PredicateKind)
    (key : String) (operand : Operand)
    (before : Supply) :
    Translated mint sequence draft before
      ((Clause.ofTest connective kind key operand).map ([·]))
      ((draft.restrict connective kind key operand).run before) := by
  unfold Clause.ofTest ReadDraft.restrict Binder.predicate
  rw [ofMint, EStateM.run_bind]
  cases mismatch : operand.mismatch? kind with
  | some mismatch =>
      rw [Predicate.run_create_of_mismatch mismatch]
      exact .error _ _
  | none =>
      rcases mint.run_bindAll_of_sequence onSequence operand.values before with
        ⟨after, ran, counted⟩
      simp only [Predicate.create, mismatch, EStateM.run_bind, ran, EStateM.run_pure]
      apply Translated.ok _ (.test mint (before.issued sequence) connective kind key operand)
      · rw [counted, Clause.valuesOfAll_singleton]
        simp [Clause.values, Clause.operands]
      · simpa [Clause.operandsOfAll, Clause.operands] using Operand.values_ne_nil mismatch

mutual
/-- A step and its clause come to the same. -/
theorem translated_run {mint : Mint} {sequence : Nat}
    (onSequence : mint.source = .sequence sequence) : ∀ (step : FilterStep) {draft : ReadDraft},
    draft.binder.mint = mint → ∀ before : Supply,
      Translated mint sequence draft before (step.clause.map ([·]))
        ((step.toStep.run draft).run before)
  | .restrict connective kind key operand, _, ofMint, before =>
      translated_restrict onSequence ofMint connective kind key operand before
  | .call verbName key operand, draft, ofMint, before => by
      simp only [FilterStep.toStep, ReadStep.run, ReadDraft.call, FilterStep.clause]
      cases Verb.ofName verbName with
      | error error => exact .error error before
      | ok verb =>
          exact translated_restrict onSequence ofMint verb.connective verb.kind key operand before
  | .apply specification, draft, ofMint, before => by
      simp only [FilterStep.toStep, ReadStep.run, ReadDraft.apply, FilterStep.clause,
        Binder.specified, Binder.named]
      cases PredicateKind.ofName? specification.kindName.toList with
      | none => exact .error _ before
      | some kind => exact translated_restrict onSequence ofMint _ kind _ _ before
  | .group connective steps, draft, ofMint, before => by
      have onBranch : draft.branch.binder.mint = mint := ofMint
      have inner := translated_runScript onSequence steps onBranch before
      simp only [FilterStep.toStep, ReadStep.run, ReadDraft.group, FilterStep.clause,
        EStateM.run_bind]
      generalize FilterStep.clauses steps = clauses at inner ⊢
      generalize (runScript (FilterStep.toSteps steps) draft.branch).run before = ran at inner ⊢
      cases inner with
      | error error after => exact .error error after
      | @ok clauses added after fits translates counted =>
          simp only [EStateM.run_pure, ReadDraft.nest_eq_pushAll]
          apply Translated.ok _ (translates.group connective)
          · rw [counted, Clause.valuesOfAll_singleton]
            rfl
          · simpa [Clause.operandsOfAll, Clause.operands] using fits

theorem translated_runScript {mint : Mint} {sequence : Nat}
    (onSequence : mint.source = .sequence sequence) : ∀ (steps : List FilterStep)
    {draft : ReadDraft}, draft.binder.mint = mint → ∀ before : Supply,
      Translated mint sequence draft before (FilterStep.clauses steps)
        ((runScript (FilterStep.toSteps steps) draft).run before)
  | [], draft, _, before => by
      have nothing : draft = draft.pushAll [] := by
        simp [ReadDraft.pushAll, Condition.pushAll]
      have unchanged := @Translated.ok mint sequence draft before [] [] before
        (by simp [Clause.operandsOfAll]) ⟨.nil, rfl⟩ rfl
      rwa [← nothing] at unchanged
  | step :: rest, draft, ofMint, before => by
      have first := translated_run onSequence step ofMint before
      simp only [FilterStep.toSteps, runScript, FilterStep.clauses, EStateM.run_bind]
      generalize step.clause = found at first ⊢
      generalize (step.toStep.run draft).run before = ran at first ⊢
      cases found with
      | error error =>
          cases first
          exact .error error _
      | ok clause =>
          rcases first with @⟨_, added, middle, fits, translates, counted⟩
          have keepsMint : (draft.pushAll added).binder.mint = mint := ofMint
          have later := translated_runScript onSequence rest keepsMint middle
          simp only
          generalize FilterStep.clauses rest = others at later ⊢
          generalize (runScript _ (draft.pushAll added)).run middle = finished at later ⊢
          rw [Clause.valuesOfAll_singleton] at counted
          cases later with
          | error error after => exact .error error after
          | @ok clauses more after moreFits moreTranslates moreCounted =>
              rw [counted] at moreTranslates moreCounted
              rw [ReadDraft.pushAll_pushAll]
              apply Translated.ok _ (translates.cons moreTranslates)
              · rw [moreCounted, Clause.valuesOfAll_cons, List.length_append, Nat.add_assoc]
              · rw [Clause.operandsOfAll, Clause.operandsOfAll, List.append_nil] at fits
                exact List.forall_mem_append.mpr ⟨fits, moreFits⟩
end

/-! ## What the translation comes to -/

mutual
/-- The placeholders of a clause are numbered in the order in which they stand. -/
theorem placeholders_phrases (mint : Mint) : ∀ (clause : Clause) (number : Nat),
    Phrase.placeholdersOfRest (clause.phrases mint number) =
      mint.numbersAbove number clause.values.length
  | .test _ _ _ operand, number => by
      simp [Clause.phrases, Phrase.placeholdersOfRest, Phrase.placeholders, Clause.values,
        Clause.operands]
  | .group joined clauses, number => by
      have inner := placeholders_phrasesOfAll mint clauses number
      have sameValues : (Clause.group joined clauses).values = Clause.valuesOfAll clauses := rfl
      rw [Clause.phrases, sameValues, ← inner]
      cases Clause.phrasesOfAll mint clauses number with
      | nil => rfl
      | cons first rest =>
          simp [Phrase.ofJoined?, Phrase.placeholdersOfRest, Phrase.placeholders]

theorem placeholders_phrasesOfAll (mint : Mint) : ∀ (clauses : List Clause) (number : Nat),
    Phrase.placeholdersOfRest (Clause.phrasesOfAll mint clauses number) =
      mint.numbersAbove number (Clause.valuesOfAll clauses).length
  | [], _ => rfl
  | clause :: rest, number => by
      rw [Clause.phrasesOfAll, Phrase.placeholdersOfRest_append, placeholders_phrases mint clause,
        placeholders_phrasesOfAll mint rest, Clause.valuesOfAll_cons, List.length_append,
        Mint.numbersAbove_append]
end


mutual
theorem operands_eq_nil_of_phrases (mint : Mint) : ∀ (clause : Clause) (number : Nat),
    clause.phrases mint number = [] ↔ clause.operands = []
  | .test .., _ => by simp [Clause.phrases, Clause.operands]
  | .group joined clauses, number => by
      rw [Clause.operands, ← operands_eq_nil_of_phrasesOfAll mint clauses number, Clause.phrases]
      cases Clause.phrasesOfAll mint clauses number <;> simp [Phrase.ofJoined?]

theorem operands_eq_nil_of_phrasesOfAll (mint : Mint) : ∀ (clauses : List Clause) (number : Nat),
    Clause.phrasesOfAll mint clauses number = [] ↔ Clause.operandsOfAll clauses = []
  | [], _ => by simp [Clause.phrasesOfAll, Clause.operandsOfAll]
  | clause :: rest, number => by
      rw [Clause.phrasesOfAll, Clause.operandsOfAll, List.append_eq_nil_iff, List.append_eq_nil_iff,
        operands_eq_nil_of_phrases mint clause, operands_eq_nil_of_phrasesOfAll mint rest]
end

theorem valuesOfAll_eq_nil {clauses : List Clause}
    (fits : ∀ operand ∈ Clause.operandsOfAll clauses, operand.values ≠ []) :
    Clause.valuesOfAll clauses = [] ↔ Clause.operandsOfAll clauses = [] := by
  rw [Clause.valuesOfAll, List.flatMap_eq_nil_iff]
  constructor
  · intro noValues
    rw [List.eq_nil_iff_forall_not_mem]
    exact fun operand member => fits operand member (noValues operand member)
  · intro noOperands
    simp [noOperands]

theorem mem_tokenValuesAbove {mint : Mint} {number : Nat} {values : List AttributeValue}
    {token : String} {value : AttributeValue} :
    (token, value) ∈ mint.tokenValuesAbove number values ↔
      ∃ index, values[index]? = some value ∧
        token = (mint.numbered (number + index + 1)).token := by
  rw [Mint.tokenValuesAbove, List.mem_iff_getElem?]
  apply exists_congr
  intro index
  rw [List.getElem?_map, Mint.getElem?_boundAbove]
  cases values[index]? with
  | none => simp
  | some held =>
      simp only [Option.map_some, Option.some.injEq, Prod.mk.injEq]
      constructor
      · rintro ⟨rfl, rfl⟩
        exact ⟨rfl, rfl⟩
      · rintro ⟨rfl, rfl⟩
        exact ⟨rfl, rfl⟩

/-- Numbers stand for the values in their order, and nothing else is bound. -/
theorem get?_tokenValuesAbove {mint : Mint} {number : Nat} {values : List AttributeValue}
    {token : String} {value : AttributeValue} :
    (Dictionary.ofList (mint.tokenValuesAbove number values)).get? token = some value ↔
      ∃ index, values[index]? = some value ∧
        token = (mint.numbered (number + index + 1)).token := by
  rw [← mem_tokenValuesAbove]
  constructor
  · exact Dictionary.mem_of_get?_ofList
  · intro present
    apply Dictionary.get?_ofList_of_forall present
    intro other member
    rcases mem_tokenValuesAbove.mp present with ⟨index, found, rfl⟩
    rcases mem_tokenValuesAbove.mp member with ⟨another, stored, sameToken⟩
    have sameNumber := Mint.numbered_injective (Placeholder.token_injective sameToken)
    have sameIndex : index = another := by omega
    rw [← sameIndex, found] at stored
    exact (Option.some.inj stored).symm

theorem ofList_tokenValuesAbove_eq_empty {mint : Mint} {number : Nat}
    {values : List AttributeValue} :
    Dictionary.ofList (mint.tokenValuesAbove number values) = .empty ↔ values = [] := by
  constructor
  · intro isEmpty
    cases values with
    | nil => rfl
    | cons value rest =>
        have first : (Dictionary.ofList (mint.tokenValuesAbove number (value :: rest))).get?
            (mint.numbered (number + 1)).token = some value :=
          get?_tokenValuesAbove.mpr ⟨0, rfl, rfl⟩
        rw [isEmpty] at first
        cases first
  · rintro rfl
    rfl

namespace Translates

variable {mint : Mint} {clauses : List Clause} {number : Nat} {draft : ReadDraft}

theorem get?_filterExpression
    (translates : Translates mint clauses number draft.filter.entries) :
    (draft.compile .empty).get? "FilterExpression" =
      (Phrase.ofJoined? (Clause.phrasesOfAll mint clauses number)).map
        fun phrase => .string phrase.text := by
  rw [draft.get?_filterExpression, Condition.render?_of_readsAs translates.readsAs,
    Option.map_map]
  rfl

theorem get?_attributeValues (isScan : draft.target = .scan)
    (translates : Translates mint clauses number draft.filter.entries) :
    (draft.compile .empty).get? "ExpressionAttributeValues" =
      itemToJson (.ofList (mint.tokenValuesAbove number (Clause.valuesOfAll clauses))) := by
  rw [draft.get?_boundValues, ReadDraft.boundValues, isScan, Condition.tokenValues_eq,
    translates.binds]
  rfl

end Translates

/-- A script of filter steps on an empty scan whose mint has issued nothing fails with the error of
its clauses or compiles to their translation: the text of their phrases, with placeholders numbered
from one in the order in which they stand, each of which is bound to the value in its place. Where
the script tests nothing, neither field is there. -/
theorem compile_of_clauses {mint : Mint} {sequence : Nat}
    (onSequence : mint.source = .sequence sequence) {before : Supply}
    (unused : before.issued sequence = 0) (tableName : String) (marshaler : Marshaler)
    (script : List FilterStep) :
    let run :=
      (runScript (FilterStep.toSteps script) (.scan tableName ⟨mint, marshaler⟩)).run before
    (∀ error, FilterStep.clauses script = .error error → ∃ after, run = .error error after) ∧
    ∀ clauses, FilterStep.clauses script = .ok clauses → ∃ draft after, run = .ok draft after ∧
      let request := draft.compile .empty
      let phrases := Clause.phrasesOfAll mint clauses 0
      let values := Clause.valuesOfAll clauses
      request.get? "FilterExpression" =
          (Phrase.ofJoined? phrases).map (fun phrase => .string phrase.text) ∧
        Phrase.placeholdersOfRest phrases = mint.numbersAbove 0 values.length ∧
        (∃ bindings : Bindings,
          request.get? "ExpressionAttributeValues" = itemToJson bindings ∧
          ∀ token value, bindings.get? token = some value ↔
            ∃ index, values[index]? = some value ∧ token = (mint.numbered (index + 1)).token) ∧
        (request.get? "FilterExpression" = none ↔ Clause.operandsOfAll clauses = []) ∧
        (request.get? "ExpressionAttributeValues" = none ↔ Clause.operandsOfAll clauses = []) := by
  intro run
  have translated : Translated mint sequence (.scan tableName ⟨mint, marshaler⟩) before
      (FilterStep.clauses script) run :=
    translated_runScript onSequence script rfl before
  clear_value run
  constructor
  · intro error failed
    rw [failed] at translated
    cases translated with
    | error _ after => exact ⟨after, rfl⟩
  · intro clauses found
    rw [found] at translated
    cases translated with
    | @ok _ added after fits translates counted =>
        rw [unused] at translates
        have entries : Translates mint clauses 0
            ((ReadDraft.scan tableName ⟨mint, marshaler⟩).pushAll added).filter.entries :=
          translates
        have text := entries.get?_filterExpression
        have values := entries.get?_attributeValues rfl
        refine ⟨_, _, rfl, text, placeholders_phrasesOfAll mint clauses 0,
          ⟨_, values, fun token value => ?_⟩, ?_, ?_⟩
        · simp only [get?_tokenValuesAbove, Nat.zero_add]
        · rw [text, Option.map_eq_none_iff, ← operands_eq_nil_of_phrasesOfAll mint clauses 0]
          exact Phrase.ofJoined?_eq_none
        · rw [values, itemToJson_eq_none, ← valuesOfAll_eq_nil fits]
          exact ofList_tokenValuesAbove_eq_empty

/-- A script with groups of nothing, with a collection, and with names and data for kinds. -/
def ratingSteps : List FilterStep :=
  [.group .and [.group .or []],
    .restrict .or .eq "rated" (.scalar (.bool true)),
    .group .or
      [.call "and_in" "name" (.collection [.string "chess", .string "go"]),
        .group .and [],
        .group .or [.apply ⟨"begins_with", "name", .string "c", .and⟩]],
    .call "andEq" "lost" (.scalar (.bool false))]

/-- What the script adds. -/
def ratingClauses : List Clause :=
  [.group .and [.group .or []],
    .test .or .eq "rated" (.scalar (.bool true)),
    .group .or
      [.test .and .within "name" (.collection [.string "chess", .string "go"]),
        .group .and [],
        .group .or [.test .and .beginsWith "name" (.scalar (.string "c"))]],
    .test .and .eq "lost" (.scalar (.bool false))]

theorem compile_of_ratingSteps :
    (Supply.initial fun _ => "").issued 0 = 0 ∧
      FilterStep.clauses ratingSteps = .ok ratingClauses ∧
      ∃ draft after, (runScript (FilterStep.toSteps ratingSteps)
          (.scan "games" ⟨⟨"p", .sequence 0⟩, Config.default.marshaler⟩)).run
            (Supply.initial fun _ => "") = .ok draft after ∧
        (draft.compile .empty).get? "FilterExpression" = some (.string
          "(rated = :p1 or (name in (:p2,:p3) or (begins_with(name, :p4))) and lost = :p5)") ∧
        ∃ bindings : Bindings,
          (draft.compile .empty).get? "ExpressionAttributeValues" = itemToJson bindings ∧
            bindings.get? ":p3" = some (.string "go") := by
  have clauses : FilterStep.clauses ratingSteps = .ok ratingClauses := by rfl
  rcases @compile_of_clauses ⟨"p", .sequence 0⟩ 0 rfl (.initial fun _ => "") rfl "games"
    Config.default.marshaler ratingSteps with ⟨_, compiles⟩
  rcases compiles ratingClauses clauses with
    ⟨draft, after, ran, text, _, ⟨bindings, values, bound⟩, _⟩
  refine ⟨rfl, clauses, draft, after, ran, text.trans ?_, bindings, values, (bound _ _).mpr ?_⟩
  · decide
  · exact ⟨2, by decide, by decide⟩

end ItemQuery
