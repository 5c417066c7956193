import ItemQuery.Proofs.Integrity
import ItemQuery.Proofs.Translation
import ItemQuery.Proofs.Verbs

/-!
Specifications: predicates that are given as data.

A specification names the kind of its predicate and states the operand as JSON. Applying it is the
operation on the filter that has this kind and this operand, and applying a list of specifications
is to run these operations one after the other. Where one of the list is refused the list fails with
its error, and what was drawn is what the specifications before it have drawn
(`ReadDraft.applyAll_eq_runScript_and_error_of_refused`).
-/

namespace ItemQuery

/-! ## What a specification states -/

/-- Whether a text is the name of a kind, up to underscores and the cases of ASCII letters. -/
def PredicateKind.Names (kind : PredicateKind) (text : String) : Prop :=
  asciiLower (Verb.withoutUnderscores text) = asciiLower kind.name

theorem PredicateKind.ofName?_toList_eq_some_iff {kind : PredicateKind} {text : String} :
    ofName? text.toList = some kind ↔ kind.Names text := by
  rw [ofName?_eq_some_iff, Verb.foldName_eq_iff]
  rfl

theorem PredicateKind.ofName?_toList_eq_none_iff {text : String} :
    ofName? text.toList = none ↔ ∀ kind : PredicateKind, ¬kind.Names text := by
  rw [Option.eq_none_iff_forall_ne_some]
  exact forall_congr' fun kind => not_congr ofName?_toList_eq_some_iff

/-- The operand that a JSON value states: of an array its elements, each marshaled by itself, and
else the value. -/
inductive Operand.StatedBy : Json → Operand → Prop
  | array (elements : List Json) :
      StatedBy (.array elements) (.collection (elements.map AttributeValue.ofJson))
  | single {json : Json} (noArray : ∀ elements, json ≠ .array elements) :
      StatedBy json (.scalar (.ofJson json))

theorem AttributeValue.elementsOfJson_eq_map (elements : List Json) :
    elementsOfJson elements = elements.map ofJson := by
  induction elements with
  | nil => rfl
  | cons element rest induction => rw [elementsOfJson, induction, List.map_cons]

theorem Operand.statedBy_iff {json : Json} {operand : Operand} :
    operand.StatedBy json ↔ operand = .ofJson json := by
  constructor
  · intro stated
    cases stated with
    | array elements => rw [ofJson, AttributeValue.elementsOfJson_eq_map]
    | single noArray =>
        cases json with
        | array elements => exact absurd rfl (noArray elements)
        | _ => rfl
  · rintro rfl
    cases json with
    | array elements =>
        rw [ofJson, AttributeValue.elementsOfJson_eq_map]
        exact .array elements
    | _ => exact .single nofun

namespace Specification

/-- Whether a step is the operation on the filter that a specification stands for. Where no kind has
the name there is no such operation, and the step fails. -/
inductive CallsFor (specification : Specification) : ReadStep → Prop
  | restrict {kind : PredicateKind} {operand : Operand} (named : kind.Names specification.kindName)
      (stated : operand.StatedBy specification.value) :
      CallsFor specification
        (.restrict specification.connective kind specification.key operand)
  | fail (unknown : ∀ kind : PredicateKind, ¬kind.Names specification.kindName) :
      CallsFor specification (.fail (.unknownKind specification.kindName))

/-- Whether a predicate is one that a specification describes. Which placeholders it has is not
said. -/
structure Describes (specification : Specification) (predicate : Predicate) : Prop where
  kind : predicate.kind.Names specification.kindName
  key : predicate.key = specification.key
  connective : predicate.connective = specification.connective
  bound : ∃ operand : Operand, operand.StatedBy specification.value ∧
    predicate.bound.map Prod.snd = operand.values

/-- Whether the kind that a specification names exists and takes the operand that it states. -/
def Valid (specification : Specification) : Prop :=
  ∃ kind operand, PredicateKind.Names kind specification.kindName ∧
    Operand.StatedBy specification.value operand ∧ operand.shape = kind.shape ∧
      operand.values ≠ []

/-- Whether a specification is refused, and with which error. That the kind does not exist comes
before everything that its operand can be refused for. -/
inductive Refused (specification : Specification) : QueryError → Prop
  | unknownKind (unknown : ∀ kind : PredicateKind, ¬kind.Names specification.kindName) :
      Refused specification (.unknownKind specification.kindName)
  | wrongShape {kind : PredicateKind} {operand : Operand}
      (named : kind.Names specification.kindName) (stated : operand.StatedBy specification.value)
      (other : operand.shape ≠ kind.shape) :
      Refused specification (.operand kind (.wrongShape operand.shape))
  | emptyCollection {kind : PredicateKind} (named : kind.Names specification.kindName)
      (stated : (Operand.collection []).StatedBy specification.value)
      (collects : kind.shape = .collection) :
      Refused specification (.operand kind .emptyCollection)

variable {specification : Specification}

theorem Refused.not_valid {error : QueryError} (refused : specification.Refused error) :
    ¬specification.Valid := by
  rintro ⟨kind, operand, named, stated, sameShape, nonempty⟩
  have same : ∀ other, PredicateKind.Names other specification.kindName → other = kind := by
    intro other alsoNamed
    rw [← PredicateKind.ofName?_toList_eq_some_iff] at named alsoNamed
    exact Option.some.inj (alsoNamed.symm.trans named)
  rw [Operand.statedBy_iff] at stated
  cases refused with
  | unknownKind unknown => exact unknown kind named
  | wrongShape alsoNamed alsoStated other =>
      rw [same _ alsoNamed, Operand.statedBy_iff.mp alsoStated, ← stated] at other
      exact other sameShape
  | emptyCollection _ alsoStated _ =>
      rw [stated, ← Operand.statedBy_iff.mp alsoStated] at nonempty
      exact nonempty rfl

theorem mismatch?_eq_none_iff {kind : PredicateKind} {operand : Operand} :
    operand.mismatch? kind = none ↔ operand.shape = kind.shape ∧ operand.values ≠ [] := by
  unfold Operand.mismatch?
  by_cases sameShape : operand.shape = kind.shape
  · by_cases isEmpty : operand.values = [] <;> simp [sameShape, isEmpty]
  · simp [sameShape]

theorem exists_callsFor (specification : Specification) : ∃ step, specification.CallsFor step := by
  cases found : PredicateKind.ofName? specification.kindName.toList with
  | none => exact ⟨_, .fail (PredicateKind.ofName?_toList_eq_none_iff.mp found)⟩
  | some kind =>
      have named := PredicateKind.ofName?_toList_eq_some_iff.mp found
      exact ⟨_, .restrict named (Operand.statedBy_iff.mpr rfl)⟩

theorem exists_callsForAll : ∀ specifications : List Specification,
    ∃ steps, List.Forall₂ CallsFor specifications steps
  | [] => ⟨[], .nil⟩
  | first :: rest =>
      have ⟨step, calls⟩ := first.exists_callsFor
      have ⟨steps, callsAll⟩ := exists_callsForAll rest
      ⟨step :: steps, .cons calls callsAll⟩

/-- A specification is valid, or it is refused. -/
theorem valid_or_refused (specification : Specification) :
    specification.Valid ∨ ∃ error, specification.Refused error := by
  cases found : PredicateKind.ofName? specification.kindName.toList with
  | none => exact .inr ⟨_, .unknownKind (PredicateKind.ofName?_toList_eq_none_iff.mp found)⟩
  | some kind =>
      have named := PredicateKind.ofName?_toList_eq_some_iff.mp found
      have stated : (Operand.ofJson specification.value).StatedBy specification.value :=
        Operand.statedBy_iff.mpr rfl
      by_cases sameShape : (Operand.ofJson specification.value).shape = kind.shape
      · by_cases isEmpty : (Operand.ofJson specification.value).values = []
        · -- Only a collection can be without values.
          revert stated sameShape isEmpty
          cases Operand.ofJson specification.value with
          | scalar value => exact fun _ _ isEmpty => absurd isEmpty (List.cons_ne_nil _ _)
          | collection values =>
              rintro stated sameShape (rfl : values = [])
              exact .inr ⟨_, .emptyCollection named stated sameShape.symm⟩
        · exact .inl ⟨kind, _, named, stated, sameShape, isEmpty⟩
      · exact .inr ⟨_, .wrongShape named stated sameShape⟩

/-- All specifications of a list are valid, or there is a first that is refused. -/
theorem all_valid_or_split : ∀ specifications : List Specification,
    (∀ specification ∈ specifications, specification.Valid) ∨
      ∃ preceding refused later error, specifications = preceding ++ refused :: later ∧
        (∀ specification ∈ preceding, specification.Valid) ∧ Refused refused error
  | [] => .inl (List.forall_mem_nil _)
  | first :: rest => by
      rcases first.valid_or_refused with valid | ⟨error, refused⟩
      · rcases all_valid_or_split rest with allValid | ⟨preceding, bad, later, error, rfl, others⟩
        · exact .inl (List.forall_mem_cons.mpr ⟨valid, allValid⟩)
        · exact .inr ⟨first :: preceding, bad, later, error, rfl,
            List.forall_mem_cons.mpr ⟨valid, others.1⟩, others.2⟩
      · exact .inr ⟨[], first, rest, error, rfl, List.forall_mem_nil _, refused⟩

end Specification

/-! ## One specification -/

namespace ReadDraft

variable {draft : ReadDraft} {specification : Specification} {before : Supply}

/-- Applying a specification of a kind that exists is an operation on the filter. -/
theorem apply_eq_restrict {kind : PredicateKind} (named : kind.Names specification.kindName) :
    draft.apply specification =
      draft.restrict specification.connective kind specification.key
        (.ofJson specification.value) := by
  rw [← PredicateKind.ofName?_toList_eq_some_iff] at named
  unfold apply Binder.specified Binder.named
  rw [named]
  rfl

theorem apply_eq_throw (unknown : ∀ kind : PredicateKind, ¬kind.Names specification.kindName) :
    draft.apply specification = throw (.unknownKind specification.kindName) := by
  rw [← PredicateKind.ofName?_toList_eq_none_iff] at unknown
  unfold apply Binder.specified Binder.named
  rw [unknown]
  rfl

theorem apply_eq_run {step : ReadStep} (calls : specification.CallsFor step) :
    draft.apply specification = step.run draft := by
  cases calls with
  | restrict named stated =>
      rw [Operand.statedBy_iff] at stated
      rw [apply_eq_restrict named, stated, ReadStep.run]
  | fail unknown => rw [apply_eq_throw unknown, ReadStep.run]

theorem run_restrict_of_mismatch {connective : Connective} {kind : PredicateKind} {key : String}
    {operand : Operand} {mismatch : OperandMismatch}
    (mismatched : operand.mismatch? kind = some mismatch) :
    (draft.restrict connective kind key operand).run before =
      .error (.operand kind mismatch) before := by
  rw [restrict, EStateM.run_bind, Binder.predicate,
    Predicate.run_create_of_mismatch mismatched]

/-- A specification that is refused draws nothing. -/
theorem run_apply_of_refused {error : QueryError} (refused : specification.Refused error) :
    (draft.apply specification).run before = .error error before := by
  cases refused with
  | unknownKind unknown => rw [apply_eq_throw unknown, Draw.run_throw]
  | wrongShape named stated other =>
      rw [apply_eq_restrict named, ← Operand.statedBy_iff.mp stated]
      exact run_restrict_of_mismatch (by simp [Operand.mismatch?, other])
  | emptyCollection named stated collects =>
      rw [apply_eq_restrict named, ← Operand.statedBy_iff.mp stated]
      apply run_restrict_of_mismatch
      simp [Operand.mismatch?, Operand.shape, Operand.values, collects]

/-- A valid specification appends a predicate that it describes, bound to the next placeholders. -/
theorem exists_run_apply (draft : ReadDraft) (before : Supply) (valid : specification.Valid) :
    ∃ predicate after, specification.Describes predicate ∧
      (draft.apply specification).run before = .ok (draft.push (.predicate predicate)) after ∧
      draft.binder.mint.Issues before (draft.binder.mint.issuesOf predicate.bound) after := by
  rcases valid with ⟨kind, operand, named, stated, fits⟩
  have accepted := Specification.mismatch?_eq_none_iff.mpr fits
  rcases @Predicate.exists_run_create draft.binder.mint kind specification.key operand
    specification.connective before accepted with ⟨bound, after, created, issues, values⟩
  refine ⟨⟨kind, specification.key, specification.connective, bound⟩, after,
    ⟨named, rfl, rfl, operand, stated, values⟩, ?_, issues⟩
  rw [apply_eq_restrict named, ← Operand.statedBy_iff.mp stated]
  exact Draw.run_bind_eq_ok.mpr ⟨_, after, created, rfl⟩

/-! ## Lists of specifications -/

/-- The placeholders of predicates as issues of the mint of a draft. -/
def issuesOfPredicates (draft : ReadDraft) (predicates : List Predicate) : List Issue :=
  predicates.flatMap fun predicate => draft.binder.mint.issuesOf predicate.bound

theorem applyAll_eq_runScript {specifications : List Specification} {steps : List ReadStep}
    (calls : List.Forall₂ Specification.CallsFor specifications steps) (draft : ReadDraft) :
    draft.applyAll specifications = runScript steps draft := by
  induction calls generalizing draft with
  | nil => rfl
  | cons first _ induction =>
      rw [applyAll, runScript, apply_eq_run first]
      exact congrArg _ (funext induction)

/-- A list of valid specifications appends one predicate for each, bound to the placeholders that
come next. -/
theorem exists_run_applyAll : ∀ (specifications : List Specification) (draft : ReadDraft)
    (before : Supply), (∀ specification ∈ specifications, specification.Valid) →
      ∃ predicates after, List.Forall₂ Specification.Describes specifications predicates ∧
        (draft.applyAll specifications).run before =
          .ok (draft.pushAll (predicates.map .predicate)) after ∧
        draft.binder.mint.Issues before (draft.issuesOfPredicates predicates) after
  | [], draft, before, _ => by
      refine ⟨[], before, .nil, ?_, .none before⟩
      simp [applyAll, pushAll, Condition.pushAll]
  | first :: rest, draft, before, allValid => by
      rcases List.forall_mem_cons.mp allValid with ⟨valid, othersValid⟩
      rcases draft.exists_run_apply before valid with ⟨predicate, middle, describes, ran, issues⟩
      rcases exists_run_applyAll rest (draft.push (.predicate predicate)) middle othersValid with
        ⟨others, after, describeOthers, ranOthers, moreIssues⟩
      refine ⟨predicate :: others, after, .cons describes describeOthers, ?_,
        issues.append moreIssues⟩
      rw [applyAll, EStateM.run_bind, ran]
      change (applyAll _ rest).run middle = _
      rw [ranOthers]
      exact congrArg (EStateM.Result.ok · after)
        (draft.pushAll_pushAll [.predicate predicate] (others.map .predicate))

/-- What is applied behind a list of specifications starts where that list has ended. -/
theorem run_applyAll_append : ∀ (preceding later : List Specification) {draft grown : ReadDraft}
    {before middle : Supply}, (draft.applyAll preceding).run before = .ok grown middle →
      (draft.applyAll (preceding ++ later)).run before = (grown.applyAll later).run middle
  | [], _, _, _, _, _, ran => by
      cases ran
      rfl
  | first :: rest, later, draft, grown, before, middle, ran => by
      rcases Draw.run_bind_eq_ok.mp ran with ⟨applied, early, first, finished⟩
      rw [List.cons_append, applyAll, EStateM.run_bind, first]
      exact run_applyAll_append rest later finished

theorem run_applyAll_of_refused {preceding later : List Specification} {grown : ReadDraft}
    {middle : Supply} {error : QueryError}
    (ran : (draft.applyAll preceding).run before = .ok grown middle)
    (refused : specification.Refused error) :
    (draft.applyAll (preceding ++ specification :: later)).run before = .error error middle := by
  rw [run_applyAll_append _ _ ran, applyAll, EStateM.run_bind, run_apply_of_refused refused]

/-- Applying specifications is the same computation as running the operations that they stand for.
Where all of them are valid one predicate is appended for each, bound to the next placeholders.
Where not, the error is that of the first which is refused, and only the placeholders of those
before it are drawn. -/
theorem applyAll_eq_runScript_and_error_of_refused (draft : ReadDraft) (before : Supply)
    (specifications : List Specification) :
    (∃ steps, List.Forall₂ Specification.CallsFor specifications steps) ∧
    (∀ steps, List.Forall₂ Specification.CallsFor specifications steps →
      draft.applyAll specifications = runScript steps draft) ∧
    ((∀ specification ∈ specifications, specification.Valid) →
      ∃ predicates after, List.Forall₂ Specification.Describes specifications predicates ∧
        (draft.applyAll specifications).run before =
          .ok (draft.pushAll (predicates.map .predicate)) after ∧
        draft.binder.mint.Issues before (draft.issuesOfPredicates predicates) after) ∧
    ((¬∀ specification ∈ specifications, specification.Valid) →
      ∃ preceding refused later error predicates after,
        specifications = preceding ++ refused :: later ∧
        List.Forall₂ Specification.Describes preceding predicates ∧
        Specification.Refused refused error ∧
        (draft.applyAll specifications).run before = .error error after ∧
        draft.binder.mint.Issues before (draft.issuesOfPredicates predicates) after) := by
  refine ⟨Specification.exists_callsForAll specifications,
    fun steps calls => applyAll_eq_runScript calls draft,
    exists_run_applyAll specifications draft before, ?_⟩
  intro notAllValid
  rcases Specification.all_valid_or_split specifications with
    allValid | ⟨preceding, bad, later, error, rfl, precedingValid, refused⟩
  · exact absurd allValid notAllValid
  · rcases exists_run_applyAll preceding draft before precedingValid with
      ⟨predicates, after, describe, ran, issues⟩
    exact ⟨preceding, bad, later, error, predicates, after, rfl, describe, refused,
      run_applyAll_of_refused ran refused, issues⟩

/-! ## Two lists of specifications -/

def isRatedSpecification : Specification := ⟨"EQ", "rated", .bool true, .and⟩

def sizeSpecification : Specification := ⟨"in", "size", .array [.bool true, .bool false], .or⟩

/-- A specification that is refused for its kind, though no kind takes its operand either. -/
def betweenSpecification : Specification := ⟨"Between", "size", .array [], .and⟩

theorem applyAll_eq_runScript_and_error_of_refused_games :
    gamesTable.scan.applyAll [isRatedSpecification, sizeSpecification] =
      runScript [.restrict .and .eq "rated" (.scalar (.bool true)),
        .restrict .or .within "size" (.collection [.bool true, .bool false])] gamesTable.scan ∧
    (∃ (predicates : List Predicate) (after : Supply),
      (gamesTable.scan.applyAll [isRatedSpecification, sizeSpecification]).run gamesStage.supply =
          .ok (gamesTable.scan.pushAll (predicates.map .predicate)) after ∧
        predicates.map Predicate.key = ["rated", "size"] ∧ after.issued 0 = 6) ∧
    ∃ after,
      (gamesTable.scan.applyAll [sizeSpecification, betweenSpecification, isRatedSpecification]).run
          gamesStage.supply = .error (.unknownKind "Between") after ∧ after.issued 0 = 5 := by
  have isRatedNamed : PredicateKind.eq.Names isRatedSpecification.kindName := by
    unfold PredicateKind.Names
    decide
  have sizeNamed : PredicateKind.within.Names sizeSpecification.kindName := by
    unfold PredicateKind.Names
    decide
  have isRatedStated : Operand.StatedBy isRatedSpecification.value (.scalar (.bool true)) :=
    .single nofun
  have sizeStated :
      Operand.StatedBy sizeSpecification.value (.collection [.bool true, .bool false]) :=
    .array [.bool true, .bool false]
  have isRatedValid : isRatedSpecification.Valid :=
    ⟨.eq, _, isRatedNamed, isRatedStated, rfl, List.cons_ne_nil _ _⟩
  have sizeValid : sizeSpecification.Valid :=
    ⟨.within, _, sizeNamed, sizeStated, rfl, List.cons_ne_nil _ _⟩
  have betweenRefused : betweenSpecification.Refused (.unknownKind "Between") :=
    .unknownKind (PredicateKind.ofName?_toList_eq_none_iff.mp (by decide))
  rcases applyAll_eq_runScript_and_error_of_refused gamesTable.scan gamesStage.supply
    [isRatedSpecification, sizeSpecification] with ⟨_, same, succeeds, _⟩
  rcases applyAll_eq_runScript_and_error_of_refused gamesTable.scan gamesStage.supply
    [sizeSpecification, betweenSpecification, isRatedSpecification] with ⟨_, _, _, fails⟩
  refine ⟨?_, ?_, ?_⟩
  · exact same _ (.cons (.restrict isRatedNamed isRatedStated)
      (.cons (.restrict sizeNamed sizeStated) .nil))
  · rcases succeeds (by simp [isRatedValid, sizeValid]) with
      ⟨predicates, after, describe, ran, _⟩
    refine ⟨predicates, after, ran, ?_, ?_⟩
    · cases describe with
      | cons first rest =>
          cases rest with
          | cons second none =>
              cases none
              rw [List.map_cons, List.map_singleton, first.key, second.key]
              rfl
    · rw [← Draw.supplyAfter_of_ok ran]
      rfl
  · rcases fails fun allValid => betweenRefused.not_valid (allValid _ (by simp)) with
      ⟨_, _, _, error, _, after, _, _, _, ran, _⟩
    cases ran
    exact ⟨_, rfl, rfl⟩

end ReadDraft

end ItemQuery
