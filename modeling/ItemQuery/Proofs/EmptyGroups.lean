import Mathlib.Data.List.Chain
import ItemQuery.Proofs.KeyConditions

/-!
Empty groups.

The store refuses a group without members. A draft does not take in a condition without entries, but
looks no deeper: a condition whose only entry is an empty group is taken in. Key conditions and the
conditions of updates have no groups at all, and everything else that is appended to a filter has
one inside only if it was taken in with one. So no filter of a session has an empty group exactly if
no condition had one that was nested in a filter
(`Stage.solid_iff_nested_solid_of_afterActs`).
-/

namespace ItemQuery

/-! ## Texts -/

/-- Whether a text has a group without members. -/
def HasEmptyGroup (text : String) : Prop :=
  ∃ front back : String, text = front ++ "()" ++ back

theorem HasEmptyGroup.append {text : String} (has : HasEmptyGroup text) (front back : String) :
    HasEmptyGroup (front ++ text ++ back) := by
  rcases has with ⟨before, after, rfl⟩
  exact ⟨front ++ before, after ++ back, by simp only [String.append_assoc]⟩

/-- Whether a text has no parentheses. -/
def WithoutParentheses (text : String) : Prop :=
  ∀ char ∈ text.toList, char ≠ '(' ∧ char ≠ ')'

instance (text : String) : Decidable (WithoutParentheses text) :=
  List.decidableBAll (fun char => char ≠ '(' ∧ char ≠ ')') text.toList

theorem withoutParentheses_append {first second : String} :
    WithoutParentheses (first ++ second) ↔
      WithoutParentheses first ∧ WithoutParentheses second := by
  simp only [WithoutParentheses, String.toList_append, List.forall_mem_append]

/-- Whether a character is no opening parenthesis with a closing one behind it. -/
def NoPair (first second : Char) : Prop := first = '(' → second ≠ ')'

/-- Whether a text can stand in a group without making an empty group: it has none itself, is not
empty, and neither begins with the end of a group nor ends with the beginning of one. -/
structure Tidy (text : String) : Prop where
  nonempty : text.toList ≠ []
  first : ∀ char ∈ text.toList.head?, char ≠ ')'
  last : ∀ char ∈ text.toList.getLast?, char ≠ '('
  inside : text.toList.IsChain NoPair

namespace Tidy

variable {text other : String}

theorem not_hasEmptyGroup (tidy : Tidy text) : ¬HasEmptyGroup text := by
  rintro ⟨front, back, rfl⟩
  have letters : (front ++ "()" ++ back).toList = front.toList ++ '(' :: ')' :: back.toList := by
    simp
  have noPair := tidy.inside
  rw [letters] at noPair
  exact (List.isChain_append_cons_cons.mp noPair).2.1 rfl rfl

theorem append (tidy : Tidy text) (alsoTidy : Tidy other) : Tidy (text ++ other) where
  nonempty := by simp [tidy.nonempty]
  first := by
    rw [String.toList_append, List.head?_append_of_ne_nil _ tidy.nonempty]
    exact tidy.first
  last := by
    rw [String.toList_append, List.getLast?_append_of_ne_nil _ alsoTidy.nonempty]
    exact alsoTidy.last
  inside := by
    rw [String.toList_append]
    exact tidy.inside.append alsoTidy.inside fun char isLast _ _ isOpen =>
      absurd isOpen (tidy.last char isLast)

theorem of_withoutParentheses (nonempty : text.toList ≠ []) (plain : WithoutParentheses text) :
    Tidy text where
  nonempty := nonempty
  first char isFirst := (plain char (List.mem_of_mem_head? isFirst)).2
  last char isLast := (plain char (List.mem_of_mem_getLast? isLast)).1
  inside := by
    rw [List.isChain_iff_forall_rel_of_append_cons_cons]
    intro opening closing front back same isOpen
    exact absurd isOpen (plain opening (by simp [same])).1

theorem enclosed (tidy : Tidy text) : Tidy ("(" ++ text ++ ")") := by
  have letters : ("(" ++ text ++ ")").toList = '(' :: (text.toList ++ [')']) := by simp
  refine ⟨?_, ?_, ?_, ?_⟩
  · rw [letters]
    exact List.cons_ne_nil _ _
  · rw [letters]
    simp
  · rw [letters, ← List.cons_append, List.getLast?_concat]
    simp
  · rw [letters, List.isChain_cons]
    constructor
    · intro char isNext _
      rw [List.head?_append_of_ne_nil _ tidy.nonempty] at isNext
      exact tidy.first char isNext
    · apply tidy.inside.append (List.isChain_singleton _)
      exact fun char isLast _ _ isOpen => absurd isOpen (tidy.last char isLast)

end Tidy

/-! ## Predicates -/

/-- Whether neither the attribute nor the placeholders of a predicate have a parenthesis. -/
def Predicate.Unparenthesized (predicate : Predicate) : Prop :=
  WithoutParentheses predicate.key ∧
    ∀ token ∈ predicate.tokens, WithoutParentheses token

theorem withoutParentheses_intercalate : ∀ {texts : List String},
    (∀ text ∈ texts, WithoutParentheses text) → WithoutParentheses (String.intercalate "," texts)
  | [], _ => by
      rw [String.intercalate_nil]
      exact List.forall_mem_nil _
  | [_], plain => by
      rw [String.intercalate_singleton]
      exact plain _ (List.mem_singleton_self _)
  | first :: second :: rest, plain => by
      rcases List.forall_mem_cons.mp plain with ⟨firstPlain, restPlain⟩
      rw [String.intercalate_cons_cons, withoutParentheses_append, withoutParentheses_append]
      exact ⟨⟨firstPlain, by decide⟩, withoutParentheses_intercalate restPlain⟩

theorem Predicate.tidy_render {predicate : Predicate}
    (shows : predicate.kind.Shows predicate.placeholders.length)
    (plain : predicate.Unparenthesized) : Tidy predicate.render := by
  rcases plain with ⟨plainKey, plainTokens⟩
  have plainFirst : WithoutParentheses (predicate.tokens.headD "") := by
    cases tokens : predicate.tokens with
    | nil => exact List.forall_mem_nil _
    | cons first rest => exact plainTokens first (by simp [tokens])
  have comparison : ∀ operator : String, operator.toList ≠ [] →
      WithoutParentheses operator →
        Tidy (predicate.key ++ operator ++ predicate.tokens.headD "") := by
    intro operator nonempty plainOperator
    apply Tidy.of_withoutParentheses
    · simp [nonempty]
    · rw [withoutParentheses_append, withoutParentheses_append]
      exact ⟨⟨plainKey, plainOperator⟩, plainFirst⟩
  have function : ∀ name : String, name.toList ≠ [] → WithoutParentheses name →
      Tidy (name ++ ("(" ++ (predicate.key ++ ", " ++ predicate.tokens.headD "") ++ ")")) := by
    intro name nonempty plainName
    exact (Tidy.of_withoutParentheses nonempty plainName).append
      (comparison ", " (by decide) (by decide)).enclosed
  unfold render renderKind
  cases kind : predicate.kind with
  | eq => exact comparison " = " (by decide) (by decide)
  | notEq => exact comparison " <> " (by decide) (by decide)
  | gt => exact comparison " > " (by decide) (by decide)
  | gtEq => exact comparison " >= " (by decide) (by decide)
  | lt => exact comparison " < " (by decide) (by decide)
  | ltEq => exact comparison " <= " (by decide) (by decide)
  | contains =>
      have tidy := function "contains" (by decide) (by decide)
      rw [show "contains(" = "contains" ++ "(" from rfl]
      simpa only [String.append_assoc] using tidy
  | beginsWith =>
      have tidy := function "begins_with" (by decide) (by decide)
      rw [show "begins_with(" = "begins_with" ++ "(" from rfl]
      simpa only [String.append_assoc] using tidy
  | within =>
      have front : Tidy (predicate.key ++ " in ") := by
        apply Tidy.of_withoutParentheses (by simp)
        exact withoutParentheses_append.mpr ⟨plainKey, by decide⟩
      have inside : Tidy (String.intercalate "," predicate.tokens) := by
        apply Tidy.of_withoutParentheses _ (withoutParentheses_intercalate plainTokens)
        rw [kind] at shows
        unfold tokens
        cases placeholders : predicate.placeholders with
        | nil => simp [placeholders, PredicateKind.Shows, PredicateKind.shape] at shows
        | cons first rest => cases rest <;> simp [Placeholder.token]
      rw [show " in (" = " in " ++ "(" from rfl]
      simpa only [String.append_assoc] using front.append inside.enclosed

/-! ## Solid entries -/

/-- Whether no group in an entry is empty, those included that stand behind its fragments. -/
inductive Entry.Solid (made : List Object) : Entry → Prop
  | predicate (predicate : Predicate) : Solid made (.predicate predicate)
  | group (joined : Connective) {entries : List Entry} (nonempty : entries ≠ [])
      (all : ∀ entry ∈ entries, Solid made entry) : Solid made (.group joined entries)
  | captured {object : Object} {source : Entry} (joined : Connective) (known : object ∈ made)
      (present : source ∈ object.entries) (solid : Solid made source) :
      Solid made (.fragment (source.capture joined))

/-- Whether no group inside a condition is empty. The condition itself may have no entries, and then
it is not shown. -/
def Condition.Solid (made : List Object) (condition : Condition) : Prop :=
  ∀ entry ∈ condition.entries, entry.Solid made

namespace Entry

variable {made : List Object} {issues : List Issue} {entry : Entry} {joined : Connective}

theorem solid_group {entries : List Entry} :
    (Entry.group joined entries).Solid made ↔
      entries ≠ [] ∧ ∀ entry ∈ entries, entry.Solid made := by
  constructor
  · intro solid
    cases solid with
    | group _ nonempty all => exact ⟨nonempty, all⟩
  · exact fun ⟨nonempty, all⟩ => .group joined nonempty all

theorem contains_predicate_iff {predicate other : Predicate} :
    (Entry.predicate other).Contains made predicate ↔ predicate = other := by
  constructor
  · intro contains
    cases contains
    rfl
  · rintro rfl
    exact .itself

theorem contains_group_iff {entries : List Entry} {predicate : Predicate} :
    (Entry.group joined entries).Contains made predicate ↔
      ∃ entry ∈ entries, entry.Contains made predicate := by
  constructor
  · intro contains
    cases contains with
    | member inGroup deeper => exact ⟨_, inGroup, deeper⟩
  · rintro ⟨entry, inGroup, deeper⟩
    exact .member inGroup deeper

/-- Something is tested in an entry without empty groups. -/
theorem Solid.exists_contains (solid : entry.Solid made) :
    ∃ predicate, entry.Contains made predicate := by
  induction solid with
  | predicate predicate => exact ⟨predicate, .itself⟩
  | group joined nonempty _ induction =>
      rcases List.exists_mem_of_ne_nil _ nonempty with ⟨entry, member⟩
      rcases induction entry member with ⟨predicate, contains⟩
      exact ⟨predicate, .member member contains⟩
  | captured joined known present _ induction =>
      rcases induction with ⟨predicate, contains⟩
      exact ⟨predicate, .captured joined known present contains⟩

/-! ### Texts of solid entries -/

theorem tidy_append_renderRest : ∀ {entries : List Entry},
    (∀ entry ∈ entries, Tidy entry.render) → ∀ {front : String}, Tidy front →
      Tidy (front ++ renderRest entries)
  | [], _, front, tidy => by simpa [renderRest] using tidy
  | entry :: rest, allTidy, front, tidy => by
      rcases List.forall_mem_cons.mp allTidy with ⟨entryTidy, restTidy⟩
      have joiner : Tidy (" " ++ entry.connective.text ++ " ") := by
        apply Tidy.of_withoutParentheses (by simp)
        cases entry.connective <;> decide
      rw [renderRest, ← String.append_assoc, ← String.append_assoc]
      exact tidy_append_renderRest restTidy ((tidy.append joiner).append entryTidy)

theorem tidy_renderAll {entries : List Entry} (nonempty : entries ≠ [])
    (allTidy : ∀ entry ∈ entries, Tidy entry.render) : Tidy (renderAll entries) := by
  cases entries with
  | nil => exact absurd rfl nonempty
  | cons first rest =>
      rcases List.forall_mem_cons.mp allTidy with ⟨firstTidy, restTidy⟩
      exact tidy_append_renderRest restTidy firstTidy

/-- Without empty groups there is no `()` in the text, provided that none comes in with the name of
an attribute or a placeholder. -/
theorem Solid.tidy_render (solid : entry.Solid made)
    (plain : ∀ predicate, entry.Contains made predicate →
      predicate.kind.Shows predicate.placeholders.length ∧ predicate.Unparenthesized) :
    Tidy entry.render := by
  induction solid with
  | predicate predicate =>
      rcases plain predicate .itself with ⟨shows, unparenthesized⟩
      exact predicate.tidy_render shows unparenthesized
  | group joined nonempty _ induction =>
      apply (tidy_renderAll nonempty _).enclosed
      intro entry member
      exact induction entry member fun predicate contains =>
        plain predicate (.member member contains)
  | captured joined known present _ induction =>
      exact induction fun predicate contains =>
        plain predicate (.captured joined known present contains)

theorem exists_renderRest_of_mem : ∀ {entries : List Entry}, entry ∈ entries →
    ∃ front back, renderRest entries = front ++ entry.render ++ back
  | first :: rest, member => by
      rw [renderRest]
      rcases List.mem_cons.mp member with rfl | later
      · exact ⟨_, _, rfl⟩
      · rcases exists_renderRest_of_mem later with ⟨front, back, shown⟩
        rw [shown, ← String.append_assoc, ← String.append_assoc]
        exact ⟨_, back, rfl⟩

theorem exists_renderAll_of_mem {entries : List Entry} (member : entry ∈ entries) :
    ∃ front back, renderAll entries = front ++ entry.render ++ back := by
  cases entries with
  | nil => cases member
  | cons first rest =>
      rw [renderAll]
      rcases List.mem_cons.mp member with rfl | later
      · exact ⟨"", renderRest rest, by simp⟩
      · rcases exists_renderRest_of_mem later with ⟨front, back, shown⟩
        rw [shown, ← String.append_assoc, ← String.append_assoc]
        exact ⟨_, back, rfl⟩

theorem hasEmptyGroup_render_of_mem {entries : List Entry} (member : entry ∈ entries)
    (has : HasEmptyGroup entry.render) :
    HasEmptyGroup (Entry.group joined entries).render := by
  rcases exists_renderAll_of_mem member with ⟨front, back, shown⟩
  rw [render, shown]
  exact (has.append front back).append "(" ")"

/-- An empty group shows in the text, wherever it stands. -/
theorem Accounted.hasEmptyGroup_render (accounted : entry.Accounted made issues)
    (notSolid : ¬entry.Solid made) : HasEmptyGroup entry.render := by
  induction accounted with
  | predicate bound => exact absurd (.predicate _) notSolid
  | @group entries joined _ induction =>
      by_cases isEmpty : entries = []
      · subst isEmpty
        exact ⟨"", "", rfl⟩
      · have notAll : ¬∀ entry ∈ entries, entry.Solid made := fun all =>
          notSolid (.group joined isEmpty all)
        simp only [not_forall] at notAll
        rcases notAll with ⟨entry, member, notSolid⟩
        exact hasEmptyGroup_render_of_mem member (induction entry member notSolid)
  | captured joined known present _ induction =>
      exact induction fun solid => notSolid (.captured joined known present solid)

end Entry

namespace Condition

variable {made : List Object} {issues : List Issue} {condition : Condition}

theorem solid_toEntry (nonempty : condition.isEmpty = false) :
    condition.toEntry.Solid made ↔ condition.Solid made := by
  rw [toEntry, Entry.solid_group]
  exact and_iff_right (by simpa [isEmpty] using nonempty)

/-- A condition without empty groups is left out exactly if nothing is tested in it. -/
theorem Solid.render?_eq_none_iff (solid : condition.Solid made) :
    condition.render? = none ↔ ∀ predicate, ¬condition.toEntry.Contains made predicate := by
  unfold render?
  cases isEmpty : condition.isEmpty with
  | true =>
      have noEntries : condition.entries = [] := List.isEmpty_iff.mp isEmpty
      simp [toEntry, noEntries, Entry.contains_group_iff]
  | false =>
      rcases ((solid_toEntry isEmpty).mpr solid).exists_contains with ⟨predicate, contains⟩
      simp only [Bool.false_eq_true, if_false, reduceCtorEq, false_iff]
      exact fun none => none predicate contains

theorem Solid.not_hasEmptyGroup (solid : condition.Solid made)
    (plain : ∀ predicate, condition.toEntry.Contains made predicate →
      predicate.kind.Shows predicate.placeholders.length ∧ predicate.Unparenthesized)
    {text : String} (shown : condition.render? = some text) : ¬HasEmptyGroup text := by
  unfold render? at shown
  cases isEmpty : condition.isEmpty with
  | true => simp [isEmpty] at shown
  | false =>
      rw [isEmpty] at shown
      cases shown
      exact (((solid_toEntry isEmpty).mpr solid).tidy_render plain).not_hasEmptyGroup

theorem solid_of_accounted (accounted : ∀ entry ∈ condition.entries, entry.Accounted made issues)
    (none : ∀ text, condition.render? = some text → ¬HasEmptyGroup text) :
    condition.Solid made := by
  intro entry member
  by_contra notSolid
  have nonempty : condition.isEmpty = false := by
    rw [isEmpty, List.isEmpty_eq_false_iff]
    exact List.ne_nil_of_mem member
  apply none condition.render (by simp [render?, nonempty])
  exact Entry.hasEmptyGroup_render_of_mem member
    ((accounted entry member).hasEmptyGroup_render notSolid)

end Condition

/-! ## Steps -/

namespace ReadDraft

variable {made : List Object} {draft grown : ReadDraft} {before after : Supply}

theorem solid_filter_push {entry : Entry} :
    (draft.push entry).filter.Solid made ↔ draft.filter.Solid made ∧ entry.Solid made := by
  simp [push, Condition.push, Condition.Solid, or_imp, forall_and]

theorem solid_filter_push_predicate {predicate : Predicate} :
    (draft.push (.predicate predicate)).filter.Solid made ↔ draft.filter.Solid made :=
  solid_filter_push.trans (and_iff_left (.predicate predicate))

theorem solid_filter_nest {connective : Connective} {condition : Condition} :
    (draft.nest connective condition).filter.Solid made ↔
      draft.filter.Solid made ∧ condition.Solid made := by
  unfold nest
  split
  · next isEmpty =>
      have noEntries : condition.entries = [] := List.isEmpty_iff.mp isEmpty
      simp [Condition.Solid, noEntries]
  · next nonempty =>
      rw [Bool.not_eq_true] at nonempty
      have solid := @solid_filter_push made draft (condition.toEntry.withConnective connective)
      rw [push, Condition.toEntry, Entry.withConnective, Entry.solid_group] at solid
      have hasEntries : condition.entries ≠ [] := by simpa [Condition.isEmpty] using nonempty
      exact solid.trans (and_congr_right' (and_iff_right hasEntries))

theorem solid_filter_restrict {connective : Connective} {kind : PredicateKind} {key : String}
    {operand : Operand}
    (ran : (draft.restrict connective kind key operand).run before = .ok grown after) :
    grown.filter.Solid made ↔ draft.filter.Solid made := by
  rcases Draw.run_bind_eq_ok.mp ran with ⟨predicate, middle, created, finished⟩
  cases finished
  exact solid_filter_push_predicate

theorem solid_filter_apply {specification : Specification}
    (ran : (draft.apply specification).run before = .ok grown after) :
    grown.filter.Solid made ↔ draft.filter.Solid made := by
  rcases Draw.run_bind_eq_ok.mp ran with ⟨predicate, middle, created, finished⟩
  cases finished
  exact solid_filter_push_predicate

theorem solid_filter_applyAll : ∀ (specifications : List Specification) {draft grown : ReadDraft}
    {before after : Supply}, (draft.applyAll specifications).run before = .ok grown after →
      (grown.filter.Solid made ↔ draft.filter.Solid made)
  | [], _, _, _, _, ran => by
      cases ran
      exact Iff.rfl
  | _ :: rest, _, _, _, _, ran => by
      rcases Draw.run_bind_eq_ok.mp ran with ⟨applied, middle, first, finished⟩
      exact (solid_filter_applyAll rest finished).trans (solid_filter_apply first)

/-- What is taken in as a fragment has no empty group if the draft has none that it comes from. -/
theorem solid_filter_embed {other : ReadDraft} {connective : Connective}
    (embedded : draft.embed other connective = .ok grown) (known : .read other ∈ made)
    (solid : other.filter.Solid made) :
    grown.filter.Solid made ↔ draft.filter.Solid made := by
  rcases of_embed embedded with ⟨_, rfl⟩ | ⟨nonempty, _, rfl⟩
  · exact Iff.rfl
  · have source : other.filter.toEntry.Solid made := (Condition.solid_toEntry nonempty).mpr solid
    exact solid_filter_push.trans (and_iff_left
      (.captured connective known (Object.filter_mem_entries other) source))

end ReadDraft

/-- Whether the conditions among some objects have no empty groups inside. -/
def ConditionsSolid (made operands : List Object) : Prop :=
  ∀ condition, .condition condition ∈ operands → condition.Solid made

/-- Whether the filters of the reads among some objects have no empty groups, and the reads were
made. -/
def FiltersSolid (made operands : List Object) : Prop :=
  ∀ draft, .read draft ∈ operands → .read draft ∈ made ∧ draft.filter.Solid made

section

variable {made : List Object}

theorem conditionsSolid_append {first second : List Object} :
    ConditionsSolid made (first ++ second) ↔
      ConditionsSolid made first ∧ ConditionsSolid made second := by
  simp [ConditionsSolid, or_imp, forall_and]

/-- A step without conditions among its operands asks for nothing more of the filter. -/
theorem iff_and_conditionsSolid_nil {before : Prop} : before ↔ before ∧ ConditionsSolid made [] :=
  (and_iff_left fun _ member => absurd member List.not_mem_nil).symm

mutual
/-- A step leaves a filter without empty groups if and only if there was none in it, and none in a
condition that the step takes in at any depth. -/
theorem ReadStep.solid_filter_iff_of_run : ∀ (step : ReadStep) {draft grown : ReadDraft}
    {before after : Supply}, FiltersSolid made step.operands →
      (step.run draft).run before = .ok grown after →
        (grown.filter.Solid made ↔
          draft.filter.Solid made ∧ ConditionsSolid made step.operands)
  | .restrict .., _, _, _, _, _, ran =>
      (ReadDraft.solid_filter_restrict ran).trans iff_and_conditionsSolid_nil
  | .call verbName key operand, draft, grown, before, after, _, ran => by
      rcases Draw.run_bind_eq_ok.mp ran with ⟨verb, middle, named, finished⟩
      exact (ReadDraft.solid_filter_restrict finished).trans iff_and_conditionsSolid_nil
  | .apply _, _, _, _, _, _, ran =>
      (ReadDraft.solid_filter_apply ran).trans iff_and_conditionsSolid_nil
  | .applyAll specifications, _, _, _, _, _, ran =>
      (ReadDraft.solid_filter_applyAll specifications ran).trans iff_and_conditionsSolid_nil
  | .embed other _, _, _, _, _, known, ran => by
      rcases known other (by simp [ReadStep.operands]) with ⟨isMade, solid⟩
      have embedded := (Draw.run_ofExcept_eq_ok.mp ran).1
      rw [ReadDraft.solid_filter_embed embedded isMade solid, and_iff_left]
      simp [ConditionsSolid, ReadStep.operands]
  | .nest condition _, _, _, _, _, _, ran => by
      cases ran
      rw [ReadDraft.solid_filter_nest]
      simp [ConditionsSolid, ReadStep.operands]
  | .group _ steps, draft, _, _, _, known, ran => by
      rcases Draw.run_bind_eq_ok.mp ran with ⟨child, middle, built, finished⟩
      cases finished
      -- The branch starts with an empty filter, so only what the script takes in counts.
      have blank : draft.branch.filter.Solid made := List.forall_mem_nil _
      rw [ReadDraft.solid_filter_nest, solid_filter_iff_of_runScript steps known built,
        and_iff_right blank]
      rfl
  | .keyCondition .., _, _, _, _, _, ran => by
      rcases ReadDraft.of_run_keyCondition ran with ⟨_, _, _, _, _, _, rfl⟩
      exact iff_and_conditionsSolid_nil
  | .descending, draft, grown, _, _, _, ran => by
      have descends := (Draw.run_ofExcept_eq_ok.mp ran).1
      unfold ReadDraft.descending at descends
      split at descends
      · cases descends
        exact iff_and_conditionsSolid_nil
      · cases descends
  | .attributeNames _, _, _, _, _, _, ran | .index _, _, _, _, _, _, ran
  | .projection _, _, _, _, _, _, ran | .limit _, _, _, _, _, _, ran
  | .select _, _, _, _, _, _, ran | .consistentRead _, _, _, _, _, _, ran
  | .startKey _, _, _, _, _, _, ran => by
      cases ran
      exact iff_and_conditionsSolid_nil
  | .fail _, _, _, _, _, _, ran => by cases ran

theorem solid_filter_iff_of_runScript : ∀ (steps : List ReadStep) {draft grown : ReadDraft}
    {before after : Supply}, FiltersSolid made (scriptOperands steps) →
      (runScript steps draft).run before = .ok grown after →
        (grown.filter.Solid made ↔
          draft.filter.Solid made ∧ ConditionsSolid made (scriptOperands steps))
  | [], _, _, _, _, _, ran => by
      cases ran
      exact iff_and_conditionsSolid_nil
  | step :: rest, draft, grown, before, after, known, ran => by
      rcases Draw.run_bind_eq_ok.mp ran with ⟨changed, middle, first, finished⟩
      have stepKnown : FiltersSolid made step.operands := fun draft used =>
        known draft (List.mem_append_left _ used)
      have restKnown : FiltersSolid made (scriptOperands rest) := fun draft used =>
        known draft (List.mem_append_right _ used)
      rw [solid_filter_iff_of_runScript rest restKnown finished,
        step.solid_filter_iff_of_run stepKnown first, scriptOperands, conditionsSolid_append,
        and_assoc]
end

end

/-! ## Runs -/

/-- The conditions that an act nests in a filter: those that a step takes in, at any depth of its
groups, if it succeeds. -/
def Act.nested (act : Act) (supply : Supply) : List Condition :=
  match act with
  | .call (.step draft step) =>
      match (step.run draft).run supply with
      | .ok _ _ => step.operands.filterMap fun
          | .condition condition => some condition
          | _ => none
      | .error _ _ => []
  | _ => []

namespace Stage

/-- The conditions that some acts nest in filters. -/
def nested (stage : Stage) : List Act → List Condition
  | [] => []
  | act :: rest => act.nested stage.supply ++ (stage.afterAct act).nested rest

theorem made_subset_afterActs : ∀ (acts : List Act) (stage : Stage),
    stage.made ⊆ (stage.afterActs acts).made
  | [], _ => List.Subset.refl _
  | act :: rest, stage =>
      List.Subset.trans (stage.made_subset_afterAct act)
        (made_subset_afterActs rest (stage.afterAct act))

theorem mem_made_of_run {stage : Stage} {act : Act} {object : Object} {after : Supply}
    (ran : act.action.run stage.supply = .ok object after) :
    object ∈ (stage.afterAct act).made := by
  simp [afterAct, ran]

variable {made : List Object}

theorem mem_nested_step {draft grown : ReadDraft} {step : ReadStep} {before after : Supply}
    (ran : (step.run draft).run before = .ok grown after) {condition : Condition} :
    condition ∈ (Act.call (.step draft step)).nested before ↔
      .condition condition ∈ step.operands := by
  simp only [Act.nested, ran, List.mem_filterMap]
  constructor
  · rintro ⟨object, used, isCondition⟩
    cases object <;> cases isCondition
    exact used
  · exact fun used => ⟨_, used, rfl⟩

/-- Whether an act is a step of a draft that succeeds, or nests nothing. -/
theorem nested_cases (act : Act) (before : Supply) :
    (∃ draft step grown after, act = .call (.step draft step) ∧
      (step.run draft).run before = .ok grown after) ∨ act.nested before = [] := by
  cases act with
  | call asked =>
      cases asked with
      | step draft step =>
          cases ran : (step.run draft).run before with
          | ok grown after => exact .inl ⟨draft, step, grown, after, rfl, ran⟩
          | error error after => exact .inr (by simp [Act.nested, ran])
      | _ => exact .inr rfl
  | _ => exact .inr rfl

/-- After an act no filter has an empty group if and only if none had one before and no condition
had one that the act has nested. -/
theorem filtersSolid_afterAct_iff {stage : Stage} {act : Act}
    (known : ∀ operand ∈ act.operands, operand ∈ stage.made)
    (kept : (stage.afterAct act).made ⊆ made) :
    FiltersSolid made (stage.afterAct act).made ↔
      FiltersSolid made stage.made ∧
        ∀ condition ∈ act.nested stage.supply, condition.Solid made := by
  constructor
  · intro solid
    have before : FiltersSolid made stage.made := fun draft isMade =>
      solid draft (stage.made_subset_afterAct act isMade)
    refine ⟨before, ?_⟩
    rcases nested_cases act stage.supply with ⟨draft, step, grown, after, rfl, ran⟩ | none
    · have acted : (Act.call (.step draft step)).action.run stage.supply =
          .ok (.read grown) after := Draw.run_map_eq_ok.mpr ⟨grown, ran, rfl⟩
      have operands : FiltersSolid made step.operands := fun other used =>
        before other (known _ (List.mem_cons_of_mem _ used))
      -- The draft that the step has made is among the objects, and says what the step took in.
      have grownSolid := (solid grown (mem_made_of_run acted)).2
      intro condition isNested
      exact ((step.solid_filter_iff_of_run operands ran).mp grownSolid).2 condition
        ((mem_nested_step ran).mp isNested)
    · rw [none]
      exact List.forall_mem_nil _
  · rintro ⟨before, nestedSolid⟩ draft isMade
    refine ⟨kept isMade, ?_⟩
    rcases mem_made_afterAct isMade with isOld | ran
    · exact (before draft isOld).2
    · rcases Act.read_of_run ran with isOperand | ⟨_, _, _, _, rfl⟩ |
        ⟨earlier, step, rfl, stepped⟩ | ⟨earlier, connective, child, rfl, rfl⟩
      · exact (before draft (known _ isOperand)).2
      · exact List.forall_mem_nil _
      · have operands : FiltersSolid made step.operands := fun other used =>
          before other (known _ (List.mem_cons_of_mem _ used))
        rw [step.solid_filter_iff_of_run operands stepped]
        refine ⟨(before earlier (known _ List.mem_cons_self)).2, ?_⟩
        exact fun condition used => nestedSolid condition ((mem_nested_step stepped).mpr used)
      · rw [ReadDraft.solid_filter_nest]
        exact ⟨(before earlier (known _ List.mem_cons_self)).2,
          (before child (known _ (by simp [Act.operands, Call.operands]))).2⟩

theorem filtersSolid_afterActs_iff : ∀ (acts : List Act) {stage : Stage}, stage.Knows acts →
    (stage.afterActs acts).made ⊆ made →
      (FiltersSolid made (stage.afterActs acts).made ↔
        FiltersSolid made stage.made ∧ ∀ condition ∈ stage.nested acts, condition.Solid made)
  | [], stage, _, _ => by simp [afterActs, nested]
  | act :: rest, stage, known, kept => by
      have keptEarlier : (stage.afterAct act).made ⊆ made :=
        List.Subset.trans (made_subset_afterActs rest (stage.afterAct act)) kept
      rw [afterActs, filtersSolid_afterActs_iff rest known.2 kept,
        filtersSolid_afterAct_iff known.1 keptEarlier, nested, List.forall_mem_append, and_assoc]

end Stage

/-! ## Drafts -/

/-- The conditions of a draft, under the names of the fields that they are compiled to. -/
def Object.conditions : Object → List (String × Condition)
  | .read draft => ("FilterExpression", draft.filter) ::
      (draft.target.keyCondition?.map fun keys => ("KeyConditionExpression", keys)).toList
  | .update draft => [("ConditionExpression", draft.condition)]
  | _ => []

theorem Object.mem_conditions_read {draft : ReadDraft} {field : String} {condition : Condition} :
    (field, condition) ∈ (Object.read draft).conditions ↔
      (field = "FilterExpression" ∧ condition = draft.filter) ∨
        (field = "KeyConditionExpression" ∧ draft.target.keyCondition? = some condition) := by
  simp only [conditions, List.mem_cons, Prod.mk.injEq, Option.mem_toList, Option.map_eq_some_iff]
  refine or_congr_right ⟨?_, ?_⟩
  · rintro ⟨keys, isQuery, rfl, rfl⟩
    exact ⟨rfl, isQuery⟩
  · rintro ⟨rfl, isQuery⟩
    exact ⟨condition, isQuery, rfl, rfl⟩

/-- What a draft shows in a field when it is compiled. -/
def Object.expression? (object : Object) (field : String) : Option String :=
  match object with
  | .read draft => (draft.compile .empty).text? field
  | .update draft => (draft.compile .empty).text? field
  | _ => none

theorem Object.expression?_eq_render? {object : Object} {field : String} {condition : Condition}
    (compiled : (field, condition) ∈ object.conditions) :
    object.expression? field = condition.render? := by
  cases object with
  | read draft =>
      rcases mem_conditions_read.mp compiled with ⟨rfl, rfl⟩ | ⟨rfl, isQuery⟩
      · exact draft.filterExpression?_compile
      · exact ReadDraft.keyConditionExpression?_compile isQuery
  | update draft =>
      cases List.mem_singleton.mp compiled
      rw [expression?, Request.text?, UpdateDraft.compile, Request.get?_expression _ (by decide)]
      change (draft.condition.render?.map Json.string).bind Json.string? = _
      cases draft.condition.render? <;> rfl
  | _ => cases compiled

/-- Whether the text that a condition is compiled to says what is in it. If no group in it is empty
the text is absent just where nothing is tested. If neither attributes nor placeholders have
parentheses a group is empty just where the text has a `()`. -/
structure Condition.ShownBy (made : List Object) (condition : Condition)
    (expression? : Option String) : Prop where
  absent : condition.Solid made →
    (expression? = none ↔ ∀ predicate, ¬condition.toEntry.Contains made predicate)
  text : (∀ predicate, condition.toEntry.Contains made predicate → predicate.Unparenthesized) →
    (condition.Solid made ↔ ∀ text, expression? = some text → ¬HasEmptyGroup text)

theorem Condition.shownBy_render? {made : List Object} {issues : List Issue} {condition : Condition}
    (accounted : condition.Solid made ∨ ∀ entry ∈ condition.entries, entry.Accounted made issues)
    (shows : ∀ predicate, condition.toEntry.Contains made predicate →
      predicate.kind.Shows predicate.placeholders.length) :
    condition.ShownBy made condition.render? where
  absent solid := solid.render?_eq_none_iff
  text plain := by
    constructor
    · intro solid text shown
      exact solid.not_hasEmptyGroup
        (fun predicate contains => ⟨shows predicate contains, plain predicate contains⟩) shown
    · intro none
      exact accounted.elim id fun accounted => condition.solid_of_accounted accounted none

/-- A condition of predicates has no groups. -/
theorem Condition.solid_of_predicates {made : List Object} {condition : Condition}
    (simple : ∀ entry ∈ condition.entries, ∃ predicate, entry = .predicate predicate) :
    condition.Solid made := by
  intro entry member
  rcases simple entry member with ⟨predicate, rfl⟩
  exact .predicate predicate

namespace Stage.InSession

variable {permitted : Act → Prop} {stage : Stage} (session : stage.InSession permitted)
include session

theorem solid_keyCondition {draft : ReadDraft} (isMade : .read draft ∈ stage.made)
    {keys : Condition} (isQuery : draft.target.keyCondition? = some keys) :
    keys.Solid stage.made := by
  rcases session.exists_keyed draft isMade with ⟨tests, keyed⟩
  rcases keyed.exists_predicates isQuery with ⟨predicates, rfl, _⟩
  apply Condition.solid_of_predicates
  intro entry member
  rcases List.mem_map.mp member with ⟨predicate, _, rfl⟩
  exact ⟨predicate, rfl⟩

/-- Whatever a draft of a session is compiled to says what is in it, and only a filter can have an
empty group. -/
theorem solid_and_shownBy {object : Object} (isMade : object ∈ stage.made) {field : String}
    {condition : Condition} (compiled : (field, condition) ∈ object.conditions) :
    (field ≠ "FilterExpression" → condition.Solid stage.made) ∧
      condition.ShownBy stage.made (object.expression? field) := by
  rw [Object.expression?_eq_render? compiled]
  cases object with
  | read draft =>
      have shows := session.shows isMade
      have accounted := Object.accounted_read.mp (session.accounted _ isMade)
      rcases Object.mem_conditions_read.mp compiled with ⟨rfl, rfl⟩ | ⟨rfl, isQuery⟩
      · refine ⟨fun other => absurd rfl other, Condition.shownBy_render? (.inr accounted.2) ?_⟩
        exact shows _ (Object.filter_mem_entries draft)
      · have solid := session.solid_keyCondition isMade isQuery
        refine ⟨fun _ => solid, @Condition.shownBy_render? _ [] _ (.inl solid) ?_⟩
        exact shows _ (Object.keyCondition_mem_entries isQuery)
  | update draft =>
      cases List.mem_singleton.mp compiled
      have reached := session.update_reached draft isMade
      have simple :
          ∀ entry ∈ draft.condition.entries, ∃ predicate, entry = .predicate predicate := by
        intro entry member
        rcases reached.own.condition entry member with ⟨predicate, same, _⟩
        exact ⟨predicate, same⟩
      have solid : draft.condition.Solid stage.made := Condition.solid_of_predicates simple
      refine ⟨fun _ => solid, @Condition.shownBy_render? _ [] _ (.inl solid) ?_⟩
      intro predicate contains
      rcases Entry.contains_group_iff.mp contains with ⟨entry, inGroup, deeper⟩
      rcases simple entry inGroup with ⟨tested, rfl⟩
      rw [Entry.contains_predicate_iff.mp deeper]
      exact reached.shows inGroup
  | _ => cases compiled

end Stage.InSession

/-- After any acts the drafts are compiled without empty groups if and only if no condition had one
inside that was nested in a filter. Key conditions and the conditions of updates never have one. A
filter without empty groups is left out exactly where nothing is tested in it. -/
theorem Stage.solid_iff_nested_solid_of_afterActs {randomWord : Nat → String} {acts : List Act}
    {stage : Stage} (ran : stage = (start randomWord).afterActs acts)
    (known : (start randomWord).Knows acts) :
    (∀ object ∈ stage.made, ∀ field condition, (field, condition) ∈ object.conditions →
      (field ≠ "FilterExpression" → condition.Solid stage.made) ∧
        condition.ShownBy stage.made (object.expression? field)) ∧
    ((∀ draft, .read draft ∈ stage.made → draft.filter.Solid stage.made) ↔
      ∀ condition ∈ (start randomWord).nested acts, condition.Solid stage.made) := by
  subst ran
  have session : ((start randomWord).afterActs acts).InSession fun _ => True :=
    InSession.afterActs acts (.start randomWord) (fun _ _ => trivial) known
  refine ⟨fun _ isMade _ _ compiled => session.solid_and_shownBy isMade compiled, ?_⟩
  have filters := filtersSolid_afterActs_iff acts known (List.Subset.refl _)
  have blank : FiltersSolid ((start randomWord).afterActs acts).made (start randomWord).made :=
    fun _ isMade => absurd isMade List.not_mem_nil
  rw [and_iff_right blank] at filters
  rw [← filters]
  exact ⟨fun solid draft isMade => ⟨isMade, solid draft isMade⟩,
    fun solid draft isMade => (solid draft isMade).2⟩

/-! ## A filter that is nested, and an empty group -/

def ratedTwice : ReadDraft := ratedGames.nest .or ratedGames.filter

def ratedTwiceActs : List Act :=
  [.call (.makeTable "games"), .call (.scanTable gamesTable),
    .call (.step gamesTable.scan (.restrict .and .eq "rated" (.scalar (.bool true)))),
    .call (.filterOf ratedGames), .call (.step ratedGames (.nest ratedGames.filter .or))]

def ratedTwiceStage : Stage := (Stage.start fun _ => "").afterActs ratedTwiceActs

theorem Stage.solid_iff_nested_solid_of_ratedTwice :
    (start fun _ => "").Knows ratedTwiceActs ∧
      (∀ draft, .read draft ∈ ratedTwiceStage.made → draft.filter.Solid ratedTwiceStage.made) ∧
      .read ratedTwice ∈ ratedTwiceStage.made ∧
      (Object.read ratedTwice).expression? "FilterExpression" =
        some "(rated = :p1 or (rated = :p1))" ∧
      ¬HasEmptyGroup "(rated = :p1 or (rated = :p1))" := by
  have known : (start fun _ => "").Knows ratedTwiceActs := by decide
  have isMade : .read ratedTwice ∈ ratedTwiceStage.made := by decide
  have shown : (Object.read ratedTwice).expression? "FilterExpression" =
      some "(rated = :p1 or (rated = :p1))" := by decide
  rcases @solid_iff_nested_solid_of_afterActs _ _ ratedTwiceStage rfl known with
    ⟨conditions, filters⟩
  have solid : ∀ draft, .read draft ∈ ratedTwiceStage.made →
      draft.filter.Solid ratedTwiceStage.made := by
    rw [filters]
    have nested : (start fun _ => "").nested ratedTwiceActs = [ratedGames.filter] := by decide
    rw [nested]
    intro condition member entry present
    rw [List.mem_singleton.mp member] at present
    rw [List.mem_singleton.mp present]
    exact .predicate isRated
  refine ⟨known, solid, isMade, shown, ?_⟩
  have shownBy := (conditions _ isMade _ _ List.mem_cons_self).2
  refine (shownBy.text ?_).mp (solid ratedTwice isMade) _ shown
  have entries : ratedTwice.filter.toEntry =
      .group .and [.predicate isRated, .group .or [.predicate isRated]] := rfl
  intro predicate contains
  have same : predicate = isRated := by
    simpa [entries, Entry.contains_group_iff, Entry.contains_predicate_iff] using contains
  rw [same]
  unfold Predicate.Unparenthesized
  decide

def emptyInside : Condition := ⟨.and, [.group .and []]⟩

def emptyInsideActs : List Act :=
  [.call .emptyCondition, .call (.push .empty Condition.empty.toEntry),
    .call (.makeTable "games"), .call (.scanTable gamesTable),
    .call (.step gamesTable.scan (.nest emptyInside .and))]

/-- A condition that has an empty group inside is taken in, though nothing is tested in it. -/
theorem hasEmptyGroup_of_nest_emptyInside :
    (Stage.start fun _ => "").Knows emptyInsideActs ∧
      .read (gamesTable.scan.nest .and emptyInside) ∈
        ((Stage.start fun _ => "").afterActs emptyInsideActs).made ∧
      ((gamesTable.scan.nest .and emptyInside).compile .empty).filterExpression? =
        some "((()))" ∧
      HasEmptyGroup "((()))" ∧
      ∀ made predicate,
        ¬(gamesTable.scan.nest .and emptyInside).filter.toEntry.Contains made predicate := by
  refine ⟨by decide, by decide, by decide, ⟨"((", "))", rfl⟩, ?_⟩
  intro made predicate
  have entries : (gamesTable.scan.nest .and emptyInside).filter.toEntry =
      .group .and [.group .and [.group .and []]] := rfl
  simp [entries, Entry.contains_group_iff]

end ItemQuery
