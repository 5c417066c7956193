import ItemQuery.Proofs.References
import ItemQuery.Proofs.Updates

/-!
Compiled drafts have values for what they mention.

What holds of reads holds of updates, whose texts are those of the assignments and of the condition.
So in every run a compiled draft has a value under each token that its predicates and assignments
show, and under no other (`hasValuesFor_emits_and_mentions`).
-/

namespace ItemQuery

/-! ## Drafts of updates -/

namespace UpdateDraft

/-- Whether an assignment or a predicate of the condition of a draft shows a token. -/
def Emits (draft : UpdateDraft) (token : String) : Prop :=
  (∃ assignment ∈ draft.assignments.values, assignment.1.token = token) ∨
    ∃ predicate, .predicate predicate ∈ draft.condition.entries ∧ token ∈ predicate.shownTokens

/-- Whether no attribute that a draft assigns or tests has a colon in its name. -/
def PlainKeys (draft : UpdateDraft) : Prop :=
  (∀ name ∈ draft.assignments.names, ':' ∉ name.toList) ∧
    ∀ predicate, .predicate predicate ∈ draft.condition.entries → ':' ∉ predicate.key.toList

theorem tokensIn_clause {assignment : String × Placeholder × AttributeValue}
    (tellable : assignment.2.1.Tellable) (plain : ':' ∉ assignment.1.toList) :
    tokensIn (clause assignment).toList = [assignment.2.1.token.toList] := by
  have plainBefore : ':' ∉ (assignment.1 ++ " = ").toList := by simp [plain]
  rw [clause, String.toList_append, tokensIn_append_of_plain plainBefore, tokensIn_token tellable]

/-- The text of the assignments mentions the tokens of the assignments. -/
theorem mem_textTokens_updateExpression? {draft : UpdateDraft}
    (tellable : ∀ assignment ∈ draft.assignments.values, assignment.1.Tellable)
    (plain : ∀ name ∈ draft.assignments.names, ':' ∉ name.toList) {token : String} :
    (∃ text, draft.updateExpression? = some text ∧ token ∈ textTokens text) ↔
      ∃ assignment ∈ draft.assignments.values, assignment.1.token = token := by
  have plainBefore : ':' ∉ "SET ".toList := by decide
  have clauses := @tokensIn_intercalate ", " ',' [' '] rfl (by decide) (by decide)
    (draft.assignments.entries.map clause)
  have texts : ∀ token, token ∈ textTokens
      ("SET " ++ String.intercalate ", " (draft.assignments.entries.map clause)) ↔
        ∃ assignment ∈ draft.assignments.values, assignment.1.token = token := by
    intro token
    rw [mem_textTokens, String.toList_append, tokensIn_append_of_plain plainBefore, clauses]
    have found : ∀ entry ∈ draft.assignments.entries,
        tokensIn (clause entry).toList = [entry.2.1.token.toList] := by
      intro entry stored
      exact tokensIn_clause (tellable _ (List.mem_map_of_mem stored))
        (plain _ (List.mem_map_of_mem stored))
    constructor
    · intro member
      rcases List.mem_flatMap.mp member with ⟨_, isClause, present⟩
      rcases List.mem_map.mp isClause with ⟨entry, stored, rfl⟩
      rw [found entry stored, List.mem_singleton] at present
      exact ⟨entry.2, List.mem_map_of_mem stored, (String.toList_inj.mp present).symm⟩
    · rintro ⟨_, member, rfl⟩
      rcases List.mem_map.mp member with ⟨entry, stored, rfl⟩
      refine List.mem_flatMap.mpr ⟨clause entry, List.mem_map_of_mem stored, ?_⟩
      rw [found entry stored]
      exact List.mem_singleton_self _
  unfold updateExpression?
  cases isEmpty : draft.assignments.isEmpty with
  | false => simp [texts]
  | true =>
      have noEntries : draft.assignments.entries = [] := List.isEmpty_iff.mp isEmpty
      simp [Dictionary.values, noEntries]

namespace Reached

variable {words : Nat → String} {draft : UpdateDraft} (reached : draft.Reached words)
include reached

theorem shows {predicate : Predicate} (present : .predicate predicate ∈ draft.condition.entries) :
    predicate.kind.Shows predicate.placeholders.length := by
  rcases reached.own.condition _ present with ⟨_, same, creates⟩
  cases same
  exact creates.shows

theorem mem_names_tokenValues {token : String} :
    token ∈ (Dictionary.ofList draft.tokenValues).names ↔ draft.Emits token := by
  rw [Dictionary.mem_names_ofList, tokenValues]
  simp only [List.mem_append, exists_or, Condition.tokenValues_eq]
  apply or_congr
  · constructor
    · rintro ⟨value, member⟩
      rcases List.mem_map.mp member with ⟨assignment, assigned, equal⟩
      exact ⟨assignment, assigned, congrArg Prod.fst equal⟩
    · rintro ⟨assignment, assigned, rfl⟩
      exact ⟨assignment.2, List.mem_map.mpr ⟨assignment, assigned, rfl⟩⟩
  · constructor
    · rintro ⟨value, member⟩
      rcases List.mem_flatMap.mp member with ⟨entry, present, binds⟩
      rcases reached.own.condition entry present with ⟨predicate, rfl, _⟩
      refine ⟨predicate, present, ?_⟩
      rw [Predicate.shownTokens_eq (reached.shows present)]
      exact Predicate.mem_tokens_iff.mpr ⟨value, binds⟩
    · rintro ⟨predicate, present, shown⟩
      rcases Predicate.mem_tokens_iff.mp (Predicate.shownTokens_subset shown) with ⟨value, bound⟩
      exact ⟨value, List.mem_flatMap.mpr ⟨_, present, bound⟩⟩

theorem tellable_of_assigned (stem : draft.binder.mint.Valid)
    (valid : ∀ number, ∀ char ∈ (words number).toList, Config.isTokenChar char = true)
    {assignment : Placeholder × AttributeValue} (assigned : assignment ∈ draft.assignments.values) :
    assignment.1.Tellable := by
  rcases reached.own.assignments assignment assigned with ⟨before, after, sameWords, issued⟩
  have validBefore : before.Valid := fun number => sameWords ▸ valid number
  have drawn := Mint.Issues.next none issued (.none after)
  exact drawn.tellable stem validBefore _ (List.mem_singleton_self _)

theorem emits_iff_mentions (stem : draft.binder.mint.Valid)
    (valid : ∀ number, ∀ char ∈ (words number).toList, Config.isTokenChar char = true)
    (plain : draft.PlainKeys) {token : String} :
    draft.Emits token ↔ (draft.compile .empty).Mentions token := by
  have tellable : ∀ assignment ∈ draft.assignments.values, assignment.1.Tellable :=
    fun _ assigned => reached.tellable_of_assigned stem valid assigned
  have told : ∀ predicate, .predicate predicate ∈ draft.condition.entries → predicate.Told := by
    intro predicate present
    rcases reached.own.condition _ present with ⟨_, same, creates⟩
    cases same
    exact ⟨creates.shows, creates.tellable stem valid, plain.2 predicate present⟩
  have assignments := @mem_textTokens_updateExpression? draft tellable plain.1 token
  have condition : (∃ text, draft.condition.render? = some text ∧ token ∈ textTokens text) ↔
      ∃ predicate, .predicate predicate ∈ draft.condition.entries ∧
        token ∈ predicate.shownTokens := by
    rw [Condition.mem_textTokens_render?, Condition.toEntry, Entry.mem_textTokens_group]
    constructor
    · rintro ⟨entry, present, mentioned⟩
      rcases reached.own.condition entry present with ⟨predicate, rfl, _⟩
      exact ⟨predicate, present, (told predicate present).mem_textTokens_render.mp mentioned⟩
    · rintro ⟨predicate, present, shown⟩
      exact ⟨_, present, (told predicate present).mem_textTokens_render.mpr shown⟩
  rw [compile, Request.mentions_ofInput, toInput]
  simpa [expressionFields, Input.expression?, toUpdateInput, Emits] using
    (or_congr assignments condition).symm

end Reached

end UpdateDraft

/-! ## Compiled drafts -/

/-- A draft of any run compiles to a request with values for exactly the tokens that its predicates
and assignments show; a read has in it what the draft binds. With valid stems and without colons in
attributes these are the tokens that stand in the expressions of the request. -/
theorem hasValuesFor_emits_and_mentions :
    (∀ (stage : Stage) (draft : ReadDraft), stage.Reached → .read draft ∈ stage.made →
      (draft.compile .empty).HasValuesFor (draft.Emits stage.made) ∧
        (draft.compile .empty).get? "ExpressionAttributeValues" = itemToJson draft.boundValues ∧
        ((∀ object ∈ stage.made, ∀ mint ∈ object.mint?, mint.Valid) → stage.supply.Valid →
          draft.PlainKeys stage.made →
            (draft.compile .empty).HasValuesFor (draft.compile .empty).Mentions)) ∧
    ∀ (words : Nat → String) (draft : UpdateDraft), draft.Reached words →
      (draft.compile .empty).HasValuesFor draft.Emits ∧
        (draft.binder.mint.Valid →
          (∀ number, ∀ char ∈ (words number).toList, Config.isTokenChar char = true) →
          draft.PlainKeys →
            (draft.compile .empty).HasValuesFor (draft.compile .empty).Mentions) := by
  constructor
  · intro stage draft reached isMade
    have names : ∀ token, token ∈ draft.toInput.attributeValues.names ↔
        draft.Emits stage.made token := by
      intro token
      rw [ReadDraft.attributeValues_toInput]
      exact reached.mem_names_boundValues isMade
    refine ⟨Request.hasValuesFor_ofInput names, draft.get?_boundValues, ?_⟩
    intro stems words plain
    apply Request.hasValuesFor_ofInput
    intro token
    rw [names]
    exact reached.emits_iff_mentions isMade stems words plain
  · intro words draft reached
    have names : ∀ token, token ∈ draft.toInput.attributeValues.names ↔ draft.Emits token :=
      fun token => reached.mem_names_tokenValues
    refine ⟨Request.hasValuesFor_ofInput names, ?_⟩
    intro stem valid plain
    apply Request.hasValuesFor_ofInput
    intro token
    rw [names]
    exact reached.emits_iff_mentions stem valid plain

/-! ## A read with a fragment, and an update -/

/-- An update of the games that are still marked as lost. -/
def ratedUpdate : UpdateDraft :=
  { UpdateDraft.start "games" gamesTable.binder with
    assignments := Dictionary.ofList [("rated", ⟨"p1"⟩, .bool true)]
    condition := ⟨.and, [.predicate ⟨.eq, "lost", .and, [(⟨"p2"⟩, .bool true)]⟩]⟩ }

theorem made_gamesStage : gamesStage.made =
    [.table gamesTable, .read gamesTable.scan, .read ratedGames, .read namedGames,
      .read namedOrRatedGames] := by
  decide

theorem plainKeys_namedOrRatedGames : namedOrRatedGames.PlainKeys gamesStage.made := by
  have closed : Entry.Closed (Entry.Made fun predicate => ':' ∉ predicate.key.toList) :=
    Entry.made_closed fun _ _ plain => plain
  have named : (Object.read namedGames).All
      (Entry.Made fun predicate => ':' ∉ predicate.key.toList) := by
    refine (Object.all_read closed).mpr ⟨List.forall_mem_nil _, ?_⟩
    exact List.forall_mem_singleton.mpr (.predicate (by decide))
  have made : ∀ object ∈ gamesStage.made,
      object.All (Entry.Made fun predicate => ':' ∉ predicate.key.toList) := by
    rw [made_gamesStage]
    refine List.forall_mem_cons.mpr ⟨List.forall_mem_nil _, ?_⟩
    refine List.forall_mem_cons.mpr ⟨Object.all_start closed .scan _ _, ?_⟩
    refine List.forall_mem_cons.mpr ⟨(Object.all_read closed).mpr ⟨List.forall_mem_nil _, ?_⟩, ?_⟩
    · exact List.forall_mem_singleton.mpr (.predicate (by decide))
    · refine List.forall_mem_cons.mpr ⟨named, List.forall_mem_singleton.mpr ?_⟩
      refine (Object.all_read closed).mpr ⟨List.forall_mem_nil _, ?_⟩
      exact List.forall_mem_append.mpr
        ⟨((Object.all_read closed).mp named).2, List.forall_mem_singleton.mpr (.fragment _)⟩
  intro entry present predicate contains
  have isMade : .read namedOrRatedGames ∈ gamesStage.made := by decide
  exact contains.sorted (made _ isMade entry present) made

theorem hasValuesFor_emits_and_mentions_of_games :
    gamesStage.Reached ∧ .read namedOrRatedGames ∈ gamesStage.made ∧
      (∀ object ∈ gamesStage.made, ∀ mint ∈ object.mint?, mint.Valid) ∧ gamesStage.supply.Valid ∧
      namedOrRatedGames.PlainKeys gamesStage.made ∧
      (namedOrRatedGames.compile .empty).HasValuesFor
        (namedOrRatedGames.compile .empty).Mentions ∧
      (namedOrRatedGames.compile .empty).valueNames = [":p1", ":p3"] ∧
      ratedUpdate.Reached (fun _ => "") ∧ ratedUpdate.binder.mint.Valid ∧ ratedUpdate.PlainKeys ∧
      (ratedUpdate.compile .empty).HasValuesFor (ratedUpdate.compile .empty).Mentions ∧
      (ratedUpdate.compile .empty).expressions = ["SET rated = :p1", "(lost = :p2)"] := by
  have reached : gamesStage.Reached := ⟨_, Stage.leads_afterAll (by decide)⟩
  have isMade : .read namedOrRatedGames ∈ gamesStage.made := by decide
  have stem : gamesTable.mint.Valid := ⟨.default, rfl, rfl⟩
  have stems : ∀ object ∈ gamesStage.made, ∀ mint ∈ object.mint?, mint.Valid := by
    have shared : ∀ object ∈ gamesStage.made, ∀ mint ∈ object.mint?, mint = gamesTable.mint := by
      decide
    intro object known mint owns
    rw [shared object known mint owns]
    exact stem
  have words : gamesStage.supply.Valid := by
    intro number char member
    cases member
  have plain := plainKeys_namedOrRatedGames
  have updateReached : ratedUpdate.Reached (fun _ => "") := by
    have assigned := (UpdateDraft.Reached.start "games" gamesTable.binder).step
      (.assign "rated" (.bool true)) (rfl : (Supply.initial fun _ => "").randomWord = _) rfl
    exact assigned.step (.require .and .eq "lost" (.scalar (.bool true)))
      (rfl : ((Supply.initial fun _ => "").advance 0).randomWord = _) rfl
  have updatePlain : ratedUpdate.PlainKeys := by
    constructor
    · decide
    · intro predicate member
      cases List.mem_singleton.mp member
      decide
  rcases hasValuesFor_emits_and_mentions with ⟨reads, updates⟩
  rcases reads gamesStage namedOrRatedGames reached isMade with ⟨_, _, mentioned⟩
  rcases updates (fun _ => "") ratedUpdate updateReached with ⟨_, updateMentioned⟩
  have noWords : ∀ number : Nat, ∀ char ∈ ((fun _ => "") number : String).toList,
      Config.isTokenChar char = true := by simp
  exact ⟨reached, isMade, stems, words, plain, mentioned stems words plain, by decide,
    updateReached, stem, updatePlain, updateMentioned stem noWords updatePlain, by decide⟩

end ItemQuery
