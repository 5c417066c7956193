import ItemQuery.Proofs.Fields
import ItemQuery.Proofs.TextTokens
import ItemQuery.Proofs.Provenance

/-!
The tokens of a request and the values under them.

The texts of a request and its values are made separately, and so are the lists of what either of
them names. A draft of a read binds the tokens that its predicates show and no others
(`Stage.Reached.mem_names_boundValues`), and these are the tokens that stand in its texts
(`Stage.Reached.emits_iff_mentions`) where stems are valid and attributes have no colons.
-/

namespace ItemQuery

namespace Request

/-- The tokens that a request has values for. -/
def valueNames (request : Request) : List String :=
  match request.get? "ExpressionAttributeValues" with
  | some (.object members) => members.map Prod.fst
  | _ => []

/-- The expressions of a request. -/
def expressions (request : Request) : List String := expressionFields.filterMap request.text?

/-- Whether a request has values for the tokens of some sort and for no others, and lacks the field
exactly if there are no such tokens. -/
def HasValuesFor (request : Request) (sort : String → Prop) : Prop :=
  (∀ token, token ∈ request.valueNames ↔ sort token) ∧
    (request.get? "ExpressionAttributeValues" = none ↔ ∀ token, ¬sort token)

/-- Whether a token stands in one of the expressions of a request. -/
def Mentions (request : Request) (token : String) : Prop :=
  ∃ text ∈ request.expressions, token ∈ textTokens text

theorem valueNames_ofInput (input : Input) :
    (ofInput input .empty).valueNames = input.attributeValues.names := by
  rw [valueNames, get?_attributeValues]
  unfold itemToJson Json.collected Dictionary.isEmpty Dictionary.names
  rcases input.attributeValues with ⟨entries, ordered⟩
  cases entries <;> simp [Json.ofDictionary, Dictionary.map]

/-- Only an override of the field itself changes the tokens that a request has values for. -/
theorem valueNames_ofInput_of_absent (input : Input) {overrides : Dictionary Json}
    (absent : overrides.get? "ExpressionAttributeValues" = none) :
    (ofInput input overrides).valueNames = input.attributeValues.names := by
  have same : (ofInput input overrides).get? "ExpressionAttributeValues" =
      (ofInput input .empty).get? "ExpressionAttributeValues" := by
    rw [get?_ofInput, get?, ofInput, Dictionary.get?_extend, absent, Option.none_or]
  rw [← valueNames_ofInput, valueNames, same, valueNames]

theorem hasValuesFor_ofInput {input : Input} {sort : String → Prop}
    (names : ∀ token, token ∈ input.attributeValues.names ↔ sort token) :
    (ofInput input .empty).HasValuesFor sort := by
  constructor
  · intro token
    rw [valueNames_ofInput, names]
  · rw [get?_attributeValues, itemToJson_eq_none]
    constructor
    · intro isEmpty token sorted
      have member := (names token).mpr sorted
      rw [isEmpty] at member
      cases member
    · intro noTokens
      apply Dictionary.ext_get?
      intro token
      rw [Dictionary.get?_empty, Option.eq_none_iff_forall_ne_some]
      intro value found
      exact noTokens token ((names token).mp (Dictionary.mem_names_iff.mpr ⟨value, found⟩))

theorem mentions_ofInput {input : Input} {token : String} :
    (ofInput input .empty).Mentions token ↔
      ∃ field ∈ expressionFields, ∃ text, input.expression? field = some text ∧
        token ∈ textTokens text := by
  have texts : ∀ field ∈ expressionFields,
      (ofInput input .empty).text? field = input.expression? field := by
    intro field isExpression
    rw [text?, get?_expression input isExpression]
    cases input.expression? field <;> rfl
  unfold Mentions expressions
  constructor
  · rintro ⟨text, member, present⟩
    rcases List.mem_filterMap.mp member with ⟨field, isExpression, found⟩
    exact ⟨field, isExpression, text, texts field isExpression ▸ found, present⟩
  · rintro ⟨field, isExpression, text, found, present⟩
    refine ⟨text, List.mem_filterMap.mpr ⟨field, isExpression, ?_⟩, present⟩
    rw [texts field isExpression, found]

end Request

theorem Dictionary.mem_names_ofList {α : Type} {entries : List (String × α)} {name : String} :
    name ∈ (Dictionary.ofList entries).names ↔ ∃ value, (name, value) ∈ entries := by
  rw [Dictionary.mem_names_iff]
  constructor
  · rintro ⟨value, found⟩
    exact ⟨value, Dictionary.mem_of_get?_ofList found⟩
  · rintro ⟨value, member⟩
    exact Dictionary.exists_get?_ofList member

theorem mem_textTokens {token text : String} :
    token ∈ textTokens text ↔ token.toList ∈ tokensIn text.toList := by
  rw [textTokens, List.mem_map]
  constructor
  · rintro ⟨letters, member, rfl⟩
    rwa [String.toList_ofList]
  · intro member
    exact ⟨token.toList, member, String.ofList_toList⟩

/-! ## Predicates and entries -/

namespace Predicate

variable {predicate : Predicate} {token : String}

theorem mem_tokens_iff :
    token ∈ predicate.tokens ↔ ∃ value, (token, value) ∈ predicate.tokenValues := by
  constructor
  · intro member
    rcases List.mem_map.mp member with ⟨placeholder, isBound, rfl⟩
    rcases List.mem_map.mp isBound with ⟨entry, bound, rfl⟩
    exact ⟨entry.2, List.mem_map.mpr ⟨entry, bound, rfl⟩⟩
  · rintro ⟨value, member⟩
    rcases List.mem_map.mp member with ⟨entry, bound, equal⟩
    cases equal
    exact List.mem_map_of_mem (List.mem_map_of_mem bound)

theorem shownTokens_subset : predicate.shownTokens ⊆ predicate.tokens := by
  unfold shownTokens
  split
  · exact List.take_subset 1 _
  · exact List.Subset.refl _

theorem Told.mem_textTokens_render (told : predicate.Told) :
    token ∈ textTokens predicate.render ↔ token ∈ predicate.shownTokens := by
  rw [mem_textTokens, told.tokensIn_render]
  exact List.mem_map_of_injective fun _ _ => String.toList_inj.mp

end Predicate

namespace Entry

theorem mem_textTokens_group {joined : Connective} {entries : List Entry} {token : String} :
    token ∈ textTokens (Entry.group joined entries).render ↔
      ∃ entry ∈ entries, token ∈ textTokens entry.render := by
  simp only [mem_textTokens, tokensIn_group, List.mem_flatMap]

variable {made : List Object} {issues : List Issue} {entry : Entry} {token : String}

/-- The text of an entry mentions no token but those of predicates that stand in it. -/
theorem Accounted.exists_of_mem_textTokens (accounted : entry.Accounted made issues)
    (told : ∀ predicate, entry.Contains made predicate → predicate.Told)
    (mentioned : token ∈ textTokens entry.render) :
    ∃ predicate, entry.Contains made predicate ∧ token ∈ predicate.shownTokens := by
  induction accounted with
  | predicate bound =>
      exact ⟨_, .itself, (told _ .itself).mem_textTokens_render.mp mentioned⟩
  | group joined _ induction =>
      rcases mem_textTokens_group.mp mentioned with ⟨entry, inGroup, inEntry⟩
      rcases induction entry inGroup (fun predicate contains => told predicate
        (.member inGroup contains)) inEntry with ⟨predicate, contains, shown⟩
      exact ⟨predicate, .member inGroup contains, shown⟩
  | captured joined known present _ induction =>
      rcases induction (fun predicate contains => told predicate
        (.captured joined known present contains)) mentioned with ⟨predicate, contains, shown⟩
      exact ⟨predicate, .captured joined known present contains, shown⟩

/-- The text of an entry mentions the tokens of all predicates that stand in it, also of those that
are left as a fragment only. -/
theorem Contains.mem_textTokens {predicate : Predicate} (contains : entry.Contains made predicate)
    (told : predicate.Told) (shown : token ∈ predicate.shownTokens) :
    token ∈ textTokens entry.render := by
  induction contains with
  | itself => exact told.mem_textTokens_render.mpr shown
  | member inGroup _ induction => exact mem_textTokens_group.mpr ⟨_, inGroup, induction⟩
  | captured joined known present _ induction => exact induction

end Entry

theorem Condition.mem_textTokens_render? {condition : Condition} {token : String} :
    (∃ text, condition.render? = some text ∧ token ∈ textTokens text) ↔
      token ∈ textTokens condition.toEntry.render := by
  unfold render?
  cases isEmpty : condition.isEmpty with
  | false => simp [render]
  | true =>
      have noEntries : condition.entries = [] := List.isEmpty_iff.mp isEmpty
      have noToken : token ∉ textTokens condition.toEntry.render := by
        rw [toEntry, Entry.mem_textTokens_group, noEntries]
        simp
      simp [noToken]

/-! ## Drafts of reads -/

namespace ReadDraft

/-- Whether a predicate in the conditions of a draft shows a token. -/
def Emits (made : List Object) (draft : ReadDraft) (token : String) : Prop :=
  ∃ entry ∈ (Object.read draft).entries, ∃ predicate,
    entry.Contains made predicate ∧ token ∈ predicate.shownTokens

/-- Whether no attribute that the conditions of a draft test has a colon in its name. -/
def PlainKeys (made : List Object) (draft : ReadDraft) : Prop :=
  ∀ entry ∈ (Object.read draft).entries, ∀ predicate, entry.Contains made predicate →
    ':' ∉ predicate.key.toList

theorem mentions_compile {draft : ReadDraft} {token : String} :
    (draft.compile .empty).Mentions token ↔
      ∃ entry ∈ (Object.read draft).entries, token ∈ textTokens entry.render := by
  rw [compile, Request.mentions_ofInput, toInput]
  cases target : draft.target with
  | scan =>
      have texts := @Condition.mem_textTokens_render? draft.filter token
      simpa [expressionFields, Input.expression?, toScanInput, Object.entries, target] using texts
  | query keys forward =>
      have keyTexts := @Condition.mem_textTokens_render? keys token
      have texts := @Condition.mem_textTokens_render? draft.filter token
      simpa [expressionFields, Input.expression?, toQueryInput, Object.entries, target] using
        or_congr keyTexts texts

/-- What a draft binds are the tokens that it shows, if predicates show what they bind. -/
theorem mem_names_boundValues_of {made : List Object} {issues : List Issue} {draft : ReadDraft}
    (accounted : (Object.read draft).Accounted made issues)
    (shows : ∀ entry ∈ (Object.read draft).entries, ∀ predicate, entry.Contains made predicate →
      predicate.kind.Shows predicate.placeholders.length) {token : String} :
    token ∈ draft.boundValues.names ↔ draft.Emits made token := by
  rw [boundValues, Dictionary.mem_names_ofList, ← Object.tokenValues_read]
  constructor
  · rintro ⟨value, member⟩
    rcases List.mem_flatMap.mp member with ⟨entry, present, binds⟩
    rcases (accounted entry present).exists_contains _ binds with ⟨predicate, contains, bound⟩
    refine ⟨entry, present, predicate, contains, ?_⟩
    rw [Predicate.shownTokens_eq (shows entry present predicate contains)]
    exact Predicate.mem_tokens_iff.mpr ⟨value, bound⟩
  · rintro ⟨entry, present, predicate, contains, shown⟩
    rcases Predicate.mem_tokens_iff.mp (Predicate.shownTokens_subset shown) with ⟨value, bound⟩
    rcases contains.exists_mem_tokenValues _ bound with ⟨last, inEntry⟩
    exact ⟨last, List.mem_flatMap.mpr ⟨entry, present, inEntry⟩⟩

/-- The texts of a draft mention the tokens that it shows, if all of them can be told. -/
theorem emits_iff_mentions_of {made : List Object} {issues : List Issue} {draft : ReadDraft}
    (accounted : (Object.read draft).Accounted made issues)
    (told : ∀ entry ∈ (Object.read draft).entries, ∀ predicate, entry.Contains made predicate →
      predicate.Told) {token : String} :
    draft.Emits made token ↔ (draft.compile .empty).Mentions token := by
  rw [mentions_compile]
  constructor
  · rintro ⟨entry, present, predicate, contains, shown⟩
    exact ⟨entry, present, contains.mem_textTokens (told entry present predicate contains) shown⟩
  · rintro ⟨entry, present, mentioned⟩
    rcases (accounted entry present).exists_of_mem_textTokens (told entry present) mentioned with
      ⟨predicate, contains, shown⟩
    exact ⟨entry, present, predicate, contains, shown⟩

end ReadDraft

/-- The placeholders of what a mint with a valid stem creates can be told in a text. -/
theorem Mint.Creates.tellable {mint : Mint} {words : Nat → String} {predicate : Predicate}
    (creates : mint.Creates words predicate) (stem : mint.Valid)
    (valid : ∀ number, ∀ char ∈ (words number).toList, Config.isTokenChar char = true) :
    ∀ placeholder ∈ predicate.placeholders, placeholder.Tellable := by
  rcases creates with ⟨_, _, _, _, _, _, sameWords, created⟩
  rcases Predicate.of_run_create created with ⟨_, _, issues, _⟩
  have validBefore : Supply.Valid _ := fun number => sameWords ▸ valid number
  intro placeholder member
  rcases List.mem_map.mp member with ⟨entry, bound, rfl⟩
  exact issues.tellable stem validBefore _ (List.mem_map_of_mem bound)

theorem Mint.Creates.shows {mint : Mint} {words : Nat → String} {predicate : Predicate}
    (creates : mint.Creates words predicate) :
    predicate.kind.Shows predicate.placeholders.length := by
  rcases creates with ⟨_, _, _, _, _, _, _, created⟩
  exact Predicate.shows_of_run_create created

namespace Stage.Reached

variable {stage : Stage} (reached : stage.Reached) {draft : ReadDraft}
  (isMade : .read draft ∈ stage.made)
include reached isMade

theorem shows {entry : Entry} (present : entry ∈ (Object.read draft).entries)
    {predicate : Predicate} (contains : entry.Contains stage.made predicate) :
    predicate.kind.Shows predicate.placeholders.length :=
  reached.sorted_of_contains (fun _ _ shows => shows)
    (fun _ _ _ _ _ creates => creates.shows) isMade present contains

theorem mem_names_boundValues {token : String} :
    token ∈ draft.boundValues.names ↔ draft.Emits stage.made token :=
  ReadDraft.mem_names_boundValues_of (reached.ledger.accounted _ isMade)
    fun _ present _ contains => reached.shows isMade present contains

theorem emits_iff_mentions (stems : ∀ object ∈ stage.made, ∀ mint ∈ object.mint?, mint.Valid)
    (words : stage.supply.Valid) (plain : draft.PlainKeys stage.made) {token : String} :
    draft.Emits stage.made token ↔ (draft.compile .empty).Mentions token := by
  have makes : stage.Makes fun predicate =>
      ∀ placeholder ∈ predicate.placeholders, placeholder.Tellable :=
    fun object known mint owns predicate creates =>
      creates.tellable (stems object known mint owns) words
  apply ReadDraft.emits_iff_mentions_of (reached.ledger.accounted _ isMade)
  intro entry present predicate contains
  exact ⟨reached.shows isMade present contains,
    reached.sorted_of_contains (fun _ _ tellable => tellable) makes isMade present contains,
    plain entry present predicate contains⟩

end Stage.Reached

end ItemQuery
