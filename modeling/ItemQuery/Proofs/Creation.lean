import ItemQuery.Proofs.KeyConditions
import ItemQuery.Proofs.Phrase.Reader
import ItemQuery.Proofs.Specifications

/-!
The predicates that can come about.

A predicate is created exactly when its operand fits its kind, whichever way it is asked for
(`Wanted.run_create_of_fits`, `Wanted.run_create_of_not_fits`, `Act.Asks.action_eq`). It then has a
placeholder for each value of the operand and shows all of them, and nothing that a session does
with it later on takes one away (`Stage.InSession.run_create_and_wellFormed`). So no text lacks a
token.
-/

namespace ItemQuery

/-! ## Operands that fit -/

/-- Whether predicates of a kind take an operand: `in` takes a collection with members, and every
other kind a single value. -/
inductive Operand.Fits : PredicateKind → Operand → Prop
  | scalar {kind : PredicateKind} (value : AttributeValue) (comparesOne : kind ≠ .within) :
      Fits kind (.scalar value)
  | collection {values : List AttributeValue} (nonempty : values ≠ []) :
      Fits .within (.collection values)

theorem PredicateKind.shape_eq_collection_iff {kind : PredicateKind} :
    kind.shape = .collection ↔ kind = .within := by
  cases kind <;> decide

theorem PredicateKind.shape_eq_scalar_iff {kind : PredicateKind} :
    kind.shape = .scalar ↔ kind ≠ .within := by
  cases kind <;> decide

theorem Operand.fits_iff {kind : PredicateKind} {operand : Operand} :
    operand.Fits kind ↔ operand.mismatch? kind = none := by
  rw [Specification.mismatch?_eq_none_iff]
  constructor
  · intro fits
    cases fits with
    | scalar value comparesOne =>
        exact ⟨(PredicateKind.shape_eq_scalar_iff.mpr comparesOne).symm, List.cons_ne_nil _ _⟩
    | collection nonempty => exact ⟨rfl, nonempty⟩
  · rintro ⟨sameShape, nonempty⟩
    cases operand with
    | scalar value => exact .scalar value (PredicateKind.shape_eq_scalar_iff.mp sameShape.symm)
    | collection values =>
        rw [PredicateKind.shape_eq_collection_iff.mp sameShape.symm]
        exact .collection nonempty

/-! ## Texts that lack no token -/

/-- Whether a text is a test of an attribute that shows some tokens. Comparisons and functions have
exactly one to show, and `in` has a first and perhaps further ones, which it shows in order. -/
inductive PredicateKind.IsClause (key : String) : PredicateKind → List String → String → Prop
  | comparison {kind : PredicateKind} {sign : String} (form : kind.form = .comparison sign)
      (token : String) : IsClause key kind [token] (key ++ " " ++ sign ++ " " ++ token)
  | function {kind : PredicateKind} {name : String} (form : kind.form = .function name)
      (token : String) : IsClause key kind [token] (name ++ "(" ++ key ++ ", " ++ token ++ ")")
  | membership (first : String) (rest : List String) :
      IsClause key .within (first :: rest)
        (key ++ " in (" ++ String.intercalate "," (first :: rest) ++ ")")

theorem PredicateKind.form_eq_membership_iff {kind : PredicateKind} :
    kind.form = .membership ↔ kind = .within := by
  cases kind <;> decide

theorem PredicateKind.isClause_renderKind {kind : PredicateKind} {tokens : List String}
    (shows : kind.Shows tokens.length) (key : String) :
    kind.IsClause key tokens (Predicate.renderKind kind key tokens) := by
  rw [Predicate.renderKind_eq]
  by_cases isWithin : kind = .within
  · subst isWithin
    rcases List.exists_cons_of_length_pos shows with ⟨first, rest, rfl⟩
    exact .membership first rest
  · rw [Shows, shape_eq_scalar_iff.mpr isWithin] at shows
    rcases List.length_eq_one_iff.mp shows with ⟨token, rfl⟩
    cases form : kind.form with
    | comparison sign => exact .comparison form token
    | function name => exact .function form token
    | membership => exact absurd (form_eq_membership_iff.mp form) isWithin

theorem Placeholder.token_ne_empty (placeholder : Placeholder) : placeholder.token ≠ "" := by
  intro isEmpty
  have noChars := congrArg String.toList isEmpty
  simp [token] at noChars

theorem intercalate_ne_empty {first : String} (nonempty : first ≠ "") (separator : String)
    (rest : List String) : String.intercalate separator (first :: rest) ≠ "" := by
  cases rest with
  | nil => rwa [String.intercalate_singleton]
  | cons second others =>
      rw [String.intercalate_cons_cons]
      simp [nonempty]

/-- A test that lacks no token is no test for membership among nothing, whatever its attribute is
called. -/
theorem PredicateKind.IsClause.ne_emptyList {kind : PredicateKind} {key text : String}
    {tokens : List String} (isClause : kind.IsClause key tokens text)
    (nonempty : ∀ token ∈ tokens, token ≠ "") : text ≠ key ++ " in ()" := by
  cases isClause with
  | comparison form token =>
      intro same
      -- The two texts differ where the sign begins.
      cases kind <;> cases form <;> simp [← String.toList_inj] at same
  | function form token =>
      intro same
      -- The name of a function alone is longer than what stands behind the attribute.
      have sameLength := congrArg (fun said => said.toList.length) same
      cases kind <;> cases form <;> simp at sameLength <;> omega
  | membership first rest =>
      intro same
      have noTokens : String.intercalate "," (first :: rest) = "" := by
        simpa [← String.toList_inj, List.append_assoc] using same
      exact intercalate_ne_empty (nonempty first List.mem_cons_self) "," rest noTokens

/-! ## Predicates of an operand -/

/-- Whether a predicate is one that a mint has bound to the values of an operand: the operand fits
the kind, each of its values has a placeholder, in their order, and the text shows all of them. The
placeholders are some that the mint issues one after the other, so that none of them repeats unless
random words do, and then each token stands for its value. -/
structure Predicate.WellFormed (mint : Mint) (words : Nat → String) (operand : Operand)
    (predicate : Predicate) : Prop where
  fits : operand.Fits predicate.kind
  shows : predicate.kind.Shows predicate.bound.length
  values : predicate.bound.map Prod.snd = operand.values
  issued : ∃ first, predicate.placeholders =
    (List.range' first predicate.bound.length).map (mint.nth words)
  clause : predicate.kind.IsClause predicate.key predicate.tokens predicate.render
  notEmpty : predicate.render ≠ predicate.key ++ " in ()"
  distinct : (mint.source = .random → Function.Injective words) → predicate.placeholders.Nodup
  found : (mint.source = .random → Function.Injective words) →
    predicate.tokens.map (Entry.predicate predicate).bindings.get? = operand.values.map some

namespace Predicate

/-- Where no placeholder repeats, the tokens of a predicate stand for its values, in order. -/
theorem map_get?_tokens {predicate : Predicate} (distinct : predicate.placeholders.Nodup) :
    predicate.tokens.map (Entry.predicate predicate).bindings.get? =
      (predicate.bound.map Prod.snd).map some := by
  rw [tokens, placeholders, List.map_map, List.map_map, List.map_map]
  apply List.map_congr_left
  intro entry present
  have isBound : (entry.1.token, entry.2) ∈ predicate.tokenValues := List.mem_map_of_mem present
  apply Dictionary.get?_ofList_of_forall isBound
  intro other alsoPresent
  rcases List.mem_map.mp alsoPresent with ⟨twin, inBound, same⟩
  have sameToken : twin.1.token = entry.1.token := congrArg Prod.fst same
  have sameEntry := List.inj_on_of_nodup_map distinct inBound present
    (Placeholder.token_injective sameToken)
  exact (congrArg Prod.snd same).symm.trans (congrArg Prod.snd sameEntry)

/-- A predicate is well formed if it has consecutive placeholders of a mint for the values of an
operand that fits. -/
theorem WellFormed.of_fits {mint : Mint} {words : Nat → String} {operand : Operand}
    {predicate : Predicate} (fits : operand.Fits predicate.kind)
    (values : predicate.bound.map Prod.snd = operand.values)
    (issued : ∃ first, predicate.placeholders =
      (List.range' first predicate.bound.length).map (mint.nth words)) :
    predicate.WellFormed mint words operand := by
  have shows : predicate.kind.Shows predicate.bound.length := by
    have shown := shows_of_mismatch?_eq_none (Operand.fits_iff.mp fits)
    rwa [← values, List.length_map] at shown
  have sameCount : predicate.tokens.length = predicate.bound.length := by
    simp [tokens, placeholders]
  have clause : predicate.kind.IsClause predicate.key predicate.tokens predicate.render :=
    PredicateKind.isClause_renderKind (sameCount ▸ shows) predicate.key
  have distinct (differ : mint.source = .random → Function.Injective words) :
      predicate.placeholders.Nodup := by
    rcases issued with ⟨first, consecutive⟩
    rw [consecutive]
    exact (List.nodup_range' 1).map (Mint.nth_injective differ)
  refine ⟨fits, shows, values, issued, clause, clause.ne_emptyList ?_, distinct, ?_⟩
  · intro token member
    rcases List.mem_map.mp member with ⟨placeholder, _, rfl⟩
    exact placeholder.token_ne_empty
  · intro differ
    rw [map_get?_tokens (distinct differ), values]

theorem WellFormed.withConnective {mint : Mint} {words : Nat → String} {operand : Operand}
    {predicate : Predicate} (wellFormed : predicate.WellFormed mint words operand)
    (joined : Connective) : (predicate.withConnective joined).WellFormed mint words operand :=
  .of_fits wellFormed.fits wellFormed.values wellFormed.issued

end Predicate

/-! ## Asking for a predicate -/

/-- A predicate that is asked for, with the mint that is to issue its placeholders. -/
structure Wanted where
  mint : Mint
  kind : PredicateKind
  key : String
  operand : Operand
  connective : Connective

namespace Wanted

def create (wanted : Wanted) : Draw Predicate :=
  Predicate.create wanted.mint wanted.kind wanted.key wanted.operand wanted.connective

/-- Whether a predicate is the one that was asked for, made with given words. -/
structure Made (wanted : Wanted) (words : Nat → String) (predicate : Predicate) : Prop where
  kind : predicate.kind = wanted.kind
  key : predicate.key = wanted.key
  connective : predicate.connective = wanted.connective
  wellFormed : predicate.WellFormed wanted.mint words wanted.operand

variable {wanted : Wanted} {before after : Supply} {predicate : Predicate}

theorem made_of_run_create (created : wanted.create.run before = .ok predicate after) :
    wanted.Made before.randomWord predicate := by
  rcases Predicate.of_run_create created with ⟨accepted, equal, issues, values⟩
  have sameKind : predicate.kind = wanted.kind := congrArg Predicate.kind equal
  refine ⟨sameKind, congrArg Predicate.key equal, congrArg Predicate.connective equal, ?_⟩
  apply Predicate.WellFormed.of_fits
  · rw [sameKind]
    exact Operand.fits_iff.mpr accepted
  · exact values
  · have consecutive := issues.placeholders_eq.2
    rw [Mint.issuesOf, List.map_map, List.length_map] at consecutive
    exact ⟨_, consecutive⟩

/-- If the operand fits, the predicate is created, and bound to the placeholders that come next. -/
theorem run_create_of_fits (fits : wanted.operand.Fits wanted.kind) (before : Supply) :
    ∃ predicate after, wanted.create.run before = .ok predicate after ∧
      wanted.Made before.randomWord predicate ∧
      wanted.mint.Issues before (wanted.mint.issuesOf predicate.bound) after := by
  rcases Predicate.exists_run_create (Operand.fits_iff.mp fits) with
    ⟨bound, after, created, issues, _⟩
  exact ⟨_, after, created, made_of_run_create created, issues⟩

/-- If the operand does not fit, nothing is drawn. -/
theorem run_create_of_not_fits (unfit : ¬wanted.operand.Fits wanted.kind) (before : Supply) :
    ∃ mismatch, wanted.create.run before = .error (.operand wanted.kind mismatch) before := by
  rw [Operand.fits_iff] at unfit
  rcases Option.ne_none_iff_exists'.mp unfit with ⟨mismatch, mismatched⟩
  exact ⟨mismatch, Predicate.run_create_of_mismatch mismatched⟩

end Wanted

/-- Whether an act asks for one predicate, and what it makes of it: the predicate itself, or a draft
that has it behind its other entries. A kind may be given by its name or by a verb, and an operand
as JSON. -/
inductive Act.Asks : Act → Wanted → (Predicate → Object) → Prop
  | predicate (binder : Binder) (kind : PredicateKind) (key : String) (operand : Operand)
      (connective : Connective) :
      Asks (.call (.predicate binder kind key operand connective))
        ⟨binder.mint, kind, key, operand, connective⟩ .predicate
  | named (binder : Binder) {kind : PredicateKind} {kindName : String} (named : kind.Names kindName)
      (key : String) (operand : Operand) (connective : Connective) :
      Asks (.call (.named binder kindName key operand connective))
        ⟨binder.mint, kind, key, operand, connective⟩ .predicate
  | specified (binder : Binder) {specification : Specification} {kind : PredicateKind}
      {operand : Operand} (named : kind.Names specification.kindName)
      (stated : operand.StatedBy specification.value) :
      Asks (.call (.specified binder specification))
        ⟨binder.mint, kind, specification.key, operand, specification.connective⟩ .predicate
  | restrict (draft : ReadDraft) (connective : Connective) (kind : PredicateKind) (key : String)
      (operand : Operand) :
      Asks (.call (.step draft (.restrict connective kind key operand)))
        ⟨draft.binder.mint, kind, key, operand, connective⟩
        fun predicate => .read (draft.push (.predicate predicate))
  | verb (draft : ReadDraft) {verb : Verb} {verbName : String} (spells : verb.Spells verbName)
      (key : String) (operand : Operand) :
      Asks (.call (.step draft (.call verbName key operand)))
        ⟨draft.binder.mint, verb.kind, key, operand, verb.connective⟩
        fun predicate => .read (draft.push (.predicate predicate))
  | apply (draft : ReadDraft) {specification : Specification} {kind : PredicateKind}
      {operand : Operand} (named : kind.Names specification.kindName)
      (stated : operand.StatedBy specification.value) :
      Asks (.call (.step draft (.apply specification)))
        ⟨draft.binder.mint, kind, specification.key, operand, specification.connective⟩
        fun predicate => .read (draft.push (.predicate predicate))
  | keyCondition {draft : ReadDraft} {condition : Condition} {forward : Option Bool}
      {kind : PredicateKind} (target : draft.target = .query condition forward)
      (isKey : kind ∈ keyKinds) (key : String) (value : AttributeValue) :
      Asks (.call (.step draft (.keyCondition kind key value)))
        ⟨draft.binder.mint, kind, key, .scalar value, .and⟩
        fun predicate =>
          .read { draft with target := .query (condition.push (.predicate predicate)) forward }
  | require (draft : UpdateDraft) (connective : Connective) (kind : PredicateKind) (key : String)
      (operand : Operand) :
      Asks (.change draft (.require connective kind key operand))
        ⟨draft.binder.mint, kind, key, operand, connective⟩
        fun predicate =>
          .update { draft with condition := draft.condition.push (.predicate predicate) }

theorem Draw.map_bind_pure (transform : β → γ) (place : α → β) (action : Draw α) :
    (transform <$> do return place (← action)) =
      (fun made => transform (place made)) <$> action := by
  rw [bind_pure_comp, Functor.map_map]

theorem Binder.named_eq_predicate {kind : PredicateKind} {kindName : String}
    (named : kind.Names kindName) (binder : Binder) (key : String) (operand : Operand)
    (connective : Connective) :
    binder.named kindName key operand connective =
      binder.predicate kind key operand connective := by
  rw [← PredicateKind.ofName?_toList_eq_some_iff] at named
  rw [Binder.named, named]

/-- All that an act does that asks for a predicate is to create it and to put it in its place. -/
theorem Act.Asks.action_eq {act : Act} {wanted : Wanted} {place : Predicate → Object}
    (asks : act.Asks wanted place) : act.action = place <$> wanted.create := by
  cases asks with
  | predicate binder kind key operand connective => rfl
  | named binder named key operand connective =>
      rw [action, Call.action, binder.named_eq_predicate named]
      rfl
  | specified binder named stated =>
      rw [action, Call.action, Binder.specified, Binder.named_eq_predicate named,
        ← Operand.statedBy_iff.mp stated]
      rfl
  | restrict draft connective kind key operand =>
      exact Draw.map_bind_pure _ _ _
  | verb draft spells key operand =>
      rw [action, Call.action, ReadStep.run, ReadDraft.call_of_spells spells]
      exact Draw.map_bind_pure _ _ _
  | apply draft named stated =>
      rw [action, Call.action, ReadStep.run, ReadDraft.apply_eq_restrict named,
        ← Operand.statedBy_iff.mp stated]
      exact Draw.map_bind_pure _ _ _
  | keyCondition target isKey key value =>
      rw [action, Call.action, ReadStep.run, ReadDraft.keyCondition, target]
      simp only [PredicateKind.mem_keyKinds_iff.mp isKey, if_true]
      exact Draw.map_bind_pure _ _ _
  | require draft connective kind key operand =>
      exact Draw.map_bind_pure _ _ _

/-! ## Sessions -/

theorem Mint.Creates.exists_wellFormed {mint : Mint} {words : Nat → String} {predicate : Predicate}
    (creates : mint.Creates words predicate) :
    ∃ operand, predicate.WellFormed mint words operand := by
  rcases creates with ⟨kind, key, operand, connective, before, after, rfl, created⟩
  have made := @Wanted.made_of_run_create ⟨mint, kind, key, operand, connective⟩ _ _ _ created
  exact ⟨operand, made.wellFormed⟩

namespace Stage

/-- Whether a predicate stands somewhere in an object of a stage, at any depth and also where only
a fragment is left of it. The entries of updates are those of their conditions. -/
inductive Holds (stage : Stage) (predicate : Predicate) : Prop
  | entry {object : Object} {entry : Entry} (isMade : object ∈ stage.made)
      (present : entry ∈ object.entries) (contains : entry.Contains stage.made predicate)
  | update {draft : UpdateDraft} {entry : Entry} (isMade : .update draft ∈ stage.made)
      (present : entry ∈ draft.condition.entries) (contains : entry.Contains stage.made predicate)

namespace InSession

variable {permitted : Act → Prop} {stage : Stage} (session : stage.InSession permitted)
include session

/-- Every predicate of a session is well formed, by a mint of the session. -/
theorem exists_wellFormed {predicate : Predicate} (holds : stage.Holds predicate) :
    ∃ mint operand, stage.Has mint ∧
      predicate.WellFormed mint stage.supply.randomWord operand := by
  have makes : stage.Makes fun predicate =>
      ∃ mint operand, stage.Has mint ∧
        predicate.WellFormed mint stage.supply.randomWord operand := by
    intro object isMade mint owns predicate creates
    rcases creates.exists_wellFormed with ⟨operand, wellFormed⟩
    exact ⟨mint, operand, ⟨object, isMade, owns⟩, wellFormed⟩
  have allMade := session.all_made (fun predicate joined => ?_) makes
  · cases holds with
    | entry isMade present contains =>
        exact contains.sorted (allMade _ isMade _ present) allMade
    | @update draft _ isMade present contains =>
        -- Updates hold nothing but predicates that their own mint has created.
        rcases (session.update_reached draft isMade).own.condition _ present with
          ⟨created, rfl, creates⟩
        exact contains.sorted (.predicate (makes _ isMade _ rfl _ creates)) allMade
  · rintro ⟨mint, operand, ofSome, wellFormed⟩
    exact ⟨mint, operand, ofSome, wellFormed.withConnective joined⟩

/-- A predicate is created if its operand fits its kind, and else nothing is drawn; whatever asks
for one does no more than to put it in its place. In a session every predicate, wherever it has got
to, is well formed: its text shows each of its tokens and these stand for the values of an operand
that fits. -/
theorem run_create_and_wellFormed :
    (∀ (wanted : Wanted) (before : Supply),
      (wanted.operand.Fits wanted.kind →
        ∃ predicate after, wanted.create.run before = .ok predicate after ∧
          wanted.Made before.randomWord predicate ∧
          wanted.mint.Issues before (wanted.mint.issuesOf predicate.bound) after) ∧
      (¬wanted.operand.Fits wanted.kind →
        ∃ mismatch, wanted.create.run before = .error (.operand wanted.kind mismatch) before)) ∧
    (∀ (act : Act) (wanted : Wanted) (place : Predicate → Object), act.Asks wanted place →
      act.action = place <$> wanted.create) ∧
    ∀ predicate, stage.Holds predicate →
      ∃ mint operand, stage.Has mint ∧
        predicate.WellFormed mint stage.supply.randomWord operand := by
  refine ⟨fun wanted before => ⟨?_, ?_⟩, fun _ _ _ asks => asks.action_eq, ?_⟩
  · exact fun fits => Wanted.run_create_of_fits fits before
  · exact fun unfit => Wanted.run_create_of_not_fits unfit before
  · exact fun predicate holds => session.exists_wellFormed holds

end InSession

end Stage

/-! ## A session in which a test for membership is taken in -/

def hasMedal : Predicate :=
  ⟨.within, "medal", .or, [(⟨"p1"⟩, .string "gold"), (⟨"p2"⟩, .string "silver")]⟩

def medalGames : ReadDraft := gamesTable.scan.push (.predicate hasMedal)

def takingMedals : ReadDraft :=
  gamesTable.scan.push (.fragment (medalGames.filter.toEntry.capture .and))

/-- The first call of the verb is given no members, and fails. -/
def medalStage : Stage :=
  (Stage.start fun _ => "").afterActs
    [.call (.makeTable "games"), .call (.scanTable gamesTable),
      .call (.step gamesTable.scan (.call "or_in" "medal" (.collection []))),
      .call (.step gamesTable.scan
        (.call "or_in" "medal" (.collection [.string "gold", .string "silver"]))),
      .call (.step gamesTable.scan (.embed medalGames .and))]

theorem Stage.InSession.run_create_and_wellFormed_of_medals :
    medalStage.InSession (fun _ => True) ∧ medalStage.Holds hasMedal ∧
      (∃ mint operand, medalStage.Has mint ∧
        hasMedal.WellFormed mint medalStage.supply.randomWord operand) ∧
      hasMedal.render = "medal in (:p1,:p2)" ∧
      ∃ mismatch, (Wanted.create ⟨gamesTable.mint, .within, "medal", .collection [], .or⟩).run
        medalStage.supply = .error (.operand .within mismatch) medalStage.supply := by
  have session : medalStage.InSession fun _ => True :=
    Stage.InSession.afterActs _ (.start _) (fun _ _ => trivial) (by decide)
  have made : .read medalGames ∈ medalStage.made ∧ .read takingMedals ∈ medalStage.made := by
    decide
  have inMedals : medalGames.filter.toEntry.Contains medalStage.made hasMedal :=
    @Entry.Contains.member _ _ _ _ (.predicate hasMedal) (by decide) .itself
  have inTaking : takingMedals.filter.toEntry.Contains medalStage.made hasMedal := by
    apply @Entry.Contains.member _ _ _ _
      (.fragment (medalGames.filter.toEntry.capture .and)) (by decide)
    apply @Entry.Contains.captured _ _ (.read medalGames) _ .and made.1 _ inMedals
    exact List.mem_singleton_self _
  have holds : medalStage.Holds hasMedal := .entry made.2 (List.mem_singleton_self _) inTaking
  have ⟨creation, _, wellFormed⟩ := Stage.InSession.run_create_and_wellFormed session
  refine ⟨session, holds, wellFormed hasMedal holds, by decide, ?_⟩
  apply (creation ⟨gamesTable.mint, .within, "medal", .collection [], .or⟩ medalStage.supply).2
  rintro ⟨⟩
  contradiction

end ItemQuery
