import ItemQuery.Proofs.Sessions.Drafts

/-!
The tokens of configured tables.

A configuration is refused for its stem or for a strategy that does not exist
(`Config.ofEnvironment_eq_error_iff`), so the mint of a table always has a valid stem. In a session
where all mints are those of tables every object binds tokens of the store only, and these are the
tokens that the drafts show and have values for (`Stage.InSession.isStoreToken_and_config_errors`).
-/

namespace ItemQuery

/-! ## Refused configurations -/

/-- Whether a stem is refused, and with which error: it is empty, or it has a character that no
token has. -/
def Config.Refused (stem : String) (error : ConfigError) : Prop :=
  stem = "" ∧ error = .emptyStem ∨
    (∃ char ∈ stem.toList, isTokenChar char = false) ∧ error = .invalidStem stem

theorem Config.validate_eq_error_iff {config : Config} {error : ConfigError} :
    config.validate = .error error ↔ Refused config.stem error := by
  unfold validate Refused
  by_cases isEmpty : config.stem = ""
  · simp [isEmpty, @eq_comm _ error]
  · rw [if_neg isEmpty]
    by_cases all : config.stem.toList.all isTokenChar = true
    · have none : ¬∃ char ∈ config.stem.toList, isTokenChar char = false := by
        rintro ⟨char, member, strange⟩
        rw [List.all_eq_true.mp all char member] at strange
        cases strange
      simp [all, isEmpty, none]
    · have some : ∃ char ∈ config.stem.toList, isTokenChar char = false := by
        simpa using all
      simp [all, isEmpty, some, @eq_comm _ error]

/-- Whether a word names a strategy, in any mixture of cases. -/
def PlaceholderStrategy.IsWord (word : String) : Prop :=
  asciiLower word ∈ ["sequential", "counter", "random", "uuid"]

theorem PlaceholderStrategy.ofWord_eq_error_iff {word : String} {error : ConfigError} :
    ofWord word = .error error ↔
      ¬IsWord word ∧ error = .unknownStrategy (asciiLower word) := by
  unfold ofWord IsWord
  by_cases isSequential : asciiLower word = "sequential" ∨ asciiLower word = "counter"
  · rcases isSequential with isWord | isWord <;> simp [isWord]
  · by_cases isRandom : asciiLower word = "random" ∨ asciiLower word = "uuid"
    · rcases isRandom with isWord | isWord <;> simp [isWord]
    · rw [not_or] at isSequential isRandom
      simp [isSequential, isRandom, @eq_comm _ error]

/-- Whether the variables of an environment are refused, and with which error. A strategy that does
not exist comes before a stem that is refused. -/
def Config.EnvironmentRefused (lookup : String → Option String) (error : ConfigError) : Prop :=
  (∃ word, lookup "QUERY_PLACEHOLDER_STRATEGY" = some word ∧ ¬PlaceholderStrategy.IsWord word ∧
      error = .unknownStrategy (asciiLower word)) ∨
    (∀ word, lookup "QUERY_PLACEHOLDER_STRATEGY" = some word → PlaceholderStrategy.IsWord word) ∧
      ∃ stem, lookup "QUERY_PLACEHOLDER_PREFIX" = some stem ∧ Refused stem error

theorem Config.ofEnvironment_eq_error_iff {lookup : String → Option String} {error : ConfigError} :
    ofEnvironment lookup = .error error ↔ EnvironmentRefused lookup error := by
  have validated : ∀ strategy wrapNumbers,
      let config : Config :=
        ⟨(lookup "QUERY_PLACEHOLDER_PREFIX").getD default.stem, strategy, wrapNumbers⟩
      (config.validate >>= fun _ => pure config) = .error error ↔
        ∃ stem, lookup "QUERY_PLACEHOLDER_PREFIX" = some stem ∧ Refused stem error := by
    intro strategy wrapNumbers config
    have sameError : (config.validate >>= fun _ => pure config) = .error error ↔
        config.validate = .error error := by
      cases config.validate <;> simp [bind, Except.bind, pure, Except.pure]
    rw [sameError, validate_eq_error_iff]
    simp only [config]
    cases lookup "QUERY_PLACEHOLDER_PREFIX" with
    | some stem => simp
    | none =>
        have accepted : ¬Refused default.stem error := by
          rw [← validate_eq_error_iff]
          exact nofun
        simp [accepted]
  unfold ofEnvironment EnvironmentRefused
  cases lookup "QUERY_PLACEHOLDER_STRATEGY" with
  | none => exact (validated default.strategy _).trans (by simp)
  | some word =>
      cases read : PlaceholderStrategy.ofWord word with
      | error found =>
          rcases PlaceholderStrategy.ofWord_eq_error_iff.mp read with ⟨strange, rfl⟩
          simp only [read]
          simp [strange, bind, Except.bind, @eq_comm _ error]
      | ok strategy =>
          have isWord : PlaceholderStrategy.IsWord word := by
            by_contra strange
            have failed := PlaceholderStrategy.ofWord_eq_error_iff.mpr ⟨strange, rfl⟩
            cases read.symm.trans failed
          simp only [read]
          exact (validated strategy _).trans (by simp [isWord])

theorem Config.validate_of_ofEnvironment {lookup : String → Option String} {config : Config}
    (loaded : ofEnvironment lookup = .ok config) : config.validate = .ok () := by
  have accepted : ∀ built : Config, (built.validate >>= fun _ => pure built) = .ok config →
      config.validate = .ok () := by
    intro built found
    cases valid : built.validate with
    | error error =>
        rw [valid] at found
        cases found
    | ok accepted =>
        rw [valid] at found
        cases found
        exact valid
  unfold ofEnvironment at loaded
  cases found : lookup "QUERY_PLACEHOLDER_STRATEGY" with
  | none =>
      rw [found] at loaded
      exact accepted _ loaded
  | some word =>
      rw [found] at loaded
      cases read : PlaceholderStrategy.ofWord word with
      | error error =>
          simp only [read] at loaded
          cases loaded
      | ok strategy =>
          simp only [read] at loaded
          exact accepted _ loaded

theorem Mint.exists_run_ofConfig (config : Config) (before : Supply) :
    ∃ mint after, (ofConfig config).run before = .ok mint after := by
  unfold ofConfig
  cases config.strategy with
  | sequential => exact ⟨_, _, rfl⟩
  | random => exact ⟨_, _, rfl⟩

/-- What goes on with a configuration and cannot fail any more fails where the configuration does,
before anything is drawn or opened. -/
theorem Draw.run_ofConfig_bind_eq_error_iff {result : Except ConfigError α} {next : α → Draw β}
    {before after : Supply} {error : QueryError}
    (succeeds : ∀ value, result = .ok value → ∃ made last, (next value).run before = .ok made last) :
    (Draw.ofConfig result >>= next).run before = .error error after ↔
      after = before ∧ ∃ refused, result = .error refused ∧ error = .config refused := by
  cases result with
  | error refused =>
      change EStateM.Result.error (.config refused) before = .error error after ↔ _
      simp [@eq_comm _ error, @eq_comm _ after, and_comm]
  | ok value =>
      rcases succeeds value rfl with ⟨made, last, ran⟩
      simp [Draw.ofConfig, ran]

namespace Table

theorem run_withConfig_eq_error_iff {table : Table} {config : Config} {error : QueryError}
    {before after : Supply} :
    (table.withConfig config).run before = .error error after ↔
      after = before ∧ ∃ refused, Config.Refused config.stem refused ∧ error = .config refused := by
  simp only [← Config.validate_eq_error_iff]
  apply Draw.run_ofConfig_bind_eq_error_iff
  intro _ _
  rcases Mint.exists_run_ofConfig config before with ⟨mint, opened, ran⟩
  exact ⟨_, _, by rw [EStateM.run_bind, ran]; rfl⟩

theorem exists_run_withConfig {table : Table} {config : Config} (valid : config.validate = .ok ())
    (before : Supply) : ∃ made after, (table.withConfig config).run before = .ok made after := by
  cases ran : (table.withConfig config).run before with
  | ok made after => exact ⟨made, after, rfl⟩
  | error error after =>
      rcases run_withConfig_eq_error_iff.mp ran with ⟨_, refused, isRefused, _⟩
      cases valid.symm.trans (Config.validate_eq_error_iff.mpr isRefused)

theorem run_ofEnvironment_eq_error_iff {name : String} {lookup : String → Option String}
    {error : QueryError} {before after : Supply} :
    (ofEnvironment name lookup).run before = .error error after ↔
      after = before ∧ ∃ refused, Config.EnvironmentRefused lookup refused ∧
        error = .config refused := by
  simp only [← Config.ofEnvironment_eq_error_iff]
  apply Draw.run_ofConfig_bind_eq_error_iff
  intro config loaded
  rcases Mint.exists_run_ofConfig .default before with ⟨mint, middle, opened⟩
  have created : (create name).run before = .ok ⟨name, none, .default, mint⟩ middle := by
    rw [create, EStateM.run_bind, Mint.fresh, opened]
    rfl
  rcases exists_run_withConfig (Config.validate_of_ofEnvironment loaded) middle with
    ⟨table, after, ran⟩
  exact ⟨table, after, by rw [EStateM.run_bind, created]; exact ran⟩

end Table

/-! ## Store tokens -/

/-- Whether a text is a token of the store: a colon and then one or more letters, digits and
underscores. -/
def IsStoreToken (token : String) : Prop :=
  ∃ name, token = ":" ++ name ∧ name ≠ "" ∧ ∀ char ∈ name.toList, Config.isTokenChar char = true

theorem Placeholder.Tellable.isStoreToken {placeholder : Placeholder}
    (tellable : placeholder.Tellable) : IsStoreToken placeholder.token :=
  ⟨placeholder.name, rfl, tellable.nonempty, tellable.valid⟩

/-- Whether a word has 32 hexadecimal digits in lower case. -/
def IsHexWord (word : String) : Prop :=
  word.length = 32 ∧ ∀ char ∈ word.toList, char.isDigit = true ∨ 'a' ≤ char ∧ char ≤ 'f'

theorem IsHexWord.isTokenChar {word : String} (isHex : IsHexWord word) :
    ∀ char ∈ word.toList, Config.isTokenChar char = true := by
  intro char member
  have alphanumeric : char.isAlphanum = true := by
    rcases isHex.2 char member with isDigit | ⟨above, below⟩
    · exact (Bool.or_eq_true _ _).mpr (.inr isDigit)
    · have belowLast : char ≤ 'z' := Char.le_trans below (by decide)
      have isLower : char.isLower = true :=
        (Bool.and_eq_true _ _).mpr ⟨decide_eq_true above, decide_eq_true belowLast⟩
      exact (Bool.or_eq_true _ _).mpr (.inl ((Bool.or_eq_true _ _).mpr (.inr isLower)))
  rw [Config.isTokenChar, alphanumeric, Bool.true_or]

/-! ## Sessions of tables -/

/-- Whether an act opens no mint but that of a table. -/
def Act.OnTables : Act → Prop
  | .call (.openMint _) => False
  | _ => True

/-- The mints of a session of tables have valid stems. -/
theorem Stage.InSession.valid_of_mint? {stage : Stage} (session : stage.InSession Act.OnTables) :
    ∀ object ∈ stage.made, ∀ mint, object.mint? = some mint → mint.Valid := by
  induction session with
  | start randomWord => exact List.forall_mem_nil _
  | @act stage _ act onTables known induction =>
      have ofOperands : ∀ mint, Mint.OfSome act.operands mint → mint.Valid := by
        rintro mint ⟨operand, used, owns⟩
        exact induction operand (known operand used) mint owns
      have founded : ∀ mint, act.MayFound mint → mint.Valid := by
        intro mint mayFound
        cases act with
        | call asked =>
            cases asked with
            | openMint config => exact onTables.elim
            | _ => exact mayFound
        | _ => exact mayFound
      intro object member mint owns
      rcases mem_made_afterAct member with isOld | ran
      · exact induction object isOld mint owns
      · cases source : act.mint? with
        | some drawn => exact ofOperands mint (Act.mint_of_run source ran owns)
        | none =>
            rcases (Act.founds_of_mint?_eq_none source).2 stage.supply with ⟨_, _, _, origin⟩
            rcases origin object _ ran mint owns with old | ⟨new, _⟩
            · exact ofOperands mint old
            · exact founded mint new

/-- Whether the tokens that a draft shows are those of the store, whatever it is compiled with, and
are all that a compiled text mentions if attributes have no colons. -/
structure HasStoreTokens (emits : String → Prop) (compile : Dictionary Json → Request)
    (plain : Prop) : Prop where
  emitted : ∀ token, emits token → IsStoreToken token
  bound : ∀ overrides, overrides.get? "ExpressionAttributeValues" = none →
    ∀ token ∈ (compile overrides).valueNames, IsStoreToken token
  mentioned : plain → ∀ token, (compile .empty).Mentions token ↔ emits token

namespace Stage.InSession

variable {stage : Stage} (session : stage.InSession Act.OnTables)
  (isHex : ∀ number, IsHexWord (stage.supply.randomWord number))
include session isHex

theorem hasStoreTokens_read {draft : ReadDraft} (isMade : .read draft ∈ stage.made) :
    HasStoreTokens (draft.Emits stage.made) draft.compile (draft.PlainKeys stage.made) := by
  have tellable : ∀ entry ∈ (Object.read draft).entries, ∀ predicate,
      entry.Contains stage.made predicate →
        ∀ placeholder ∈ predicate.placeholders, placeholder.Tellable := by
    have allMade := session.all_made (fun _ _ tellable => tellable)
      fun object known mint owns predicate creates =>
        creates.tellable (session.valid_of_mint? object known mint owns)
          fun number => (isHex number).isTokenChar
    intro entry present predicate contains
    exact contains.sorted (allMade _ isMade entry present) allMade
  have emitted : ∀ token, draft.Emits stage.made token → IsStoreToken token := by
    rintro token ⟨entry, present, predicate, contains, shown⟩
    rcases List.mem_map.mp (Predicate.shownTokens_subset shown) with ⟨placeholder, bound, rfl⟩
    exact (tellable entry present predicate contains placeholder bound).isStoreToken
  refine ⟨emitted, ?_, ?_⟩
  · intro overrides absent token member
    exact emitted token ((session.valueNames_read isMade absent).mp member)
  · intro plain token
    refine (ReadDraft.emits_iff_mentions_of (session.accounted _ isMade) ?_).symm
    intro entry present predicate contains
    exact ⟨session.shows isMade entry present predicate contains,
      tellable entry present predicate contains, plain entry present predicate contains⟩

theorem hasStoreTokens_update {draft : UpdateDraft} (isMade : .update draft ∈ stage.made) :
    HasStoreTokens draft.Emits draft.compile draft.PlainKeys := by
  have reached := session.update_reached draft isMade
  have stem := session.valid_of_mint? _ isMade draft.binder.mint rfl
  have words : ∀ number, ∀ char ∈ (stage.supply.randomWord number).toList,
      Config.isTokenChar char = true := fun number => (isHex number).isTokenChar
  have emitted : ∀ token, draft.Emits token → IsStoreToken token := by
    rintro token (⟨assignment, assigned, rfl⟩ | ⟨predicate, present, shown⟩)
    · exact (reached.tellable_of_assigned stem words assigned).isStoreToken
    · rcases reached.own.condition _ present with ⟨_, same, creates⟩
      cases same
      rcases List.mem_map.mp (Predicate.shownTokens_subset shown) with ⟨placeholder, bound, rfl⟩
      exact (creates.tellable stem words placeholder bound).isStoreToken
  refine ⟨emitted, ?_, ?_⟩
  · intro overrides absent token member
    exact emitted token ((session.valueNames_update isMade absent).mp member)
  · intro plain token
    exact (reached.emits_iff_mentions stem words plain).symm

end Stage.InSession

/-- In a session of tables every token is one of the store, if random words are hexadecimal. A table
is refused exactly where its configuration is. -/
theorem Stage.InSession.isStoreToken_and_config_errors :
    (∀ stage : Stage, stage.InSession Act.OnTables →
      (∀ number, IsHexWord (stage.supply.randomWord number)) →
        (∀ draft, .read draft ∈ stage.made →
          HasStoreTokens (draft.Emits stage.made) draft.compile (draft.PlainKeys stage.made)) ∧
        ∀ draft, .update draft ∈ stage.made →
          HasStoreTokens draft.Emits draft.compile draft.PlainKeys) ∧
      (∀ name lookup error before after,
        (Table.ofEnvironment name lookup).run before = .error error after ↔
          after = before ∧ ∃ refused, Config.EnvironmentRefused lookup refused ∧
            error = .config refused) ∧
      ∀ (table : Table) config error before after,
        (table.withConfig config).run before = .error error after ↔
          after = before ∧ ∃ refused, Config.Refused config.stem refused ∧
            error = .config refused := by
  refine ⟨?_, ?_, ?_⟩
  · intro stage session isHex
    exact ⟨fun _ isMade => session.hasStoreTokens_read isHex isMade,
      fun _ isMade => session.hasStoreTokens_update isHex isMade⟩
  · exact fun _ _ _ _ _ => Table.run_ofEnvironment_eq_error_iff
  · exact fun _ _ _ _ _ => Table.run_withConfig_eq_error_iff

/-! ## A session on two tables -/

/-- Variables that ask for random placeholders with a stem. -/
def randomVariables (name : String) : Option String :=
  if name = "QUERY_PLACEHOLDER_STRATEGY" then some "Random"
  else if name = "QUERY_PLACEHOLDER_PREFIX" then some "q_"
  else none

def drawnGames : Table := ⟨"games", none, ⟨"q_", .random, false⟩, ⟨"q_", .random⟩⟩

def longWord : String := String.ofList (List.replicate 32 'c')

theorem isHexWord_longWord : IsHexWord longWord := by
  have letters : longWord.toList = List.replicate 32 'c' := String.toList_ofList
  refine ⟨by decide, ?_⟩
  rw [letters]
  intro char member
  rw [List.eq_of_mem_replicate member]
  decide

/-- A read of the second table that takes a read of the first one in. -/
def drawnOrRatedGames : ReadDraft :=
  drawnGames.query.push (.fragment (ratedGames.filter.toEntry.capture .or))

def drawnUpdate : UpdateDraft :=
  { drawnGames.update with
    assignments := Dictionary.ofList [("lost", ⟨"q_" ++ longWord⟩, .bool true)] }

def twoTablesStage : Stage :=
  (Stage.start fun _ => longWord).afterActs
    [.call (.makeTable "games"), .tableOfEnvironment "games" randomVariables,
      .call (.scanTable gamesTable), .call (.queryTable drawnGames),
      .call (.step gamesTable.scan (.restrict .and .eq "rated" (.scalar (.bool true)))),
      .call (.step drawnGames.query (.embed ratedGames .or)),
      .updateTable drawnGames, .change drawnGames.update (.assign "lost" (.bool true))]

theorem Stage.InSession.isStoreToken_and_config_errors_of_twoTables :
    twoTablesStage.InSession Act.OnTables ∧
      (∀ number, IsHexWord (twoTablesStage.supply.randomWord number)) ∧
      .read drawnOrRatedGames ∈ twoTablesStage.made ∧ .update drawnUpdate ∈ twoTablesStage.made ∧
      (∀ token ∈ (drawnOrRatedGames.compile .empty).valueNames, IsStoreToken token) ∧
      (drawnOrRatedGames.compile .empty).valueNames = [":p1"] ∧
      (∀ token ∈ (drawnUpdate.compile .empty).valueNames, IsStoreToken token) ∧
      (drawnUpdate.compile .empty).valueNames = [":q_" ++ longWord] ∧
      (gamesTable.withConfig ⟨"a-b", .random, true⟩).run twoTablesStage.supply =
        .error (.config (.invalidStem "a-b")) twoTablesStage.supply := by
  have session : twoTablesStage.InSession Act.OnTables :=
    Stage.InSession.afterActs _ (.start _) (by simp [Act.OnTables]) (by decide)
  have isHex : ∀ number, IsHexWord (twoTablesStage.supply.randomWord number) := by
    have sameWords : twoTablesStage.supply.randomWord = fun _ => longWord :=
      Stage.randomWord_afterActs _ _
    rw [sameWords]
    exact fun _ => isHexWord_longWord
  have isRead : .read drawnOrRatedGames ∈ twoTablesStage.made := by decide
  have isUpdate : .update drawnUpdate ∈ twoTablesStage.made := by decide
  rcases Stage.InSession.isStoreToken_and_config_errors with ⟨tokens, _, refused⟩
  rcases tokens _ session isHex with ⟨reads, updates⟩
  refine ⟨session, isHex, isRead, isUpdate, (reads _ isRead).bound .empty rfl, by decide,
    (updates _ isUpdate).bound .empty rfl, by decide, ?_⟩
  rw [refused]
  exact ⟨rfl, _, .inr ⟨⟨'-', by decide, rfl⟩, rfl⟩, rfl⟩

end ItemQuery
