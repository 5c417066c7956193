import ItemQuery.Proofs.Renaming.Words
import ItemQuery.Proofs.TableScript.Lockstep

/-!
Numbered and random placeholders.

A script is run twice on one table, once with placeholders that are numbered and once with random
ones that are never repeated. The runs make the same of it up to a renaming of placeholders, unless
a draft takes in a filter whose tokens it binds already, as when one filter is embedded twice: the
numbered run goes on where the other one fails (`outcomes_renamed_iff`).
-/

namespace ItemQuery

/-! ## Runs -/

namespace Workspace

theorem perform_of_ok {workspace : Workspace} {name : String} {action : Draw Object}
    {object : Object} {after : Supply} (ran : action.run workspace.supply = .ok object after) :
    workspace.perform name action =
      (.ok object, ⟨workspace.objects.insert name object, after⟩) := by
  simp [perform, draw, ran]

theorem perform_of_error {workspace : Workspace} {name : String} {action : Draw Object}
    {error : QueryError} {after : Supply} (ran : action.run workspace.supply = .error error after) :
    workspace.perform name action = (.error error, ⟨workspace.objects, after⟩) := by
  simp [perform, draw, ran]

theorem supply_perform (workspace : Workspace) (name : String) (action : Draw Object) :
    (workspace.perform name action).2.supply = action.supplyAfter workspace.supply := by
  unfold Draw.supplyAfter
  cases ran : action.run workspace.supply with
  | ok object after => rw [perform_of_ok ran]
  | error error after => rw [perform_of_error ran]

end Workspace

theorem Table.randomIssued_le_performAll (table : Table) :
    ∀ (script : List (String × TableAction)) (workspace : Workspace),
      workspace.supply.randomIssued ≤ (table.performAll script workspace).2.supply.randomIssued
  | [], _ => Nat.le_refl _
  | (name, action) :: rest, workspace => by
      have first := action.onward_run table workspace.objects workspace.supply ⟨"", .random⟩
      rw [← workspace.supply_perform name] at first
      exact Nat.le_trans first (table.randomIssued_le_performAll rest _)

/-- Where drafts draw from a sequence, also an embedding that takes in a bound token succeeds. -/
theorem TableAction.uncollided_of_takesBound {mint : Mint} {sequence : Nat}
    (onSequence : mint.source = .sequence sequence) {objects : Dictionary Object}
    (ofMint : DrawFrom mint objects) {supply : Supply} {action : TableAction}
    (takes : action.TakesBound objects supply) (table : Table) :
    (action.run table objects).Uncollided := by
  cases action with
  | step source taken =>
      apply Draw.Uncollided.bind
      · unfold readDraft
        split
        · exact .pure _
        · exact .throw (by simp)
      · intro draft before after found
        have isMint := ofMint source draft (of_run_readDraft found).1
        exact (taken.uncollided_run onSequence ofMint draft isMint).map _
  | _ => cases takes

/-! ## Two runs -/

/-- Whether two workspaces of two runs are the same but for mints and placeholders, as many words
having been drawn as numbers. -/
structure Workspace.Renamed (made : Pairs) (naming : Placeholder → Placeholder) (stem : String)
    (sequence : Nat) (words : Nat → String) (first second : Workspace) : Prop where
  objects : ObjectsRenamed made naming ⟨stem, .sequence sequence⟩ ⟨stem, .random⟩ first.objects
    second.objects
  supplies : Supply.Matches sequence words first.supply second.supply

/-- Whether two runs came to the same but for placeholders, or cannot be made the same by any
renaming if something or other is the case. -/
def DeedsDiffer (naming : Placeholder → Placeholder) (mint other : Mint) (differ : Prop)
    (made : Pairs) (deeds others : List Deed) : Prop :=
  (¬differ ∧ DeedsRenamed naming mint other made deeds others) ∨
    (differ ∧ ∀ (another : Placeholder → Placeholder) (more : Pairs),
      ¬DeedsRenamed another mint other more deeds others)

namespace DeedsDiffer

variable {naming : Placeholder → Placeholder} {mint other : Mint} {now later : Prop}
  {made : Pairs} {action : TableAction} {outcome twin : Except QueryError Object}
  {deeds others : List Deed}

theorem cons (name : String) (same : OutcomeRenamed made naming mint other action outcome twin)
    (notNow : ¬now)
    (rest : DeedsDiffer naming mint other later (made.after name outcome twin) deeds others) :
    DeedsDiffer naming mint other (now ∨ later) made (((name, action), outcome) :: deeds)
      (((name, action), twin) :: others) := by
  rcases rest with ⟨never, all⟩ | ⟨differ, none⟩
  · exact .inl ⟨not_or.mpr ⟨notNow, never⟩, .cons name same all⟩
  · refine .inr ⟨.inr differ, ?_⟩
    intro another more renamed
    cases renamed with
    | cons _ _ renamedLater => exact none another _ renamedLater

theorem head (name : String) (differ : now)
    (different : ∀ another more, ¬OutcomeRenamed more another mint other action outcome twin) :
    DeedsDiffer naming mint other (now ∨ later) made (((name, action), outcome) :: deeds)
      (((name, action), twin) :: others) := by
  refine .inr ⟨.inl differ, ?_⟩
  intro another more renamed
  cases renamed with
  | cons _ same _ => exact different another more same

end DeedsDiffer

section

variable {stem : String} {sequence : Nat} {words : Nat → String} {count : Nat} {made : Pairs}
  {naming : Placeholder → Placeholder} (injective : Function.Injective naming)
  (renames : Mint.Renames ⟨stem, .sequence sequence⟩ words count naming) {table twin : Table}
  (beside : Table.Beside ⟨stem, .sequence sequence⟩ ⟨stem, .random⟩ table twin)
include injective renames beside

/-- An action leaves two workspaces the same but for placeholders, or it takes in a bound token, and
then its outcomes cannot be the same. -/
theorem Workspace.Renamed.perform {first second firstLater secondLater : Workspace}
    (renamed : first.Renamed made naming stem sequence words second) {name : String}
    {action : TableAction} {outcome outcomeTwin : Except QueryError Object}
    (performed : first.perform name (action.run table first.objects) = (outcome, firstLater))
    (alsoPerformed :
      second.perform name (action.run twin second.objects) = (outcomeTwin, secondLater))
    (bounded : secondLater.supply.Within count) :
    (¬action.TakesBound first.objects first.supply ∧
      OutcomeRenamed made naming ⟨stem, .sequence sequence⟩ ⟨stem, .random⟩ action outcome
        outcomeTwin ∧
      firstLater.Renamed (made.after name outcome outcomeTwin) naming stem sequence words
        secondLater) ∨
    (action.TakesBound first.objects first.supply ∧ ∀ another more,
      ¬OutcomeRenamed more another ⟨stem, .sequence sequence⟩ ⟨stem, .random⟩ action outcome
        outcomeTwin) := by
  have advanced := second.supply_perform name (action.run twin second.objects)
  rw [alsoPerformed] at advanced
  rw [advanced] at bounded
  let twins := Mint.sideBySide renames injective made
  have objects : ObjectsRenamed twins.made twins.naming twins.mint twins.other first.objects
      second.objects := renamed.objects
  have ends := TableAction.lockstep_run objects beside action first.supply second.supply
    renamed.supplies bounded
  cases ran : (action.run table first.objects).run first.supply <;>
    cases other : (action.run twin second.objects).run second.supply <;>
    rw [ran, other] at ends <;> cases ends
  case ok.ok.ok together madeRenamed supplies =>
    cases (perform_of_ok ran).symm.trans performed
    cases (perform_of_ok other).symm.trans alsoPerformed
    exact .inl ⟨together, madeRenamed.1, renamed.objects.insert name madeRenamed.2, supplies⟩
  case error.error.error together supplies =>
    cases (perform_of_error ran).symm.trans performed
    cases (perform_of_error other).symm.trans alsoPerformed
    exact .inl ⟨together, .failed action _, renamed.objects, supplies⟩
  -- From here on the random run has met a collision, which is no outcome of the numbered one.
  case ok.error.collision takes =>
    cases (perform_of_ok ran).symm.trans performed
    cases (perform_of_error other).symm.trans alsoPerformed
    exact .inr ⟨takes, fun another more same => nomatch same⟩
  case error.error.collision takes =>
    cases (perform_of_error ran).symm.trans performed
    cases (perform_of_error other).symm.trans alsoPerformed
    refine .inr ⟨takes, fun another more same => ?_⟩
    cases same
    exact TableAction.uncollided_of_takesBound rfl renamed.objects.drawFrom takes table _ _ _ ran

/-- Two runs of a script make the same but for placeholders, or one of its actions takes in a bound
token, and then no renaming makes them the same. -/
theorem Table.deedsDiffer : ∀ (script : List (String × TableAction)) {made : Pairs}
    {first second : Workspace}, first.Renamed made naming stem sequence words second →
      (twin.performAll script second).2.supply.Within count →
      DeedsDiffer naming ⟨stem, .sequence sequence⟩ ⟨stem, .random⟩ (table.TakesBound script first)
        made (table.deeds script first) (twin.deeds script second)
  | [], made, _, _, _, _ => .inl ⟨not_false, .nil made⟩
  | (name, action) :: rest, _, first, second, renamed, bounded => by
      have boundedFirst := Nat.le_trans (twin.randomIssued_le_performAll rest _) bounded
      rw [deeds_cons, deeds_cons]
      rcases renamed.perform injective renames beside rfl rfl boundedFirst with
        ⟨together, same, kept⟩ | ⟨takes, different⟩
      · exact .cons name same together (deedsDiffer rest kept bounded)
      · exact .head name takes different

end

/-! ## Strategies -/

namespace Table

/-- The table with another configuration, before anything was drawn. -/
def configured (table : Table) (config : Config) (words : Nat → String) :
    Except QueryError Table × Workspace :=
  (Workspace.empty words).draw (table.withConfig config)

/-- What comes of a script on a table with another configuration, and the workspace at the end. -/
def outcomes (table : Table) (config : Config) (script : List (String × TableAction))
    (words : Nat → String) : List (Except QueryError Object) × Workspace :=
  match table.configured config words with
  | (.ok configured, workspace) => configured.performAll script workspace
  | (.error error, workspace) => ([.error error], workspace)

/-- What comes of each action of a script on a table with another configuration. -/
def configuredDeeds (table : Table) (config : Config) (script : List (String × TableAction))
    (words : Nat → String) : List Deed :=
  script.zip (table.outcomes config script words).1

/-- Whether a script, run on a table with another configuration, embeds a filter into a draft that
binds one of its tokens already. -/
def EmbedsBound (table : Table) (config : Config) (script : List (String × TableAction))
    (words : Nat → String) : Prop :=
  match table.configured config words with
  | (.ok configured, workspace) => configured.TakesBound script workspace
  | (.error _, _) => False

variable {table : Table} {config : Config} {words : Nat → String}

theorem configured_of_invalid {error : ConfigError} (invalid : config.validate = .error error) :
    table.configured config words = (.error (.config error), .empty words) := by
  simp [configured, withConfig, Workspace.draw, invalid, Draw.ofConfig, Workspace.empty]

theorem configured_of_sequential (valid : config.validate = .ok ())
    (isSequential : config.strategy = .sequential) :
    table.configured config words =
      (.ok { table with config, mint := ⟨config.stem, .sequence 0⟩ },
        ⟨.empty, { Supply.initial words with opened := 1 }⟩) := by
  simp [configured, withConfig, Workspace.draw, valid, Draw.ofConfig, Workspace.empty,
    Mint.ofConfig, isSequential, Mint.sequential, Supply.initial]

theorem configured_of_random (valid : config.validate = .ok ())
    (isRandom : config.strategy = .random) :
    table.configured config words =
      (.ok { table with config, mint := ⟨config.stem, .random⟩ }, .empty words) := by
  simp [configured, withConfig, Workspace.draw, valid, Draw.ofConfig, Workspace.empty,
    Mint.ofConfig, isRandom, Mint.random]

theorem configuredDeeds_of_invalid {error : ConfigError} (invalid : config.validate = .error error)
    (script : List (String × TableAction)) :
    table.configuredDeeds config script words = script.zip [.error (.config error)] := by
  rw [configuredDeeds, outcomes, configured_of_invalid invalid]

theorem outcomes_of_configured {configured : Table} {workspace : Workspace}
    (isConfigured : table.configured config words = (.ok configured, workspace))
    (script : List (String × TableAction)) :
    table.outcomes config script words = configured.performAll script workspace := by
  rw [outcomes, isConfigured]

theorem configuredDeeds_of_configured {configured : Table} {workspace : Workspace}
    (isConfigured : table.configured config words = (.ok configured, workspace))
    (script : List (String × TableAction)) :
    table.configuredDeeds config script words = configured.deeds script workspace := by
  rw [configuredDeeds, outcomes_of_configured isConfigured]
  rfl

end Table

/-- If no word is drawn twice, numbered and random placeholders differ in their names only, in all
that a script makes and in all errors, if and only if the script never embeds a filter into a draft
that binds one of its tokens already. -/
theorem outcomes_renamed_iff (table : Table) (config : Config)
    (script : List (String × TableAction)) (words : Nat → String) :
    let numbered : Config := { config with strategy := .sequential }
    let drawn : Config := { config with strategy := .random }
    FreshBelow words (table.outcomes drawn script words).2.supply.randomIssued →
    ((∃ naming : Placeholder → Placeholder, Function.Injective naming ∧
        DeedsRenamed naming ⟨config.stem, .sequence 0⟩ ⟨config.stem, .random⟩ []
          (table.configuredDeeds numbered script words)
          (table.configuredDeeds drawn script words)) ↔
      ¬table.EmbedsBound numbered script words) := by
  intro numbered drawn fresh
  cases validated : config.validate with
  | error error =>
      have invalid : numbered.validate = .error error := validated
      have alsoInvalid : drawn.validate = .error error := validated
      have never : ¬table.EmbedsBound numbered script words := by
        unfold Table.EmbedsBound
        rw [Table.configured_of_invalid invalid]
        exact not_false
      refine iff_of_true ⟨id, Function.injective_id, ?_⟩ never
      rw [Table.configuredDeeds_of_invalid invalid, Table.configuredDeeds_of_invalid alsoInvalid]
      exact .failed script _
  | ok _ =>
      have valid : numbered.validate = .ok () := validated
      have alsoValid : drawn.validate = .ok () := validated
      rw [Table.outcomes_of_configured (Table.configured_of_random alsoValid rfl)] at fresh
      rcases Mint.exists_naming ⟨config.stem, .sequence 0⟩ fresh with ⟨naming, renames⟩
      have started : Workspace.Renamed [] naming config.stem 0 words
          ⟨.empty, { Supply.initial words with opened := 1 }⟩ (.empty words) :=
        ⟨fun _ => .none, rfl, rfl⟩
      have beside : Table.Beside ⟨config.stem, .sequence 0⟩ ⟨config.stem, .random⟩
          { table with config := numbered, mint := ⟨config.stem, .sequence 0⟩ }
          { table with config := drawn, mint := ⟨config.stem, .random⟩ } :=
        ⟨rfl, rfl, rfl, rfl, rfl⟩
      have differ := Table.deedsDiffer naming.injective renames beside script started
        (Nat.le_refl _)
      unfold Table.EmbedsBound
      rw [Table.configuredDeeds_of_configured (Table.configured_of_sequential valid rfl),
        Table.configuredDeeds_of_configured (Table.configured_of_random alsoValid rfl),
        Table.configured_of_sequential valid rfl]
      rcases differ with ⟨never, all⟩ | ⟨embeds, none⟩
      · exact iff_of_true ⟨naming, naming.injective, all⟩ never
      · refine iff_of_false ?_ (not_not.mpr embeds)
        rintro ⟨another, _, all⟩
        exact none another [] all

/-! ## Scripts with a filter that others take in -/

def numberedConfig : Config := { Config.default with strategy := .sequential }

def drawnConfig : Config := { Config.default with strategy := .random }

def hexWord (number : Nat) : String := toString number ++ "f"

def ratedStep (joined : Connective) (value : Bool) : TableStep :=
  .verb (.restrict joined .eq "rated" (.scalar (.bool value))) rfl

def ratedScript : List (String × TableAction) :=
  [("rated", .scan), ("rated", .step "rated" (ratedStep .and true))]

/-- The filter of a draft is embedded into a group of another one. -/
def embeddedOnce : List (String × TableAction) :=
  ratedScript ++
    [("named", .query),
      ("named", .step "named" (.verb (.keyCondition .eq "name" (.string "go")) rfl)),
      ("named", .step "named" (.group .and [.embed "rated" .and, ratedStep .or false])),
      ("request", .compile "named" .empty),
      ("change", .update), ("change", .change "change" (.assign "rated" (.bool true))),
      ("request", .compile "change" .empty)]

theorem outcomes_renamed_of_embeddedOnce :
    FreshBelow hexWord
        (gamesTable.outcomes drawnConfig embeddedOnce hexWord).2.supply.randomIssued ∧
      ¬gamesTable.EmbedsBound numberedConfig embeddedOnce hexWord ∧
      ∃ naming : Placeholder → Placeholder, Function.Injective naming ∧
        DeedsRenamed naming ⟨"p", .sequence 0⟩ ⟨"p", .random⟩ []
          (gamesTable.configuredDeeds numberedConfig embeddedOnce hexWord)
          (gamesTable.configuredDeeds drawnConfig embeddedOnce hexWord) := by
  have fresh : FreshBelow hexWord
      (gamesTable.outcomes drawnConfig embeddedOnce hexWord).2.supply.randomIssued := by decide
  have never : ¬gamesTable.EmbedsBound numberedConfig embeddedOnce hexWord := by
    -- Only the step with the group embeds anything, and its branch binds nothing yet.
    rintro (no | no | no | no | (takes | no | no) | no | no | no | no | no)
    case inr.inr.inr.inr.inl.inl =>
      change ReadDraft.TakesBound _ _ at takes
      revert takes
      decide
    all_goals exact no
  exact ⟨fresh, never,
    (outcomes_renamed_iff gamesTable Config.default embeddedOnce hexWord fresh).mpr never⟩

/-- The filter of a draft is embedded into another one, and once more. -/
def embeddedTwice : List (String × TableAction) :=
  ratedScript ++
    [("parent", .scan), ("parent", .step "parent" (.embed "rated" .and)),
      ("parent", .step "parent" (.embed "rated" .or)), ("request", .compile "parent" .empty)]

theorem not_outcomes_renamed_of_embeddedTwice :
    FreshBelow hexWord
        (gamesTable.outcomes drawnConfig embeddedTwice hexWord).2.supply.randomIssued ∧
      (∃ request : Request,
        (gamesTable.outcomes numberedConfig embeddedTwice hexWord).1[5]? =
            some (.ok (.request request)) ∧
          request.filterExpression? = some "((rated = :p1) or (rated = :p1))") ∧
      (gamesTable.outcomes drawnConfig embeddedTwice hexWord).1[4]? =
        some (.error (.collision ":p0f")) ∧
      ¬∃ naming : Placeholder → Placeholder, Function.Injective naming ∧
        DeedsRenamed naming ⟨"p", .sequence 0⟩ ⟨"p", .random⟩ []
          (gamesTable.configuredDeeds numberedConfig embeddedTwice hexWord)
          (gamesTable.configuredDeeds drawnConfig embeddedTwice hexWord) := by
  refine ⟨by decide, ⟨_, rfl, by decide⟩, by decide, ?_⟩
  rintro ⟨naming, _, all⟩
  rcases all.exists_outcomeRenamed 4 rfl rfl with ⟨more, fifth⟩
  cases fifth

end ItemQuery
