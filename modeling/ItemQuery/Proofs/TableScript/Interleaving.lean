import Mathlib.Order.Monotone.Basic
import ItemQuery.Proofs.TableScript.Ownership

/-!
Scripts of two sides on one table.

The drafts of a table draw from one sequence. If the actions of a script are on two sides that never
name each other's objects, then each side makes of its actions what it would make of them alone, but
for the numbers of its placeholders, which stay in their order; and no token of one side is one of
the other (`Table.sides_renamed_and_disjoint`).

In step with an action of one side, the run of that side alone draws numbers that are lower by the
same distance (`Mint.shifted`). The actions of the other side only make the distance greater.
-/

namespace ItemQuery

/-! ## Numbers that are shifted -/

/-- Whether the numbers of a mint between two are renamed to those at some distance behind them. -/
def Mint.Shifts (mint : Mint) (first last distance : Nat) (naming : Placeholder → Placeholder) :
    Prop :=
  ∀ number, first < number → number ≤ last →
    naming (mint.numbered number) = mint.numbered (number + distance)

section

variable {mint : Mint} {sequence : Nat} {first last distance : Nat}
  {naming : Placeholder → Placeholder}

/-- Whether one supply has issued so many more placeholders of a mint than another, and the other
one no fewer than a first number. -/
def Supply.Behind (mint : Mint) (first distance : Nat) (before other : Supply) : Prop :=
  first ≤ mint.count before ∧ mint.count other = mint.count before + distance

theorem Mint.lockstep_next_of_shifts (onSequence : mint.source = .sequence sequence)
    (shifts : mint.Shifts first last distance naming) :
    Draw.Lockstep (Supply.Behind mint first distance)
      (fun supply => mint.count supply ≤ last + distance) Draw.Never
      (fun placeholder twin => twin = naming placeholder) mint.next mint.next := by
  rintro before other ⟨above, counted⟩ bounded
  rcases mint.run_next_eq before with ⟨after, ran, advanced, _⟩
  rcases mint.run_next_eq other with ⟨later, alsoRan, alsoAdvanced, _⟩
  rw [Draw.supplyAfter_of_ok alsoRan, alsoAdvanced, counted] at bounded
  rw [ran, alsoRan]
  apply Draw.Ends.ok not_false
  · rw [nth_of_sequence onSequence, nth_of_sequence onSequence,
      shifts _ (Nat.lt_succ_of_le above) (by omega), counted]
    congr 1
    omega
  · exact ⟨by omega, by omega⟩

/-- A mint on a sequence beside itself in another run, where it is some numbers further. -/
def Mint.shifted (onSequence : mint.source = .sequence sequence)
    (shifts : mint.Shifts first last distance naming) (injective : Function.Injective naming)
    (made : Pairs) : Twins where
  mint := mint
  other := mint
  made := made
  naming := naming
  injective := injective
  related := Supply.Behind mint first distance
  within supply := mint.count supply ≤ last + distance
  parts _ _ := False
  within_of_precedes earlier bounded := Nat.le_trans (earlier mint) bounded
  next := Mint.lockstep_next_of_shifts onSequence shifts
  collision := by
    intro draft twin taken takenTwin drafts operands
    refine .inl ⟨not_false, ?_⟩
    have shares : mint.sharesSequence mint = true := Mint.sharesSequence_self onSequence
    rw [ReadDraft.collision?, drafts.other, operands.other, if_pos shares, ReadDraft.collision?,
      drafts.mint, operands.mint, if_pos shares]

end

/-! ## An action in two runs -/

/-- An action makes the same of objects that are the same, some numbers later. -/
theorem TableAction.lockstep_of_shifts {table : Table} {sequence first last distance : Nat}
    {made : Pairs} {naming : Placeholder → Placeholder} {objects others : Dictionary Object}
    (onSequence : table.mint.source = .sequence sequence)
    (shifts : table.mint.Shifts first last distance naming)
    (injective : Function.Injective naming)
    (renamed : ObjectsRenamed made naming table.mint table.mint objects others)
    (action : TableAction) :
    Draw.Lockstep (Supply.Behind table.mint first distance)
      (fun supply => table.mint.count supply ≤ last + distance) Draw.Never
      (action.MadeRenamed made naming table.mint table.mint) (action.run table objects)
      (action.run table others) := by
  let twins := Mint.shifted onSequence shifts injective made
  have sameObjects : ObjectsRenamed twins.made twins.naming twins.mint twins.other objects others :=
    renamed
  have beside : Table.Beside twins.mint twins.other table table := ⟨rfl, rfl, rfl, rfl, rfl⟩
  apply (lockstep_run sameObjects beside action).mono _ fun _ _ same => same
  intro supply
  refine iff_of_false ?_ not_false
  cases action with
  | step source taken =>
      simp only [Parts]
      split
      · exact (taken.resolve objects).not_parts (fun _ _ => not_false) _ supply
      · exact not_false
  | _ => exact not_false

/-! ## Two runs -/

/-- Whether the objects of a workspace are those on one side of another, but for placeholders. -/
def Workspace.Mirrors (made : Pairs) (naming : Placeholder → Placeholder) (mint : Mint)
    (side : String → Bool) (own : Bool) (lone merged : Workspace) : Prop :=
  ObjectsRenamed made naming mint mint lone.objects (merged.onSide side own)

namespace Workspace.Mirrors

variable {table : Table} {sequence last distance : Nat} {made : Pairs}
  {naming : Placeholder → Placeholder} {side : String → Bool} {lone merged later : Workspace}
  {name : String} {action : TableAction} {outcome : Except QueryError Object}

/-- An action of the side makes the same in both workspaces. -/
theorem perform (onSequence : table.mint.source = .sequence sequence)
    (injective : Function.Injective naming)
    (mirrors : lone.Mirrors made naming table.mint side (side name) merged)
    (named : ∀ source ∈ action.sources, side source = side name)
    (behind : table.mint.count merged.supply = table.mint.count lone.supply + distance)
    (shifts : table.mint.Shifts (table.mint.count lone.supply) last distance naming)
    (performed : merged.perform name (action.run table merged.objects) = (outcome, later))
    (bounded : table.mint.count later.supply ≤ last + distance) :
    ∃ loneOutcome loneLater,
      lone.perform name (action.run table lone.objects) = (loneOutcome, loneLater) ∧
        OutcomeRenamed made naming table.mint table.mint action loneOutcome outcome ∧
        loneLater.Mirrors (made.after name loneOutcome outcome) naming table.mint side (side name)
          later ∧
        table.mint.count later.supply = table.mint.count loneLater.supply + distance := by
  have advanced := merged.supply_perform name (action.run table merged.objects)
  rw [performed] at advanced
  rw [advanced] at bounded
  have lockstep := TableAction.lockstep_of_shifts onSequence shifts injective mirrors action
  rw [merged.run_onSide table named] at lockstep
  have ends := lockstep lone.supply merged.supply ⟨Nat.le_refl _, behind⟩ bounded
  cases ran : (action.run table lone.objects).run lone.supply <;>
    cases other : (action.run table merged.objects).run merged.supply <;>
    rw [ran, other] at ends <;> cases ends
  case ok.ok.ok object loneAfter twin after together same supplies =>
    cases (perform_of_ok other).symm.trans performed
    refine ⟨_, _, perform_of_ok ran, same.1, ?_, supplies.2⟩
    unfold Mirrors
    rw [onSide_insert]
    exact mirrors.insert name same.2
  case error.error.error error loneAfter after together supplies =>
    cases (perform_of_error other).symm.trans performed
    exact ⟨_, _, perform_of_error ran, .failed action error, mirrors, supplies.2⟩
  case ok.error.collision apart => exact absurd apart not_false
  case error.error.collision apart => exact absurd apart not_false

/-- An action of the other side changes nothing on this one. -/
theorem perform_other {own : Bool} (mirrors : lone.Mirrors made naming table.mint side own merged)
    (other : side name ≠ own)
    (performed : merged.perform name (action.run table merged.objects) = (outcome, later)) :
    lone.Mirrors made naming table.mint side own later := by
  cases ran : (action.run table merged.objects).run merged.supply with
  | error error after =>
      cases (perform_of_error ran).symm.trans performed
      exact mirrors
  | ok object after =>
      cases (perform_of_ok ran).symm.trans performed
      unfold Mirrors
      rw [onSide_insert_of_ne other]
      exact mirrors

end Workspace.Mirrors

/-- The actions of a script whose results are kept on a side. -/
def scriptOf (side : String → Bool) (own : Bool) (script : List (String × TableAction)) :
    List (String × TableAction) :=
  script.filter fun step => side step.1 = own

def deedsOf (side : String → Bool) (own : Bool) (deeds : List Deed) : List Deed :=
  deeds.filter fun deed => side deed.1.1 = own

/-- A renumbering that moves everything up to a number by some distance, and everything behind it as
another one does. -/
def shiftBelow (last distance : Nat) (renumber : Nat → Nat) (number : Nat) : Nat :=
  if number ≤ last then number + distance else renumber number

theorem strictMono_shiftBelow {last distance : Nat} {renumber : Nat → Nat}
    (strictMono : StrictMono renumber)
    (above : ∀ number, last < number → last + distance < renumber number) :
    StrictMono (shiftBelow last distance renumber) := by
  intro first second less
  unfold shiftBelow
  split
  · split
    · omega
    · have := above second (by omega)
      omega
  · rw [if_neg (by omega)]
    exact strictMono less

namespace Table

/-- Whether a renumbering keeps the order of the numbers that a side draws alone, moves those that
are still to come behind all that have been issued, and makes of what the side does alone what it
does in the script, whatever it does to other placeholders. -/
structure Renumbers (table : Table) (side : String → Bool) (own : Bool)
    (script : List (String × TableAction)) (merged : Workspace) (drawn : Nat)
    (renumber : Nat → Nat) : Prop where
  strictMono : StrictMono renumber
  above (number : Nat) (toCome : drawn < number) :
    table.mint.count merged.supply < renumber number
  same (naming : Placeholder → Placeholder) (injective : Function.Injective naming)
    (renumbers : ∀ number, drawn < number →
      naming (table.mint.numbered number) = table.mint.numbered (renumber number))
    (made : Pairs) (lone : Workspace) (isDrawn : table.mint.count lone.supply = drawn)
    (mirrors : lone.Mirrors made naming table.mint side own merged) :
    DeedsRenamed naming table.mint table.mint made (table.deeds (scriptOf side own script) lone)
      (deedsOf side own (table.deeds script merged))

variable {table : Table} {side : String → Bool} {own : Bool} {merged later : Workspace}
  {drawn : Nat} {renumber : Nat → Nat} {name : String} {action : TableAction}
  {outcome : Except QueryError Object} {rest : List (String × TableAction)}

theorem renumbers_nil (behind : drawn ≤ table.mint.count merged.supply) :
    table.Renumbers side own [] merged drawn
      fun number => number + (table.mint.count merged.supply - drawn) where
  strictMono _ _ less := Nat.add_lt_add_right less _
  above number toCome := by omega
  same _ _ _ made _ _ _ := .nil made

/-- An action of the side draws the next numbers in both runs, at the distance at which they are. -/
theorem Renumbers.cons_own {sequence : Nat} (onSequence : table.mint.source = .sequence sequence)
    (behind : drawn ≤ table.mint.count merged.supply) (isOwn : side name = own)
    (named : ∀ source ∈ action.sources, side source = side name)
    (performed : merged.perform name (action.run table merged.objects) = (outcome, later))
    (renumbers : table.Renumbers side own rest later
      (drawn + (table.mint.count later.supply - table.mint.count merged.supply)) renumber) :
    table.Renumbers side own ((name, action) :: rest) merged drawn
      (shiftBelow (drawn + (table.mint.count later.supply - table.mint.count merged.supply))
        (table.mint.count merged.supply - drawn) renumber) := by
  subst isOwn
  have further := count_le_perform performed table.mint
  obtain ⟨last, isLast⟩ : ∃ last,
      drawn + (table.mint.count later.supply - table.mint.count merged.supply) = last := ⟨_, rfl⟩
  obtain ⟨distance, isDistance⟩ : ∃ distance,
      table.mint.count merged.supply - drawn = distance := ⟨_, rfl⟩
  rw [isLast] at renumbers
  rw [isLast, isDistance]
  constructor
  · apply strictMono_shiftBelow renumbers.strictMono
    intro number toCome
    have := renumbers.above number toCome
    omega
  · intro number toCome
    unfold shiftBelow
    split
    · omega
    · have := renumbers.above number (by omega)
      omega
  · intro naming injective shifted made lone isDrawn mirrors
    have shifts : table.mint.Shifts (table.mint.count lone.supply) last distance naming := by
      intro number toCome below
      rw [shifted number (by omega), shiftBelow, if_pos below]
    rcases mirrors.perform onSequence injective named (by omega) shifts performed (by omega) with
      ⟨loneOutcome, loneLater, lonePerformed, same, mirrorsLater, counted⟩
    have shiftedLater : ∀ number, last < number →
        naming (table.mint.numbered number) = table.mint.numbered (renumber number) := by
      intro number toCome
      rw [shifted number (by omega), shiftBelow, if_neg (by omega)]
    have sameLater := renumbers.same naming injective shiftedLater _ loneLater (by omega)
      mirrorsLater
    rw [deeds_cons, performed, deedsOf, List.filter_cons_of_pos (by simp), scriptOf,
      List.filter_cons_of_pos (by simp), deeds_cons, lonePerformed]
    exact .cons name same sameLater

/-- An action of the other side at most leaves out some numbers. -/
theorem Renumbers.cons_other (other : side name ≠ own)
    (performed : merged.perform name (action.run table merged.objects) = (outcome, later))
    (renumbers : table.Renumbers side own rest later drawn renumber) :
    table.Renumbers side own ((name, action) :: rest) merged drawn renumber where
  strictMono := renumbers.strictMono
  above number toCome :=
    Nat.lt_of_le_of_lt (count_le_perform performed table.mint) (renumbers.above number toCome)
  same naming injective shifted made lone isDrawn mirrors := by
    rw [deeds_cons, performed, deedsOf, List.filter_cons_of_neg (by simpa using other), scriptOf,
      List.filter_cons_of_neg (by simpa using other)]
    exact renumbers.same naming injective shifted made lone isDrawn
      (mirrors.perform_other other performed)

theorem exists_renumbers (own : Bool) {sequence : Nat}
    (onSequence : table.mint.source = .sequence sequence) :
    ∀ (script : List (String × TableAction)) {merged : Workspace} {drawn : Nat},
      Apart side script → drawn ≤ table.mint.count merged.supply →
        ∃ renumber, table.Renumbers side own script merged drawn renumber
  | [], _, _, _, behind => ⟨_, renumbers_nil behind⟩
  | (name, action) :: rest, merged, drawn, apart, behind => by
      have apartRest : Apart side rest := fun step inRest =>
        apart step (List.mem_cons_of_mem _ inRest)
      cases performed : merged.perform name (action.run table merged.objects) with
      | mk outcome later =>
          have further := count_le_perform performed table.mint
          by_cases isOwn : side name = own
          · have stillBehind : drawn + (table.mint.count later.supply -
                table.mint.count merged.supply) ≤ table.mint.count later.supply := by
              omega
            rcases exists_renumbers own onSequence rest apartRest stillBehind with
              ⟨renumber, renumbers⟩
            have named := apart _ List.mem_cons_self
            exact ⟨_, renumbers.cons_own onSequence behind isOwn named performed⟩
          · rcases exists_renumbers own onSequence rest apartRest (Nat.le_trans behind further) with
              ⟨renumber, renumbers⟩
            exact ⟨renumber, renumbers.cons_other isOwn performed⟩

end Table

/-! ## Two sides -/

/-- Whether the numbers of a mint are renamed by a renumbering, and all other placeholders are left
alone. -/
structure Mint.Moves (mint : Mint) (renumber : Nat → Nat) (naming : Placeholder → Placeholder) :
    Prop where
  numbers (number : Nat) : naming (mint.numbered number) = mint.numbered (renumber number)
  others {placeholder : Placeholder} (other : ¬∃ number, mint.numbered number = placeholder) :
    naming placeholder = placeholder

theorem Mint.Moves.injective {mint : Mint} {renumber : Nat → Nat}
    {naming : Placeholder → Placeholder} (moves : mint.Moves renumber naming)
    (injective : Function.Injective renumber) : Function.Injective naming := by
  intro first second equal
  by_cases isFirst : ∃ number, mint.numbered number = first <;>
    by_cases isSecond : ∃ number, mint.numbered number = second
  case pos =>
    rcases isFirst with ⟨number, rfl⟩
    rcases isSecond with ⟨other, rfl⟩
    rw [moves.numbers, moves.numbers] at equal
    rw [injective (Mint.numbered_injective equal)]
  case neg =>
    rcases isFirst with ⟨number, rfl⟩
    rw [moves.numbers, moves.others isSecond] at equal
    exact absurd ⟨_, equal⟩ isSecond
  case pos =>
    rcases isSecond with ⟨number, rfl⟩
    rw [moves.numbers, moves.others isFirst] at equal
    exact absurd ⟨_, equal.symm⟩ isFirst
  case neg => rwa [moves.others isFirst, moves.others isSecond] at equal

/-- Every renumbering is that of a naming. -/
theorem Mint.exists_moves (mint : Mint) (renumber : Nat → Nat) :
    ∃ naming : Placeholder → Placeholder, mint.Moves renumber naming := by
  have distinct : Function.Injective mint.numbered := fun _ _ => Mint.numbered_injective
  refine ⟨Function.extend mint.numbered (mint.numbered ∘ renumber) id, ?_, ?_⟩
  · exact distinct.extend_apply _ _
  · intro placeholder other
    exact Function.extend_apply' _ _ placeholder other

namespace Table

variable {table : Table} {config : Config} {script : List (String × TableAction)}

theorem configuredDeeds_eq (valid : config.validate = .ok ())
    (isSequential : config.strategy = .sequential) (words : Nat → String) :
    table.configuredDeeds config script words =
      deeds { table with config, mint := ⟨config.stem, .sequence 0⟩ } script
        ⟨.empty, { Supply.initial words with opened := 1 }⟩ := by
  rw [configuredDeeds_of_configured (configured_of_sequential valid isSequential)]

/-- The drafts of two sides that never name each other's objects do not interfere, although they
draw from one sequence. Each side makes of its actions what it makes of them without the other, with
the same errors, but for numbers that are moved in their order; and the two sides have no token in
common, unless one of them is told to put other values into a request. -/
theorem sides_renamed_and_disjoint (table : Table) (valid : config.validate = .ok ())
    (isSequential : config.strategy = .sequential) (words : Nat → String) {side : String → Bool}
    (apart : Apart side script) :
    (∀ own : Bool, ∃ (renumber : Nat → Nat) (naming : Placeholder → Placeholder),
      StrictMono renumber ∧ Function.Injective naming ∧
        Mint.Moves ⟨config.stem, .sequence 0⟩ renumber naming ∧
        DeedsRenamed naming ⟨config.stem, .sequence 0⟩ ⟨config.stem, .sequence 0⟩ []
          (table.configuredDeeds config (scriptOf side own script) words)
          (deedsOf side own (table.configuredDeeds config script words))) ∧
    ((∀ step ∈ script, step.2.keepsValues = true) →
      ∀ first ∈ table.configuredDeeds config script words,
        ∀ second ∈ table.configuredDeeds config script words, side first.1.1 ≠ side second.1.1 →
          ∀ object other, first.2 = .ok object → second.2 = .ok other →
            ∀ token ∈ object.tokens, token ∉ other.tokens) := by
  let configured : Table := { table with config, mint := ⟨config.stem, .sequence 0⟩ }
  let workspace : Workspace := ⟨.empty, { Supply.initial words with opened := 1 }⟩
  have onSequence : configured.mint.source = .sequence 0 := rfl
  constructor
  · intro own
    have behind : 0 ≤ configured.mint.count workspace.supply := Nat.zero_le _
    rcases exists_renumbers own onSequence script apart behind with ⟨renumber, renumbers⟩
    rcases configured.mint.exists_moves renumber with ⟨naming, moves⟩
    have injective := moves.injective renumbers.strictMono.injective
    refine ⟨renumber, naming, renumbers.strictMono, injective, moves, ?_⟩
    rw [configuredDeeds_eq valid isSequential, configuredDeeds_eq valid isSequential]
    exact renumbers.same naming injective (fun number _ => moves.numbers number) [] workspace rfl
      fun _ => .none
  · rw [configuredDeeds_eq valid isSequential]
    exact tokens_disjoint onSequence apart

/-! ## A scan and an update in turns -/

def scanSide (name : String) : Bool := name == "scan" || name == "child"

/-- A scan whose group is built while an update goes on, on the same table. -/
def inTurns : List (String × TableAction) :=
  [("scan", .scan), ("update", .update), ("scan", .step "scan" (ratedStep .and true)),
    ("update", .change "update" (.assign "rank" (.string "low"))), ("child", .branch "scan"),
    ("child", .step "child" (ratedStep .and false)),
    ("update", .change "update" (.assign "level" (.string "last"))),
    ("update", .change "update" (.assign "rank" (.string "top"))),
    ("child", .step "child" (ratedStep .or true)), ("scan", .group "scan" .or "child"),
    ("scan", .compile "scan" .empty), ("update", .compile "update" .empty)]

theorem sides_renamed_and_disjoint_of_inTurns :
    numberedConfig.validate = .ok () ∧ numberedConfig.strategy = .sequential ∧
      Apart scanSide inTurns ∧ (∀ step ∈ inTurns, step.2.keepsValues = true) ∧
      (∃ renumber naming, StrictMono renumber ∧ Function.Injective naming ∧
        Mint.Moves ⟨"p", .sequence 0⟩ renumber naming ∧
        DeedsRenamed naming ⟨"p", .sequence 0⟩ ⟨"p", .sequence 0⟩ []
          (gamesTable.configuredDeeds numberedConfig (scriptOf scanSide true inTurns) hexWord)
          (deedsOf scanSide true (gamesTable.configuredDeeds numberedConfig inTurns hexWord))) ∧
      ∃ request : Request,
        (gamesTable.outcomes numberedConfig inTurns hexWord).1[10]? =
            some (.ok (.request request)) ∧
          request.filterExpression? = some "(rated = :p1 or (rated = :p3 or rated = :p5))" ∧
          request.valueNames = [":p1", ":p3", ":p5"] := by
  have valid : numberedConfig.validate = .ok () := by decide
  have apart : Apart scanSide inTurns := by decide
  have both := gamesTable.sides_renamed_and_disjoint valid rfl hexWord apart
  exact ⟨valid, rfl, apart, by decide, both.1 true, _, rfl, by decide, by decide⟩

end Table

end ItemQuery
