import ItemQuery.Proofs.Growth

/-!
Runs: calls made one after the other, in any order and on any objects made so far.

A stage of a run holds the objects that were made, how far the sequences have come, and a log of the
placeholders that were issued. No object is ever changed; a call makes a new one or fails, and what
it drew is logged in both cases. The log is no part of the program. It only says which value a
placeholder was drawn for.
-/

namespace ItemQuery

/-! ## Objects -/

namespace Object

def mint? : Object → Option Mint
  | .mint source => some source
  | .binder held => some held.mint
  | .table held => some held.mint
  | .read draft => some draft.binder.mint
  | .update draft => some draft.binder.mint
  | _ => none

/-- The entries that an object holds, a condition being one entry. -/
def entries : Object → List Entry
  | .predicate simple => [.predicate simple]
  | .condition held => [held.toEntry]
  | .fragment captured => [.fragment captured]
  | .read draft =>
      match draft.target with
      | .scan => [draft.filter.toEntry]
      | .query keyCondition _ => [keyCondition.toEntry, draft.filter.toEntry]
  | _ => []

/-- The object that an entry is by itself. -/
def ofEntry : Entry → Object
  | .predicate simple => .predicate simple
  | .group joined entries => .condition ⟨joined, entries⟩
  | .fragment captured => .fragment captured

end Object

/-! ## Calls -/

/-- What can be asked for in a run, with the objects that it is asked of. A verb of a draft is a
step; the function that builds a group may also be one that makes other calls on a branch and then
hands over some draft. -/
inductive Call
  | openMint (config : Config)
  | mintOf (binder : Binder)
  /-- Draw a placeholder and bind nothing to it. -/
  | discard (mint : Mint)
  | makeBinder (mint : Mint) (marshaler : Marshaler)
  | binderOf (draft : ReadDraft)
  | predicate (binder : Binder) (kind : PredicateKind) (key : String) (operand : Operand)
      (connective : Connective)
  | named (binder : Binder) (kindName key : String) (operand : Operand) (connective : Connective)
  | specified (binder : Binder) (specification : Specification)
  | rejoin (predicate : Predicate) (connective : Connective)
  | emptyCondition
  | push (condition : Condition) (entry : Entry)
  | add (condition : Condition) (connective : Connective) (entry : Entry)
  | pushAll (condition : Condition) (entries : List Entry)
  | withConnective (condition : Condition) (connective : Connective)
  | filterOf (draft : ReadDraft)
  | keyConditionOf (draft : ReadDraft)
  | capture (entry : Entry) (connective : Connective)
  | makeTable (name : String)
  | withConfig (table : Table) (config : Config)
  | withIndex (table : Table) (indexName : String)
  | scanTable (table : Table)
  | queryTable (table : Table)
  | start (target : ReadTarget) (tableName : String) (binder : Binder)
  | branch (draft : ReadDraft)
  | step (draft : ReadDraft) (step : ReadStep)
  | group (draft : ReadDraft) (connective : Connective) (child : ReadDraft)

namespace Call

def operands : Call → List Object
  | .openMint _ | .emptyCondition | .makeTable _ => []
  | .mintOf binder | .predicate binder .. | .named binder .. | .specified binder _
  | .start _ _ binder => [.binder binder]
  | .discard mint | .makeBinder mint _ => [.mint mint]
  | .binderOf draft | .filterOf draft | .keyConditionOf draft | .branch draft => [.read draft]
  | .rejoin simple _ => [.predicate simple]
  | .push condition entry | .add condition _ entry => [.condition condition, .ofEntry entry]
  | .pushAll condition entries => .condition condition :: entries.map .ofEntry
  | .withConnective condition _ => [.condition condition]
  | .capture entry _ => [.ofEntry entry]
  | .withConfig table _ | .withIndex table _ | .scanTable table | .queryTable table =>
      [.table table]
  | .step draft taken => .read draft :: taken.operands
  | .group draft _ child => [.read draft, .read child]

def action : Call → Draw Object
  | .openMint config => .mint <$> Mint.ofConfig config
  | .mintOf binder => pure (.mint binder.mint)
  | .discard mint => (fun _ => .mint mint) <$> mint.next
  | .makeBinder mint marshaler => pure (.binder ⟨mint, marshaler⟩)
  | .binderOf draft => pure (.binder draft.binder)
  | .predicate binder kind key operand connective =>
      .predicate <$> binder.predicate kind key operand connective
  | .named binder kindName key operand connective =>
      .predicate <$> binder.named kindName key operand connective
  | .specified binder specification => .predicate <$> binder.specified specification
  | .rejoin simple connective => pure (.predicate (simple.withConnective connective))
  | .emptyCondition => pure (.condition .empty)
  | .push condition entry => pure (.condition (condition.push entry))
  | .add condition connective entry => pure (.condition (condition.add connective entry))
  | .pushAll condition entries => pure (.condition (condition.pushAll entries))
  | .withConnective condition connective =>
      pure (.condition (condition.withConnective connective))
  | .filterOf draft => pure (.condition draft.filter)
  | .keyConditionOf draft =>
      match draft.target with
      | .query keyCondition _ => pure (.condition keyCondition)
      | .scan => throw .malformed
  | .capture entry connective => pure (.fragment (entry.capture connective))
  | .makeTable name => .table <$> Table.create name
  | .withConfig table config => .table <$> table.withConfig config
  | .withIndex table indexName => pure (.table (table.withIndex indexName))
  | .scanTable table => pure (.read table.scan)
  | .queryTable table => pure (.read table.query)
  | .start target tableName binder => pure (.read (.start target tableName binder))
  | .branch draft => pure (.read draft.branch)
  | .step draft taken => .read <$> taken.run draft
  | .group draft connective child =>
      .read <$> draft.group connective fun _ => pure child

/-- The placeholders that the call draws, with the values that they are drawn for. -/
def issues : Call → Supply → List Issue
  | .discard mint, supply =>
      match mint.next.run supply with
      | .ok placeholder _ => [⟨mint, placeholder, none⟩]
      | .error _ _ => []
  | .predicate binder kind key operand connective, supply =>
      binder.mint.issuesOfRun (binder.predicate kind key operand connective) supply
  | .named binder kindName key operand connective, supply =>
      binder.mint.issuesOfRun (binder.named kindName key operand connective) supply
  | .specified binder specification, supply =>
      binder.mint.issuesOfRun (binder.specified specification) supply
  | .step draft taken, supply => taken.issues draft supply
  | _, _ => []

end Call

/-! ## Stages -/

structure Stage where
  made : List Object
  issues : List Issue
  supply : Supply

namespace Stage

def start (randomWord : Nat → String) : Stage := ⟨[], [], .initial randomWord⟩

/-- The stage after a call. If the call fails no object is made. -/
def after (stage : Stage) (call : Call) : Stage where
  made :=
    match call.action.run stage.supply with
    | .ok object _ => stage.made ++ [object]
    | .error _ _ => stage.made
  issues := stage.issues ++ call.issues stage.supply
  supply := call.action.supplyAfter stage.supply

/-- Calls on objects that were made lead from one stage to another. -/
inductive Leads (stage : Stage) : Stage → Prop
  | refl : Leads stage stage
  | call {middle : Stage} (earlier : Leads stage middle) (call : Call)
      (known : ∀ operand ∈ call.operands, operand ∈ middle.made) :
      Leads stage (middle.after call)

theorem Leads.trans {stage middle later : Stage} (first : stage.Leads middle)
    (second : middle.Leads later) : stage.Leads later := by
  induction second with
  | refl => exact first
  | call _ call known induction => exact induction.call call known

def Reached (stage : Stage) : Prop := ∃ randomWord, (start randomWord).Leads stage

/-! ## Lists of calls -/

/-- The stage after several calls. -/
def afterAll (stage : Stage) : List Call → Stage
  | [] => stage
  | call :: rest => (stage.after call).afterAll rest

/-- Whether every call of a list finds its operands. -/
def Allows (stage : Stage) : List Call → Prop
  | [] => True
  | call :: rest =>
      (∀ operand ∈ call.operands, operand ∈ stage.made) ∧ (stage.after call).Allows rest

instance decidableAllows : ∀ (calls : List Call) (stage : Stage), Decidable (stage.Allows calls)
  | [], _ => inferInstanceAs (Decidable True)
  | call :: rest, stage =>
      have := decidableAllows rest (stage.after call)
      inferInstanceAs (Decidable (_ ∧ _))

theorem leads_afterAll {calls : List Call} {stage : Stage} (allowed : stage.Allows calls) :
    stage.Leads (stage.afterAll calls) := by
  induction calls generalizing stage with
  | nil => exact .refl
  | cons call rest induction => exact (Leads.refl.call call allowed.1).trans (induction allowed.2)

end Stage

end ItemQuery
