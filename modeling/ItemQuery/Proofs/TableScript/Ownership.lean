import ItemQuery.Proofs.References
import ItemQuery.Proofs.TableScript.Frame
import ItemQuery.Proofs.TableScript.Strategies
import ItemQuery.Proofs.Updates.Growth

/-!
Which side a placeholder was issued to.

An object that an action makes has values for tokens of the objects that the action names and for
those that were issued for the action, and for no others (`TableAction.confined_of_run`). Where
every action keeps to its own side, each number of the mint therefore belongs to one side for the
rest of a run (`Table.exists_owner`).
-/

namespace ItemQuery

/-! ## Tokens of objects -/

namespace Object

/-- The tokens that an object has values for. -/
def tokens : Object → List String
  | .read draft => (draft.target.tokenValues ++ draft.filter.tokenValues).map Prod.fst
  | .update draft => draft.tokens
  | .request compiled => compiled.valueNames
  | _ => []

/-- Whether an object draws from one mint at most, and all of its tokens are of some sort. -/
structure Confined (mint : Mint) (sort : String → Prop) (object : Object) : Prop where
  mint : ∀ source ∈ object.mint?, source = mint
  tokens : ∀ token ∈ object.tokens, sort token

variable {mint : Mint} {sort weaker : String → Prop} {draft grown : ReadDraft}

theorem Confined.mono {object : Object} (confined : object.Confined mint sort)
    (weaken : ∀ token, sort token → weaker token) : object.Confined mint weaker where
  mint := confined.mint
  tokens token member := weaken token (confined.tokens token member)

theorem forall_tokens_read : (∀ token ∈ (Object.read draft).tokens, sort token) ↔
    ∀ entry ∈ draft.target.entries ++ draft.filter.entries,
      ∀ binding ∈ entry.tokenValues, sort binding.1 := by
  have targets : draft.target.tokenValues = draft.target.entries.flatMap Entry.tokenValues := by
    cases draft.target with
    | scan => rfl
    | query keys forward => exact keys.tokenValues_eq
  rw [tokens, targets, Condition.tokenValues_eq, ← List.flatMap_append, List.forall_mem_map]
  simp only [List.mem_flatMap]
  constructor
  · intro all entry present binding member
    exact all binding ⟨entry, present, member⟩
  · intro all binding member
    rcases member with ⟨entry, present, member⟩
    exact all entry present binding member

/-- What a draft gives when it is taken in are tokens of its own. -/
theorem Confined.given (confined : (Object.read draft).Confined mint sort) :
    ∀ binding ∈ (Object.read draft).given, sort binding.1 := by
  intro binding member
  rw [Object.given, ← Prod.eta binding, ← Dictionary.get?_eq_some_iff] at member
  have inFilter := Entry.get?_bindings_eq_some member
  exact confined.tokens _ (List.mem_map_of_mem (f := Prod.fst) (List.mem_append_right _ inFilter))

theorem Confined.grew {operands : List Object} {issues : List Issue}
    (confined : (Object.read draft).Confined mint sort)
    (grew : draft.Grew operands issues grown)
    (given : ∀ operand ∈ operands, ∀ binding ∈ operand.given, sort binding.1)
    (issued : ∀ issue ∈ issues, sort issue.placeholder.token) :
    (Object.read grown).Confined mint sort := by
  have old := forall_tokens_read.mp confined.tokens
  have new : ∀ {taken : List Object} {entry : Entry}, entry.Added taken issues →
      taken ⊆ operands → ∀ binding ∈ entry.tokenValues, sort binding.1 := by
    intro taken entry added known binding member
    rcases added.tokenValues binding member with incoming | ⟨issue, drawn, binds⟩
    · rcases List.mem_flatMap.mp incoming with ⟨operand, used, gives⟩
      exact given operand (known used) binding gives
    · rw [← binds.1]
      exact issued issue drawn
  constructor
  · rw [Object.mint?, grew.binder]
    exact confined.mint
  · refine forall_tokens_read.mpr ?_
    intro entry member
    rcases List.mem_append.mp member with inTarget | inFilter
    · rcases grew.target.mem entry inTarget with before | added
      · exact old entry (List.mem_append_left _ before)
      · exact new added (List.nil_subset operands)
    · rcases grew.filter.mem entry inFilter with before | added
      · exact old entry (List.mem_append_right _ before)
      · exact new added (List.Subset.refl operands)

end Object

/-! ## Actions -/

/-- Whether an action does not replace the values of a request that it compiles. -/
def TableAction.keepsValues : TableAction → Bool
  | .compile _ overrides => (overrides.get? "ExpressionAttributeValues").isNone
  | _ => true

theorem Mint.Issues.sorted {mint : Mint} {sort : String → Prop} {before after : Supply}
    {issues : List Issue} (drawn : mint.Issues before issues after)
    (fresh : ∀ index, mint.count before ≤ index → index < mint.count after →
      sort (mint.nth before.randomWord index).token) :
    ∀ issue ∈ issues, sort issue.placeholder.token := by
  intro issue member
  rcases drawn.indexed issue member with ⟨index, above, below, isNth⟩
  rw [isNth]
  exact fresh index above below

namespace TableAction

variable {table : Table} {objects : Dictionary Object} {sort : String → Prop} {object : Object}
  {before after : Supply}

theorem confined_of_change {draft grown : UpdateDraft} {step : UpdateStep}
    (confined : (Object.update draft).Confined table.mint sort)
    (fresh : ∀ index, table.mint.count before ≤ index → index < table.mint.count after →
      sort (table.mint.nth before.randomWord index).token)
    (ran : (step.run draft).run before = .ok grown after) :
    (Object.update grown).Confined table.mint sort := by
  have grew := UpdateStep.grew_of_run ran
  rcases grew.tokens with ⟨issues, drawn, tokens⟩
  rw [confined.mint draft.binder.mint rfl] at drawn
  constructor
  · rw [Object.mint?, grew.binder]
    exact confined.mint
  · intro token member
    rcases List.mem_append.mp (tokens.subset member) with old | new
    · exact confined.tokens token old
    · rcases List.mem_map.mp new with ⟨issue, issued, rfl⟩
      exact drawn.sorted fresh issue issued

theorem confined_of_compile {source : String} {overrides : Dictionary Json}
    (known : ∀ held, objects.get? source = some held → held.Confined table.mint sort)
    (keeps : overrides.get? "ExpressionAttributeValues" = none)
    (ran : ((compile source overrides).run table objects).run before = .ok object after) :
    object.Confined table.mint sort := by
  have named : ∀ (input : Input) (bindings : List (String × AttributeValue)),
      input.attributeValues = Dictionary.ofList bindings →
        (∀ token ∈ bindings.map Prod.fst, sort token) →
          (Object.request (.ofInput input overrides)).Confined table.mint sort := by
    intro input bindings values sorted
    refine ⟨nofun, ?_⟩
    intro token member
    rw [Object.tokens, Request.valueNames_ofInput_of_absent input keeps, values,
      Dictionary.mem_names_ofList] at member
    rcases member with ⟨value, bound⟩
    exact sorted token (List.mem_map_of_mem (f := Prod.fst) bound)
  simp only [run] at ran
  split at ran
  · next draft found =>
      cases ran
      exact named _ _ draft.attributeValues_toInput (known _ found).tokens
  · next draft found =>
      cases ran
      exact named draft.toInput draft.tokenValues rfl (known _ found).tokens
  · cases ran

/-- An action makes objects that have values for tokens of the objects it names and for tokens that
were issued for it. -/
theorem confined_of_run {action : TableAction}
    (known : ∀ source ∈ action.sources, ∀ held, objects.get? source = some held →
      held.Confined table.mint sort)
    (fresh : ∀ index, table.mint.count before ≤ index → index < table.mint.count after →
      sort (table.mint.nth before.randomWord index).token)
    (keeps : action.keepsValues = true)
    (ran : (action.run table objects).run before = .ok object after) :
    object.Confined table.mint sort := by
  cases action with
  | scan | query | update =>
      cases ran
      exact ⟨fun source owns => (Option.some.inj owns).symm, nofun⟩
  | branch source =>
      rcases Draw.run_bind_eq_ok.mp ran with ⟨draft, middle, found, finished⟩
      cases finished
      have confined := known source (List.mem_singleton_self _) _ (of_run_readDraft found).1
      refine ⟨confined.mint, Object.forall_tokens_read.mpr ?_⟩
      cases target : draft.target <;> simp [ReadDraft.branch, ReadDraft.start, target,
        ReadTarget.blank, ReadTarget.entries, Condition.empty]
  | clone source =>
      simp only [run] at ran
      split at ran
      · next held found =>
          cases ran
          exact known source (List.mem_singleton_self _) _ found
      · cases ran
  | step source taken =>
      rcases Draw.run_bind_eq_ok.mp ran with ⟨draft, middle, found, finished⟩
      rcases of_run_readDraft found with ⟨stored, rfl⟩
      rcases Draw.run_map_eq_ok.mp finished with ⟨grown, stepped, rfl⟩
      have confined := known source List.mem_cons_self _ stored
      have drawn := (taken.resolve objects).issues_run draft before
      rw [Draw.supplyAfter_of_ok stepped, confined.mint draft.binder.mint rfl] at drawn
      apply confined.grew ((taken.resolve objects).grew_of_run stepped)
      · intro operand used
        rcases taken.exists_source used with ⟨other, names, incoming, isStored, rfl⟩
        exact (known other (List.mem_cons_of_mem _ names) _ isStored).given
      · exact drawn.sorted fresh
  | group source connective child =>
      rcases Draw.run_bind_eq_ok.mp ran with ⟨draft, middle, found, finished⟩
      rcases of_run_readDraft found with ⟨stored, rfl⟩
      rcases Draw.run_bind_eq_ok.mp finished with ⟨held, middle, childFound, finished⟩
      rcases of_run_readDraft childFound with ⟨childStored, rfl⟩
      cases finished
      have childNamed := List.mem_cons_of_mem source (List.mem_singleton_self child)
      have confined := known source List.mem_cons_self _ stored
      have childConfined := known child childNamed _ childStored
      have nested : (Entry.group connective held.filter.entries).Added
          [.condition held.filter] [] := .nested connective (List.mem_singleton_self _)
      apply confined.grew (ReadDraft.grew_nest nested)
      · intro operand used binding gives
        cases List.mem_singleton.mp used
        exact childConfined.tokens _
          (List.mem_map_of_mem (f := Prod.fst) (List.mem_append_right _ gives))
      · exact List.forall_mem_nil _
  | change source taken =>
      rcases Draw.run_bind_eq_ok.mp ran with ⟨draft, middle, found, finished⟩
      rcases of_run_updateDraft found with ⟨stored, rfl⟩
      rcases Draw.run_map_eq_ok.mp finished with ⟨grown, changed, rfl⟩
      exact confined_of_change (known source (List.mem_singleton_self _) _ stored) fresh changed
  | compile source overrides =>
      exact confined_of_compile (known source (List.mem_singleton_self _))
        (Option.isNone_iff_eq_none.mp keeps) ran

end TableAction

/-! ## Owners -/

/-- Whether a token is that of one of the first numbers of a mint, and the number belongs to a
side. -/
def Mint.IssuedTo (mint : Mint) (owner : Nat → Bool) (count : Nat) (own : Bool) (token : String) :
    Prop :=
  ∃ number ≤ count, owner number = own ∧ token = (mint.numbered number).token

theorem Mint.IssuedTo.side_eq {mint : Mint} {owner : Nat → Bool} {count other : Nat}
    {own side : Bool} {token : String} (first : mint.IssuedTo owner count own token)
    (second : mint.IssuedTo owner other side token) : own = side := by
  rcases first with ⟨number, _, rfl, named⟩
  rcases second with ⟨another, _, rfl, alsoNamed⟩
  rw [Mint.numbered_injective (Placeholder.token_injective (named.symm.trans alsoNamed))]

/-- The owners of numbers after all those above a count were given to a side. -/
def giveAbove (count : Nat) (own : Bool) (owner : Nat → Bool) (number : Nat) : Bool :=
  if number ≤ count then owner number else own

theorem Mint.IssuedTo.giveAbove {mint : Mint} {owner : Nat → Bool} {count later : Nat}
    {own side : Bool} {token : String} (issued : mint.IssuedTo owner count side token)
    (further : count ≤ later) :
    mint.IssuedTo (giveAbove count own owner) later side token := by
  rcases issued with ⟨number, below, owned, named⟩
  refine ⟨number, Nat.le_trans below further, ?_, named⟩
  rw [ItemQuery.giveAbove, if_pos below, owned]

namespace Table

variable {table : Table} {side : String → Bool}

/-- Whether the tokens of all objects were issued to the sides on which the objects are kept. -/
def Owned (table : Table) (side : String → Bool) (owner : Nat → Bool) (workspace : Workspace) :
    Prop :=
  ∀ name object, workspace.objects.get? name = some object →
    object.Confined table.mint
      (table.mint.IssuedTo owner (table.mint.count workspace.supply) (side name))

theorem count_le_perform {workspace later : Workspace} {name : String} {action : TableAction}
    {outcome : Except QueryError Object}
    (performed : workspace.perform name (action.run table workspace.objects) = (outcome, later))
    (mint : Mint) : mint.count workspace.supply ≤ mint.count later.supply := by
  have advanced := workspace.supply_perform name (action.run table workspace.objects)
  rw [performed] at advanced
  rw [advanced]
  exact action.onward_run table workspace.objects workspace.supply mint

/-- After an action the new numbers belong to the side of the action. -/
theorem owned_perform {sequence : Nat} (onSequence : table.mint.source = .sequence sequence)
    {owner : Nat → Bool} {workspace later : Workspace} (owned : table.Owned side owner workspace)
    {name : String} {action : TableAction} {outcome : Except QueryError Object}
    (named : ∀ source ∈ action.sources, side source = side name)
    (keeps : action.keepsValues = true)
    (performed : workspace.perform name (action.run table workspace.objects) = (outcome, later)) :
    table.Owned side (giveAbove (table.mint.count workspace.supply) (side name) owner) later ∧
      ∀ object, outcome = .ok object → object.Confined table.mint
        (table.mint.IssuedTo (giveAbove (table.mint.count workspace.supply) (side name) owner)
          (table.mint.count later.supply) (side name)) := by
  have further := count_le_perform performed table.mint
  have kept : ∀ other object, workspace.objects.get? other = some object →
      object.Confined table.mint
        (table.mint.IssuedTo (giveAbove (table.mint.count workspace.supply) (side name) owner)
          (table.mint.count later.supply) (side other)) := by
    intro other object found
    exact (owned other object found).mono fun token issued => issued.giveAbove further
  cases ran : (action.run table workspace.objects).run workspace.supply with
  | error error after =>
      cases (Workspace.perform_of_error ran).symm.trans performed
      refine ⟨kept, ?_⟩
      intro object made
      cases made
  | ok object after =>
      cases (Workspace.perform_of_ok ran).symm.trans performed
      have confined : object.Confined table.mint
          (table.mint.IssuedTo (giveAbove (table.mint.count workspace.supply) (side name) owner)
            (table.mint.count after) (side name)) := by
        refine TableAction.confined_of_run ?_ ?_ keeps ran
        · intro source used held found
          have heldConfined := kept source held found
          rw [named source used] at heldConfined
          exact heldConfined
        · intro index above below
          refine ⟨index + 1, below, ?_, by rw [Mint.nth_of_sequence onSequence]⟩
          rw [giveAbove, if_neg (by omega)]
      constructor
      · intro other held found
        rw [Dictionary.get?_insert] at found
        split at found
        · next same =>
            cases found
            rw [same]
            exact confined
        · exact kept other held found
      · intro made isMade
        cases isMade
        exact confined

/-- Each number that is drawn in a script belongs to a side, and an object has values only for
tokens that belong to the side on which it is kept. -/
theorem exists_owner {sequence : Nat} (onSequence : table.mint.source = .sequence sequence) :
    ∀ (script : List (String × TableAction)) {workspace : Workspace} {owner : Nat → Bool},
      Apart side script → (∀ step ∈ script, step.2.keepsValues = true) →
      table.Owned side owner workspace →
      ∃ owners : Nat → Bool,
        (∀ number ≤ table.mint.count workspace.supply, owners number = owner number) ∧
        ∀ deed ∈ table.deeds script workspace, ∀ object, deed.2 = .ok object →
          ∃ count, object.Confined table.mint (table.mint.IssuedTo owners count (side deed.1.1))
  | [], _, owner, _, _, _ => ⟨owner, fun _ _ => rfl, List.forall_mem_nil _⟩
  | (name, action) :: rest, workspace, owner, apart, keeps, owned => by
      rw [deeds_cons]
      cases performed : workspace.perform name (action.run table workspace.objects) with
      | mk outcome later =>
          have further := count_le_perform performed table.mint
          rcases owned_perform onSequence owned (apart _ List.mem_cons_self)
            (keeps _ List.mem_cons_self) performed with ⟨ownedLater, confined⟩
          rcases exists_owner onSequence rest
              (fun step inRest => apart step (List.mem_cons_of_mem _ inRest))
              (fun step inRest => keeps step (List.mem_cons_of_mem _ inRest)) ownedLater with
            ⟨owners, agree, laterConfined⟩
          refine ⟨owners, ?_, ?_⟩
          · intro number below
            rw [agree number (Nat.le_trans below further), giveAbove, if_pos below]
          · intro deed member object made
            rcases List.mem_cons.mp member with rfl | inRest
            · refine ⟨table.mint.count later.supply, (confined object made).mono ?_⟩
              rintro token ⟨number, below, owns, named⟩
              exact ⟨number, below, (agree number below).trans owns, named⟩
            · exact laterConfined deed inRest object made

/-- No token of an object on one side is one of an object on the other. -/
theorem tokens_disjoint {sequence : Nat} (onSequence : table.mint.source = .sequence sequence)
    {script : List (String × TableAction)} {supply : Supply} (apart : Apart side script)
    (keeps : ∀ step ∈ script, step.2.keepsValues = true) :
    ∀ first ∈ table.deeds script ⟨.empty, supply⟩, ∀ second ∈ table.deeds script ⟨.empty, supply⟩,
      side first.1.1 ≠ side second.1.1 →
      ∀ object other, first.2 = .ok object → second.2 = .ok other →
        ∀ token ∈ object.tokens, token ∉ other.tokens := by
  have owned : table.Owned side (fun _ => true) ⟨.empty, supply⟩ := by
    intro name object found
    cases found
  rcases exists_owner onSequence script apart keeps owned with ⟨owners, _, confined⟩
  intro first firstDeed second secondDeed different object other made otherMade token member shared
  rcases confined first firstDeed object made with ⟨_, firstConfined⟩
  rcases confined second secondDeed other otherMade with ⟨_, secondConfined⟩
  exact different ((firstConfined.tokens token member).side_eq (secondConfined.tokens token shared))

end Table

end ItemQuery
