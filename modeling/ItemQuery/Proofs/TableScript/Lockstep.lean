import ItemQuery.Proofs.Renaming.Updates
import ItemQuery.Proofs.TableScript.Frame

/-!
Actions of two tables side by side.

The objects of two workspaces are the same but for their placeholders, and so are those that an
action makes of them, if the mints of the two tables are twins (`TableAction.lockstep_run`). Only
where a filter is embedded from which the twins part does the action fail in one of the runs.

What is said of two runs is said action by action (`DeedsRenamed`). A draft is the renamed one of
the other run, and what it embeds is traced to the drafts of before. A request is compiled of what
is kept under the name that the action gives, in both runs with the overrides of the action.
-/

namespace ItemQuery

/-! ## Outcomes -/

/-- The pairs after an action, if it has made an object in both runs. -/
def Pairs.after (made : Pairs) (name : String) :
    Except QueryError Object → Except QueryError Object → Pairs
  | .ok object, .ok twin => (name, object, twin) :: made
  | _, _ => made

/-- Whether an action came to the same in two runs but for placeholders: it failed with the same
error, or it made drafts that are the same but for their mints and placeholders, or compiled or
copied what is kept under a name in the two runs. -/
inductive OutcomeRenamed (made : Pairs) (naming : Placeholder → Placeholder) (mint other : Mint) :
    TableAction → Except QueryError Object → Except QueryError Object → Prop
  | failed (action : TableAction) (error : QueryError) :
      OutcomeRenamed made naming mint other action (.error error) (.error error)
  | read (action : TableAction) {draft twin : ReadDraft}
      (drafts : draft.Paired (Entry.Renamed made naming) mint other twin) :
      OutcomeRenamed made naming mint other action (.ok (.read draft)) (.ok (.read twin))
  | update (action : TableAction) {draft twin : UpdateDraft}
      (drafts : draft.Renamed made naming mint other twin) :
      OutcomeRenamed made naming mint other action (.ok (.update draft)) (.ok (.update twin))
  | compiled {source : String} (overrides : Dictionary Json) {object twin : Object}
      {input inputTwin : Input} (kept : Dictionary.find? source made = some (object, twin))
      (inputs : Input.Renamed made naming object twin input inputTwin) :
      OutcomeRenamed made naming mint other (.compile source overrides)
        (.ok (.request (.ofInput input overrides))) (.ok (.request (.ofInput inputTwin overrides)))
  | copied {source : String} {object twin : Object}
      (kept : Dictionary.find? source made = some (object, twin)) :
      OutcomeRenamed made naming mint other (.clone source) (.ok object) (.ok twin)

/-- Whether two runs of the same actions came to the same but for placeholders, given what had been
made in both before. -/
inductive DeedsRenamed (naming : Placeholder → Placeholder) (mint other : Mint) :
    Pairs → List Deed → List Deed → Prop
  | nil (made : Pairs) : DeedsRenamed naming mint other made [] []
  | cons {made : Pairs} (name : String) {action : TableAction}
      {outcome twin : Except QueryError Object} {deeds others : List Deed}
      (same : OutcomeRenamed made naming mint other action outcome twin)
      (later : DeedsRenamed naming mint other (made.after name outcome twin) deeds others) :
      DeedsRenamed naming mint other made (((name, action), outcome) :: deeds)
        (((name, action), twin) :: others)

namespace DeedsRenamed

variable {made : Pairs} {naming : Placeholder → Placeholder} {mint other : Mint}
  {deeds others : List Deed}

/-- A script whose first action fails is not gone on with. -/
theorem failed (script : List (String × TableAction)) (error : QueryError) :
    DeedsRenamed naming mint other made (script.zip [.error error])
      (script.zip [.error error]) := by
  cases script with
  | nil => exact .nil made
  | cons step rest =>
      rw [List.zip_cons_cons, List.zip_nil_right]
      exact .cons step.1 (.failed step.2 error) (.nil _)

/-- What was done in the same place of two runs came to the same but for placeholders. -/
theorem exists_outcomeRenamed (renamed : DeedsRenamed naming mint other made deeds others)
    (index : Nat) {deed twin : Deed} (found : deeds[index]? = some deed)
    (alsoFound : others[index]? = some twin) :
    ∃ before, OutcomeRenamed before naming mint other deed.1.2 deed.2 twin.2 := by
  induction renamed generalizing index with
  | nil made => cases found
  | cons name same _ induction =>
      cases index with
      | zero =>
          cases found
          cases alsoFound
          exact ⟨_, same⟩
      | succ index => exact induction index found alsoFound

end DeedsRenamed

/-! ## Objects -/

/-- Whether two objects are drafts that are the same but for their mints and placeholders, or are
both requests. -/
inductive Object.Renamed (made : Pairs) (naming : Placeholder → Placeholder) (mint other : Mint) :
    Object → Object → Prop
  | read {draft twin : ReadDraft}
      (drafts : draft.Paired (Entry.Renamed made naming) mint other twin) :
      Renamed made naming mint other (.read draft) (.read twin)
  | update {draft twin : UpdateDraft} (drafts : draft.Renamed made naming mint other twin) :
      Renamed made naming mint other (.update draft) (.update twin)
  | request (request twin : Request) :
      Renamed made naming mint other (.request request) (.request twin)

/-- Whether the objects under each name are the last ones that were made beside each other under
it, and are renamed. -/
def ObjectsRenamed (made : Pairs) (naming : Placeholder → Placeholder) (mint other : Mint)
    (objects others : Dictionary Object) : Prop :=
  ∀ name, Option.Rel
    (fun object twin => Dictionary.find? name made = some (object, twin) ∧
      object.Renamed made naming mint other twin)
    (objects.get? name) (others.get? name)

/-- Whether two tables differ in nothing that drafts are made of but their mints. -/
structure Table.Beside (mint other : Mint) (first second : Table) : Prop where
  mint : first.mint = mint
  other : second.mint = other
  name : second.name = first.name
  indexName : second.indexName = first.indexName
  marshaler : second.config.marshaler = first.config.marshaler

theorem Dictionary.mem_of_find? {name : String} {value : α} {entries : List (String × α)}
    (found : find? name entries = some value) : (name, value) ∈ entries := by
  induction entries with
  | nil => cases found
  | cons entry rest induction =>
      rw [find?] at found
      split at found
      · next same =>
          cases found
          rw [same]
          exact List.mem_cons_self
      · exact List.mem_cons_of_mem entry (induction found)

section

variable {made more : Pairs} {naming : Placeholder → Placeholder} {mint other : Mint}
  {objects others : Dictionary Object} {table twin : Table}

theorem Object.Renamed.mono {object twin : Object} (moreMade : made ⊆ more)
    (renamed : object.Renamed made naming mint other twin) :
    object.Renamed more naming mint other twin := by
  cases renamed with
  | read drafts => exact .read (drafts.imp (Entry.Renamed.mono moreMade))
  | update drafts => exact .update (drafts.mono moreMade)
  | request request twin => exact .request request twin

namespace ObjectsRenamed

theorem absent_or_found (renamed : ObjectsRenamed made naming mint other objects others)
    (name : String) :
    (objects.get? name = none ∧ others.get? name = none) ∨
      ∃ object twin, objects.get? name = some object ∧ others.get? name = some twin ∧
        Dictionary.find? name made = some (object, twin) ∧
        object.Renamed made naming mint other twin := by
  have same := renamed name
  cases found : objects.get? name <;> cases alsoFound : others.get? name <;>
    rw [found, alsoFound] at same <;> cases same
  case none.none.none => exact .inl ⟨rfl, rfl⟩
  case some.some.some same => exact .inr ⟨_, _, rfl, rfl, same⟩

theorem insert (renamed : ObjectsRenamed made naming mint other objects others) (name : String)
    {object twin : Object} (same : object.Renamed made naming mint other twin) :
    ObjectsRenamed ((name, object, twin) :: made) naming mint other (objects.insert name object)
      (others.insert name twin) := by
  have moreMade := List.subset_cons_self (name, object, twin) made
  intro wanted
  rw [Dictionary.get?_insert, Dictionary.get?_insert, Dictionary.find?]
  split
  · exact .some ⟨rfl, same.mono moreMade⟩
  · rcases renamed.absent_or_found wanted with
      ⟨absent, alsoAbsent⟩ | ⟨held, heldTwin, found, alsoFound, kept, same⟩
    · rw [absent, alsoAbsent]
      exact .none
    · rw [found, alsoFound]
      exact .some ⟨kept, same.mono moreMade⟩

theorem drawFrom (renamed : ObjectsRenamed made naming mint other objects others) :
    DrawFrom mint objects := by
  intro name draft found
  rcases renamed.absent_or_found name with ⟨absent, _⟩ | ⟨object, twin, isObject, _, _, same⟩
  · rw [absent] at found
    cases found
  · rw [isObject] at found
    cases found
    cases same with
    | read drafts => exact drafts.mint

end ObjectsRenamed

namespace Table.Beside

variable (beside : Table.Beside mint other table twin)
include beside

theorem scan : table.scan.Paired (Entry.Renamed made naming) mint other twin.scan where
  mint := beside.mint
  other := beside.other
  marshaler := beside.marshaler
  target := .scan
  filter := ⟨rfl, .nil⟩
  rest := by simp [Table.scan, ReadDraft.scan, ReadDraft.start, beside.name, beside.indexName]

theorem query : table.query.Paired (Entry.Renamed made naming) mint other twin.query where
  mint := beside.mint
  other := beside.other
  marshaler := beside.marshaler
  target := .query ⟨rfl, .nil⟩ none
  filter := ⟨rfl, .nil⟩
  rest := by simp [Table.query, ReadDraft.query, ReadDraft.start, beside.name, beside.indexName]

theorem update : table.update.Renamed made naming mint other twin.update where
  mint := beside.mint
  other := beside.other
  marshaler := beside.marshaler
  assignments := rfl
  condition := ⟨rfl, .nil⟩
  rest := by simp [Table.update, UpdateDraft.start, beside.name]

end Table.Beside

end

/-! ## Actions -/

namespace TableAction

theorem onward_readDraft (objects : Dictionary Object) (name : String) :
    (readDraft objects name).Onward := by
  unfold readDraft
  split
  · exact .pure _
  · exact .throw _

theorem onward_updateDraft (objects : Dictionary Object) (name : String) :
    (updateDraft objects name).Onward := by
  unfold updateDraft
  split
  · exact .pure _
  · exact .throw _

theorem onward_run (table : Table) (objects : Dictionary Object) (action : TableAction) :
    (action.run table objects).Onward := by
  cases action with
  | scan | query | update => exact .pure _
  | branch source => exact (onward_readDraft objects source).bind fun _ => .pure _
  | clone source =>
      simp only [run]
      split
      · exact .pure _
      · exact .throw _
  | step source taken =>
      apply (onward_readDraft objects source).bind
      intro draft before
      rw [Draw.supplyAfter_map]
      exact ((taken.resolve objects).issues_run draft before).count_le
  | group source connective child =>
      exact (onward_readDraft objects source).bind fun draft =>
        (onward_readDraft objects child).bind fun _ => .pure _
  | change source taken =>
      apply (onward_updateDraft objects source).bind
      intro draft before
      rw [Draw.supplyAfter_map]
      exact taken.onward_run draft before
  | compile source overrides =>
      simp only [run]
      split
      · exact .pure _
      · exact .pure _
      · exact .throw _

end TableAction

/-! ## Side by side -/

/-- Whether an action comes upon a filter from which two runs part. -/
def TableAction.Parts (parts : ReadDraft → ReadDraft → Prop) (objects : Dictionary Object)
    (supply : Supply) : TableAction → Prop
  | .step source taken =>
      match objects.get? source with
      | some (.read draft) => (taken.resolve objects).Parts parts draft supply
      | _ => False
  | _ => False

section

variable {twins : Twins} {objects others : Dictionary Object}

namespace TableStep

mutual
theorem paired_resolve
    (renamed : ObjectsRenamed twins.made twins.naming twins.mint twins.other objects others) :
    ∀ step : TableStep, (step.resolve objects).Paired twins.sideBySide (step.resolve others)
  | .verb step isVerb => .same step (ReadStep.standsAlone_of_isVerb isVerb)
  | .embed source joined => by
      unfold resolve
      rcases renamed.absent_or_found source with
        ⟨absent, alsoAbsent⟩ | ⟨object, twin, found, alsoFound, kept, same⟩
      · rw [absent, alsoAbsent]
        exact .same _ rfl
      · rw [found, alsoFound]
        cases same with
        | read drafts => exact .embed joined ⟨drafts, source, Dictionary.mem_of_find? kept⟩
        | update | request => exact .same _ rfl
  | .group joined steps => .group joined (scriptPaired_resolveAll renamed steps)

theorem scriptPaired_resolveAll
    (renamed : ObjectsRenamed twins.made twins.naming twins.mint twins.other objects others) :
    ∀ steps : List TableStep, ScriptPaired twins.sideBySide (resolveAll objects steps)
      (resolveAll others steps)
  | [] => .nil
  | step :: rest => .cons (paired_resolve renamed step) (scriptPaired_resolveAll renamed rest)
end

end TableStep

namespace TableAction

/-- Whether two objects are what an action makes in two runs that are the same but for
placeholders. -/
def MadeRenamed (action : TableAction) (made : Pairs) (naming : Placeholder → Placeholder)
    (mint other : Mint) (object twin : Object) : Prop :=
  OutcomeRenamed made naming mint other action (.ok object) (.ok twin) ∧
    object.Renamed made naming mint other twin

theorem madeRenamed_read (action : TableAction) {made : Pairs}
    {naming : Placeholder → Placeholder} {mint other : Mint} {draft twin : ReadDraft}
    (drafts : draft.Paired (Entry.Renamed made naming) mint other twin) :
    action.MadeRenamed made naming mint other (.read draft) (.read twin) :=
  ⟨.read action drafts, .read drafts⟩

theorem madeRenamed_update (action : TableAction) {made : Pairs}
    {naming : Placeholder → Placeholder} {mint other : Mint} {draft twin : UpdateDraft}
    (drafts : draft.Renamed made naming mint other twin) :
    action.MadeRenamed made naming mint other (.update draft) (.update twin) :=
  ⟨.update action drafts, .update drafts⟩

/-- Whether two computations of an action are in lockstep. -/
def Lockstep (twins : Twins) (action : TableAction) (parts : Supply → Prop) :
    Draw Object → Draw Object → Prop :=
  twins.Lockstep parts (action.MadeRenamed twins.made twins.naming twins.mint twins.other)

variable (renamed : ObjectsRenamed twins.made twins.naming twins.mint twins.other objects others)
include renamed

theorem lockstep_readDraft (name : String) :
    twins.Lockstep Draw.Never
      (ReadDraft.Paired (Entry.Renamed twins.made twins.naming) twins.mint twins.other)
      (readDraft objects name) (readDraft others name) := by
  unfold readDraft
  rcases renamed.absent_or_found name with
    ⟨absent, alsoAbsent⟩ | ⟨object, twin, found, alsoFound, _, same⟩
  · rw [absent, alsoAbsent]
    exact .throw .malformed
  · rw [found, alsoFound]
    cases same with
    | read drafts => exact .pure drafts
    | update | request => exact .throw .malformed

theorem lockstep_clone (table twin : Table) (source : String) :
    Lockstep twins (clone source) Draw.Never ((clone source).run table objects)
      ((clone source).run twin others) := by
  rcases renamed.absent_or_found source with
    ⟨absent, alsoAbsent⟩ | ⟨object, copy, found, alsoFound, kept, same⟩
  · simp only [run, absent, alsoAbsent]
    exact .throw .malformed
  · simp only [run, found, alsoFound]
    exact .pure ⟨.copied kept, same⟩

/-- What is compiled of drafts that are the same but for placeholders are inputs of this kind, and
the same fields are replaced in both. -/
theorem lockstep_compile (table twin : Table) (source : String) (overrides : Dictionary Json) :
    Lockstep twins (compile source overrides) Draw.Never
      ((compile source overrides).run table objects)
      ((compile source overrides).run twin others) := by
  rcases renamed.absent_or_found source with
    ⟨absent, alsoAbsent⟩ | ⟨object, held, found, alsoFound, kept, same⟩
  · simp only [run, absent, alsoAbsent]
    exact .throw .malformed
  · simp only [run, found, alsoFound]
    cases same with
    | request => exact .throw .malformed
    | read drafts =>
        have inputs := drafts.renamed_toInput twins.injective
        exact .pure ⟨.compiled overrides kept inputs, .request _ _⟩
    | update drafts =>
        have inputs := drafts.toInput twins.injective
        exact .pure ⟨.compiled overrides kept inputs, .request _ _⟩

theorem lockstep_change (table twin : Table) (source : String) (taken : UpdateStep) :
    Lockstep twins (change source taken) Draw.Never ((change source taken).run table objects)
      ((change source taken).run twin others) := by
  rcases renamed.absent_or_found source with
    ⟨absent, alsoAbsent⟩ | ⟨object, held, found, alsoFound, _, same⟩
  · simp only [run, updateDraft, absent, alsoAbsent]
    exact .throw .malformed
  · simp only [run, updateDraft, found, alsoFound]
    cases same with
    | read | request => exact .throw .malformed
    | update drafts =>
        exact (drafts.lockstep_run taken).map fun _ _ changed => madeRenamed_update _ changed

theorem lockstep_step (table twin : Table) (source : String) (taken : TableStep) :
    Lockstep twins (step source taken)
      (fun supply => (step source taken).Parts twins.parts objects supply)
      ((step source taken).run table objects) ((step source taken).run twin others) := by
  rcases renamed.absent_or_found source with
    ⟨absent, alsoAbsent⟩ | ⟨object, held, found, alsoFound, _, same⟩
  · simp only [run, readDraft, Parts, absent, alsoAbsent]
    exact .throw .malformed
  · simp only [run, readDraft, Parts, found, alsoFound]
    cases same with
    | update | request => exact .throw .malformed
    | read drafts =>
        have steps := taken.paired_resolve renamed
        exact (Simulation.lockstep_run steps drafts).map fun _ _ grown => madeRenamed_read _ grown

theorem lockstep_group (table twin : Table) (source child : String) (connective : Connective) :
    Lockstep twins (group source connective child) Draw.Never
      ((group source connective child).run table objects)
      ((group source connective child).run twin others) := by
  apply (lockstep_readDraft renamed source).bind_never
  · intro start held middle _ bounded
    exact twins.within_of_onward ((onward_readDraft others child).bind fun _ => .pure _) bounded
  · intro draft held drafts
    simp only [ReadDraft.group, map_pure, bind_pure_comp]
    apply (lockstep_readDraft renamed child).map
    intro taken twin children
    exact madeRenamed_read _ (twins.sideBySide.paired_nest drafts children.filter connective)

/-- An action does the same in both runs, or it takes in a filter from which they part. -/
theorem lockstep_run {table twin : Table} (beside : Table.Beside twins.mint twins.other table twin)
    (action : TableAction) :
    Lockstep twins action (fun supply => action.Parts twins.parts objects supply)
      (action.run table objects) (action.run twin others) := by
  cases action with
  | scan => exact .pure (madeRenamed_read _ beside.scan)
  | query => exact .pure (madeRenamed_read _ beside.query)
  | update => exact .pure (madeRenamed_update _ beside.update)
  | branch source =>
      simp only [run, bind_pure_comp]
      apply (lockstep_readDraft renamed source).map
      exact fun _ _ drafts => madeRenamed_read _ drafts.branch
  | clone source => exact lockstep_clone renamed table twin source
  | step source taken => exact lockstep_step renamed table twin source taken
  | group source connective child =>
      exact lockstep_group renamed table twin source child connective
  | change source taken => exact lockstep_change renamed table twin source taken
  | compile source overrides => exact lockstep_compile renamed table twin source overrides

end TableAction

end

end ItemQuery
