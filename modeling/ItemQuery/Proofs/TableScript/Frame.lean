import ItemQuery.Proofs.TableScript

/-!
What an action reads.

An action depends on no objects but those that it names (`TableAction.run_congr`). So where the
objects of a workspace are on two sides, and every action names only objects of the side on which
its result is kept, the actions of one side never read what those of the other have made
(`Workspace.run_onSide`).
-/

namespace ItemQuery

theorem Dictionary.get?_filter {α : Type u} (keep : String → α → Bool) (dictionary : Dictionary α)
    (name : String) :
    (dictionary.filter keep).get? name = (dictionary.get? name).filter (keep name) := by
  apply Option.ext
  intro value
  rw [get?_eq_some_iff, Option.filter_eq_some_iff, get?_eq_some_iff]
  exact List.mem_filter

/-! ## Names -/

mutual
/-- The names of the drafts that a step takes in. -/
def TableStep.sources : TableStep → List String
  | .verb _ _ => []
  | .embed other _ => [other]
  | .group _ steps => sourcesOfAll steps

def TableStep.sourcesOfAll : List TableStep → List String
  | [] => []
  | step :: rest => step.sources ++ sourcesOfAll rest
end

/-- The names of the objects that an action reads. -/
def TableAction.sources : TableAction → List String
  | .scan | .query | .update => []
  | .branch source | .clone source | .change source _ | .compile source _ => [source]
  | .step source taken => source :: taken.sources
  | .group source _ child => [source, child]

variable {objects others : Dictionary Object}

namespace TableStep

mutual
theorem resolve_congr : ∀ step : TableStep,
    (∀ source ∈ step.sources, others.get? source = objects.get? source) →
      step.resolve others = step.resolve objects
  | .verb _ _, _ => rfl
  | .embed other connective, same => by
      rw [resolve, resolve, same other (List.mem_singleton_self other)]
  | .group connective steps, same => by
      rw [resolve, resolve, resolveAll_congr steps same]

theorem resolveAll_congr : ∀ steps : List TableStep,
    (∀ source ∈ sourcesOfAll steps, others.get? source = objects.get? source) →
      resolveAll others steps = resolveAll objects steps
  | [], _ => rfl
  | step :: rest, same => by
      rw [resolveAll, resolveAll,
        resolve_congr step fun source named => same source (List.mem_append_left _ named),
        resolveAll_congr rest fun source named => same source (List.mem_append_right _ named)]
end

mutual
/-- What a step takes in is kept under the names that it has for it. -/
theorem exists_source : ∀ (step : TableStep) {operand : Object},
    operand ∈ (step.resolve objects).operands →
      ∃ source ∈ step.sources, ∃ draft, objects.get? source = some operand ∧ operand = .read draft
  | .verb step isVerb, operand, used => by
      cases step with
      | embed | nest | group | fail => cases isVerb
      | _ => cases used
  | .embed other connective, operand, used => by
      unfold resolve at used
      split at used
      · next draft found =>
          cases List.mem_singleton.mp used
          exact ⟨other, List.mem_singleton_self other, draft, found, rfl⟩
      · cases used
  | .group _ steps, _, used => exists_source_of_all steps used

theorem exists_source_of_all : ∀ (steps : List TableStep) {operand : Object},
    operand ∈ scriptOperands (resolveAll objects steps) →
      ∃ source ∈ sourcesOfAll steps, ∃ draft,
        objects.get? source = some operand ∧ operand = .read draft
  | [], _, used => by cases used
  | step :: rest, _, used => by
      rcases List.mem_append.mp used with first | later
      · rcases exists_source step first with ⟨source, named, found⟩
        exact ⟨source, List.mem_append_left _ named, found⟩
      · rcases exists_source_of_all rest later with ⟨source, named, found⟩
        exact ⟨source, List.mem_append_right _ named, found⟩
end

end TableStep

/-- An action does the same wherever the objects that it names are the same. -/
theorem TableAction.run_congr (table : Table) {action : TableAction}
    (same : ∀ source ∈ action.sources, others.get? source = objects.get? source) :
    action.run table others = action.run table objects := by
  cases action with
  | scan | query | update => rfl
  | branch source | clone source | change source | compile source =>
      have found := same source (List.mem_singleton_self source)
      simp only [run, readDraft, updateDraft, found]
  | step source taken =>
      have found := same source List.mem_cons_self
      have resolved := taken.resolve_congr fun other named =>
        same other (List.mem_cons_of_mem _ named)
      simp only [run, readDraft, found, resolved]
  | group source connective child =>
      have found := same source List.mem_cons_self
      have childFound := same child (List.mem_cons_of_mem _ (List.mem_singleton_self child))
      simp only [run, readDraft, found, childFound]

/-! ## Deeds -/

/-- An action with the name that its result is kept under, and what came of it. -/
abbrev Deed := (String × TableAction) × Except QueryError Object

/-- What came of each action of a script. -/
def Table.deeds (table : Table) (script : List (String × TableAction)) (workspace : Workspace) :
    List Deed :=
  script.zip (table.performAll script workspace).1

@[simp] theorem Table.deeds_cons (table : Table) (name : String) (action : TableAction)
    (rest : List (String × TableAction)) (workspace : Workspace) :
    table.deeds ((name, action) :: rest) workspace =
      ((name, action), (workspace.perform name (action.run table workspace.objects)).1) ::
        table.deeds rest (workspace.perform name (action.run table workspace.objects)).2 := rfl

/-! ## Sides -/

/-- Whether every action of a script names only objects of the side on which its result is kept. -/
def Apart (side : String → Bool) (script : List (String × TableAction)) : Prop :=
  ∀ step ∈ script, ∀ source ∈ step.2.sources, side source = side step.1

instance (side : String → Bool) (script : List (String × TableAction)) :
    Decidable (Apart side script) :=
  inferInstanceAs (Decidable (∀ step ∈ script, ∀ source ∈ step.2.sources, _))

namespace Workspace

/-- The objects of a workspace that are on one of its sides. -/
def onSide (workspace : Workspace) (side : String → Bool) (own : Bool) : Dictionary Object :=
  workspace.objects.filter fun name _ => side name = own

variable {workspace : Workspace} {side : String → Bool} {name : String}

theorem get?_onSide (own : Bool) :
    (workspace.onSide side own).get? name =
      if side name = own then workspace.objects.get? name else none := by
  rw [onSide, Dictionary.get?_filter]
  cases workspace.objects.get? name with
  | none => simp
  | some object => by_cases same : side name = own <;> simp [same]

/-- An action finds all that it names on its own side. -/
theorem run_onSide (table : Table) {action : TableAction}
    (named : ∀ source ∈ action.sources, side source = side name) :
    action.run table (workspace.onSide side (side name)) = action.run table workspace.objects := by
  apply TableAction.run_congr
  intro source used
  rw [get?_onSide, if_pos (named source used)]

theorem onSide_insert (object : Object) (supply : Supply) :
    onSide ⟨workspace.objects.insert name object, supply⟩ side (side name) =
      (workspace.onSide side (side name)).insert name object := by
  apply Dictionary.ext_get?
  intro wanted
  rw [get?_onSide, Dictionary.get?_insert, Dictionary.get?_insert, get?_onSide]
  by_cases same : wanted = name
  · rw [if_pos same, if_pos same, if_pos (congrArg side same)]
  · rw [if_neg same, if_neg same]

theorem onSide_insert_of_ne {own : Bool} (other : side name ≠ own) (object : Object)
    (supply : Supply) :
    onSide ⟨workspace.objects.insert name object, supply⟩ side own = workspace.onSide side own := by
  apply Dictionary.ext_get?
  intro wanted
  rw [get?_onSide, Dictionary.get?_insert, get?_onSide]
  by_cases same : wanted = name
  · rw [same, if_neg other, if_neg other]
  · rw [if_neg same]

end Workspace

end ItemQuery
