import ItemQuery.Proofs.Entries

/-!
Accounts: where the bindings of an object come from.

An entry is accounted for by a log and the objects that were made when each value in it was drawn
for its token and each fragment was captured from an entry of one of the objects, which is itself
accounted for. Calls on accounted objects make accounted objects (`Call.accounted_of_run`).
-/

namespace ItemQuery

/-! ## Entries -/

/-- An entry is accounted for when its predicates bind what was drawn, and its fragments were
captured from entries of objects that were made. -/
inductive Entry.Accounted (made : List Object) (issues : List Issue) : Entry → Prop
  | predicate {predicate : Predicate}
      (bound : ∀ binding ∈ predicate.tokenValues, Drawn issues binding) :
      Accounted made issues (.predicate predicate)
  | group {entries : List Entry} (joined : Connective)
      (all : ∀ entry ∈ entries, Accounted made issues entry) :
      Accounted made issues (.group joined entries)
  | captured {object : Object} {source : Entry} (joined : Connective) (known : object ∈ made)
      (present : source ∈ object.entries) (accounted : Accounted made issues source) :
      Accounted made issues (.fragment (source.capture joined))

namespace Entry.Accounted

variable {made more : List Object} {issues others : List Issue} {entry : Entry}

theorem mono (accounted : entry.Accounted made issues) (moreMade : made ⊆ more)
    (moreIssues : issues ⊆ others) : entry.Accounted more others := by
  induction accounted with
  | predicate bound =>
      apply Entry.Accounted.predicate
      intro binding member
      exact (bound binding member).mono moreIssues
  | group joined _ induction => exact .group joined induction
  | captured joined known present _ induction =>
      exact .captured joined (moreMade known) present induction

theorem withConnective (accounted : entry.Accounted made issues) (joined : Connective) :
    (entry.withConnective joined).Accounted made issues := by
  cases accounted with
  | predicate bound => exact .predicate bound
  | group _ all => exact .group joined all
  | captured _ known present accounted => exact .captured joined known present accounted

theorem of_mem {joined : Connective} {entries : List Entry}
    (accounted : (Entry.group joined entries).Accounted made issues) :
    ∀ entry ∈ entries, entry.Accounted made issues := by
  cases accounted with
  | group _ all => exact all

theorem drawn (accounted : entry.Accounted made issues) :
    ∀ binding ∈ entry.tokenValues, Drawn issues binding := by
  induction accounted with
  | predicate bound => exact bound
  | group joined _ induction =>
      intro binding member
      rcases Entry.mem_tokenValues_group.mp member with ⟨entry, inGroup, binds⟩
      exact induction entry inGroup binding binds
  | captured joined _ _ _ induction =>
      intro binding member
      apply induction
      exact Entry.mem_tokenValues_of_capture member

theorem closed : Entry.Closed (Entry.Accounted made issues) where
  group _ _ := ⟨of_mem, .group _⟩
  withConnective _ joined accounted := accounted.withConnective joined

end Entry.Accounted

/-! ## Objects -/

def Object.Accounted (made : List Object) (issues : List Issue) (object : Object) : Prop :=
  ∀ entry ∈ object.entries, entry.Accounted made issues

namespace Object

variable {made more : List Object} {issues others : List Issue} {condition : Condition}
  {draft grown : ReadDraft}

theorem Accounted.mono {object : Object} (accounted : object.Accounted made issues)
    (moreMade : made ⊆ more) (moreIssues : issues ⊆ others) : object.Accounted more others :=
  fun entry member => (accounted entry member).mono moreMade moreIssues

theorem accounted_condition :
    (Object.condition condition).Accounted made issues ↔
      ∀ entry ∈ condition.entries, entry.Accounted made issues :=
  all_condition Entry.Accounted.closed

theorem accounted_read :
    (Object.read draft).Accounted made issues ↔
      (∀ entry ∈ draft.target.entries, entry.Accounted made issues) ∧
        ∀ entry ∈ draft.filter.entries, entry.Accounted made issues :=
  all_read Entry.Accounted.closed

end Object

namespace Entry.Added

theorem accounted {operands made : List Object} {issues : List Issue} {entry : Entry}
    (added : entry.Added operands issues)
    (known : ∀ operand ∈ operands, operand ∈ made ∧ operand.Accounted made issues) :
    entry.Accounted made issues := by
  induction added with
  | drawn bound => exact .predicate bound
  | @embedded other joined taken =>
      rcases known _ taken with ⟨isMade, accounted⟩
      have isEntry : other.filter.toEntry ∈ (Object.read other).entries := by
        cases target : other.target <;> simp [Object.entries, target]
      exact .captured joined isMade isEntry (accounted _ isEntry)
  | nested joined taken =>
      apply Entry.Accounted.group
      exact Object.accounted_condition.mp (known _ taken).2
  | grouped joined _ induction => exact .group joined induction

end Entry.Added

namespace Object

variable {made : List Object} {issues others : List Issue} {draft grown : ReadDraft}

theorem Accounted.of_grew {operands : List Object}
    (accounted : (Object.read draft).Accounted made issues)
    (grew : draft.Grew operands others grown) (drawn : others ⊆ issues)
    (known : ∀ operand ∈ operands, operand ∈ made ∧ operand.Accounted made issues) :
    (Object.read grown).Accounted made issues := by
  rw [accounted_read] at accounted ⊢
  constructor
  · intro entry member
    rcases grew.target.mem entry member with old | added
    · exact accounted.1 entry old
    · exact (added.mono (List.Subset.refl []) drawn).accounted (by simp)
  · intro entry member
    rcases grew.filter.mem entry member with old | added
    · exact accounted.2 entry old
    · exact (added.mono (List.Subset.refl operands) drawn).accounted known

theorem tokenValues_read (draft : ReadDraft) :
    (Object.read draft).entries.flatMap Entry.tokenValues =
      draft.target.tokenValues ++ draft.filter.tokenValues := by
  cases target : draft.target <;> simp [entries, target, ReadTarget.tokenValues,
    Condition.tokenValues]

theorem Accounted.drawn_boundValues {draft : ReadDraft}
    (accounted : (Object.read draft).Accounted made issues) {token : String}
    {value : AttributeValue} (found : draft.boundValues.get? token = some value) :
    Drawn issues (token, value) := by
  have bound := Dictionary.mem_of_get?_ofList found
  rw [← tokenValues_read] at bound
  rcases List.mem_flatMap.mp bound with ⟨entry, present, binds⟩
  exact (accounted entry present).drawn _ binds

theorem Accounted.drawn_filter {draft : ReadDraft}
    (accounted : (Object.read draft).Accounted made issues) {token : String}
    {value : AttributeValue} (found : draft.filter.bindings.get? token = some value) :
    Drawn issues (token, value) := by
  have entries := accounted_condition.mpr (accounted_read.mp accounted).2
  apply (entries _ (List.mem_singleton_self _)).drawn
  exact Entry.get?_bindings_eq_some found

end Object

/-! ## Calls -/

namespace Call

variable {made : List Object} {issues : List Issue}

theorem issues_of_creates? {call : Call} {binder : Binder} {action : Draw Predicate}
    (creates : call.creates? = some (binder, action)) (before : Supply) :
    call.issues before = binder.mint.issuesOfRun action before := by
  cases call <;> cases creates <;> rfl

/-- A call on accounted objects makes an accounted object. -/
theorem accounted_of_run {call : Call} {before after : Supply} {object : Object}
    (known : ∀ operand ∈ call.operands, operand ∈ made ∧ operand.Accounted made issues)
    (drawn : call.issues before ⊆ issues)
    (ran : call.action.run before = .ok object after) : object.Accounted made issues := by
  refine all_of_run Entry.Accounted.closed ?_ ?_ ?_ (fun operand used => (known operand used).2) ran
  · intro binder action predicate middle creates created
    rw [issues_of_creates? creates, Mint.issuesOfRun_of_ok created] at drawn
    exact .predicate fun binding binds => (Mint.drawn_issuesOf predicate binding binds).mono drawn
  · intro source joined used accounted
    have present : source ∈ (Object.ofEntry source).entries := by
      cases source <;> simp [Object.ofEntry, Object.entries, Condition.toEntry]
    exact .captured joined (known _ used).1 present accounted
  · rintro draft taken grown middle rfl stepped accounted
    apply Object.Accounted.of_grew accounted (taken.grew_of_run stepped) drawn
    intro operand used
    apply known
    exact List.mem_cons_of_mem _ used

end Call

end ItemQuery
