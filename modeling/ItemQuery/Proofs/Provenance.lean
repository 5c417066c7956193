import ItemQuery.Proofs.Simulation
import ItemQuery.Proofs.Ledger
import ItemQuery.Proofs.Integrity

/-!
Where the predicates of a run come from.

Every predicate in an object of a run was created by the mint of some object, from the words of that
run, and may have been given another connective since. So what holds of all predicates that these
mints create holds of every predicate in an object, and of those behind its fragments
(`Stage.Reached.sorted_of_contains`).
-/

namespace ItemQuery

/-! ## Sorts of predicates -/

/-- Whether the predicates of an entry are of some sort, those behind fragments left aside. -/
inductive Entry.Made (sort : Predicate → Prop) : Entry → Prop
  | predicate {predicate : Predicate} (sorted : sort predicate) : Made sort (.predicate predicate)
  | group {entries : List Entry} (joined : Connective) (all : ∀ entry ∈ entries, Made sort entry) :
      Made sort (.group joined entries)
  | fragment (captured : Fragment) : Made sort (.fragment captured)

/-- Whether a mint creates a predicate from a supply with given words. -/
def Mint.Creates (mint : Mint) (words : Nat → String) (predicate : Predicate) : Prop :=
  ∃ kind key operand connective before after, before.randomWord = words ∧
    (Predicate.create mint kind key operand connective).run before = .ok predicate after

/-- Whether a sort has all predicates that a mint creates with given words. -/
def Mint.Makes (mint : Mint) (words : Nat → String) (sort : Predicate → Prop) : Prop :=
  ∀ predicate, mint.Creates words predicate → sort predicate

variable {sort : Predicate → Prop}

theorem Entry.Made.withConnective (closed : ∀ predicate joined, sort predicate →
      sort (predicate.withConnective joined)) {entry : Entry} (made : entry.Made sort)
    (joined : Connective) : (entry.withConnective joined).Made sort := by
  cases made with
  | predicate sorted => exact .predicate (closed _ joined sorted)
  | group _ all => exact .group joined all
  | fragment captured => exact .fragment _

theorem Entry.made_group {joined : Connective} {entries : List Entry} :
    (Entry.group joined entries).Made sort ↔ ∀ entry ∈ entries, entry.Made sort := by
  constructor
  · intro made
    cases made with
    | group _ all => exact all
  · exact .group joined

/-! ## Steps -/

/-- An entry beside itself, all of whose predicates are of some sort. -/
def Entry.MadeTwice (sort : Predicate → Prop) (entry twin : Entry) : Prop :=
  twin = entry ∧ entry.Made sort

theorem Entry.madeTwice_iff {entries others : List Entry} :
    List.Forall₂ (Entry.MadeTwice sort) entries others ↔
      others = entries ∧ ∀ entry ∈ entries, entry.Made sort := by
  constructor
  · intro all
    induction all with
    | nil => simp
    | cons first _ induction =>
        rcases first with ⟨rfl, made⟩
        rcases induction with ⟨rfl, allMade⟩
        exact ⟨rfl, List.forall_mem_cons.mpr ⟨made, allMade⟩⟩
  · rintro ⟨rfl, allMade⟩
    exact List.forall₂_same.mpr fun entry member => ⟨rfl, allMade entry member⟩

/-- A draft beside itself, to follow the predicates that it is given. -/
def Mint.making {mint : Mint} {words : Nat → String} (makes : mint.Makes words sort) :
    Simulation where
  mint := mint
  other := mint
  related before other := other = before ∧ before.randomWord = words
  within _ := True
  alike := Entry.MadeTwice sort
  operand taken twin := twin = taken ∧ ∀ entry ∈ taken.filter.entries, entry.Made sort
  parts _ _ := False
  within_of_issues _ _ := trivial
  create := by
    rintro kind key operand connective _ before ⟨rfl, sameWords⟩ _
    have drawn := @Mint.drawsFor_create mint kind key operand connective before
    have kept := drawn.randomWord_eq.trans sameWords
    unfold Draw.supplyAfter at kept
    cases created : (Predicate.create mint kind key operand connective).run before with
    | ok predicate after =>
        rw [created] at kept
        have sorted := makes predicate ⟨_, _, _, _, _, _, sameWords, created⟩
        exact .ok not_false ⟨rfl, .predicate sorted⟩ ⟨rfl, kept⟩
    | error error after =>
        rw [created] at kept
        exact .error not_false ⟨rfl, kept⟩
  group := by
    intro entries others joined all
    rcases Entry.madeTwice_iff.mp all with ⟨rfl, allMade⟩
    exact ⟨rfl, .group joined allMade⟩
  capture := by
    rintro taken _ joined ⟨rfl, _⟩
    exact ⟨rfl, .fragment _⟩
  filter_of_operand := by
    rintro taken _ ⟨rfl, allMade⟩
    exact ⟨rfl, Entry.madeTwice_iff.mpr ⟨rfl, allMade⟩⟩
  collision := by
    rintro draft twin taken _ drafts ⟨rfl, _⟩
    rw [drafts.eq fun entry twin same => same.1]
    exact .inl ⟨not_false, rfl⟩

/-! ## Drafts and calls -/

section

variable (closed : ∀ predicate joined, sort predicate → sort (predicate.withConnective joined))
include closed

theorem Entry.made_closed : Entry.Closed (Entry.Made sort) where
  group _ _ := Entry.made_group
  withConnective _ joined made := made.withConnective closed joined

/-- A draft is paired with itself if its predicates are of the sort that its mint makes. -/
theorem ReadDraft.paired_iff_made {mint : Mint} {words : Nat → String}
    (makes : mint.Makes words sort) {draft : ReadDraft} (ofMint : draft.binder.mint = mint) :
    (Mint.making makes).Paired draft draft ↔ (Object.read draft).All (Entry.Made sort) := by
  rw [Object.all_read (Entry.made_closed closed)]
  constructor
  · intro paired
    refine ⟨?_, (Entry.madeTwice_iff.mp paired.filter.entries).2⟩
    have targets := paired.target
    cases target : draft.target with
    | scan => simp [ReadTarget.entries]
    | query condition forward =>
        rw [target] at targets
        cases targets with
        | query keys _ => exact (Entry.madeTwice_iff.mp keys.entries).2
  · rintro ⟨targets, filters⟩
    exact {
      mint := ofMint
      other := ofMint
      marshaler := rfl
      target := by
        cases target : draft.target with
        | scan => exact .scan
        | query condition forward =>
            rw [target] at targets
            exact .query ⟨rfl, Entry.madeTwice_iff.mpr ⟨rfl, targets⟩⟩ forward
      filter := ⟨rfl, Entry.madeTwice_iff.mpr ⟨rfl, filters⟩⟩
      rest := rfl }

/-- A step adds predicates of the sort that the mint of the draft makes. -/
theorem ReadStep.made_of_run {draft grown : ReadDraft} {words : Nat → String} {step : ReadStep}
    {before after : Supply} (makes : draft.binder.mint.Makes words sort)
    (sameWords : before.randomWord = words)
    (known : ∀ operand ∈ step.operands, operand.All (Entry.Made sort))
    (made : (Object.read draft).All (Entry.Made sort))
    (ran : (step.run draft).run before = .ok grown after) :
    (Object.read grown).All (Entry.Made sort) := by
  have isClosed := Entry.made_closed closed
  have steps : step.Paired (Mint.making makes) step := by
    apply Simulation.paired_self
    · intro taken used
      exact ⟨rfl, ((Object.all_read isClosed).mp (known _ used)).2⟩
    · intro condition used
      have all := (Object.all_condition isClosed).mp (known _ used)
      exact ⟨rfl, Entry.madeTwice_iff.mpr ⟨rfl, all⟩⟩
  have ends := Simulation.lockstep_run_of_together (fun _ _ => not_false) steps
    ((ReadDraft.paired_iff_made closed makes rfl).mpr made) before before ⟨rfl, sameWords⟩ trivial
  rw [ran] at ends
  cases ends with
  | ok _ paired _ =>
      have sameMint : grown.binder.mint = draft.binder.mint := by rw [(step.grew_of_run ran).binder]
      exact (ReadDraft.paired_iff_made closed makes sameMint).mp paired

/-- What the mints of its operands make is all that a call adds. -/
theorem Call.made_of_run {words : Nat → String} {call : Call} {before after : Supply}
    {object : Object} (sameWords : before.randomWord = words)
    (makes : ∀ operand ∈ call.operands, ∀ mint, operand.mint? = some mint → mint.Makes words sort)
    (known : ∀ operand ∈ call.operands, operand.All (Entry.Made sort))
    (ran : call.action.run before = .ok object after) : object.All (Entry.Made sort) := by
  refine all_of_run (Entry.made_closed closed) ?_ (fun _ _ _ _ => .fragment _) ?_ known ran
  · intro binder action predicate middle creates created
    have binderMakes : binder.mint.Makes words sort := by
      apply makes (.binder binder) _ _ rfl
      cases call <;> cases creates <;> simp [operands]
    have named : ∀ kindName key operand connective,
        (binder.named kindName key operand connective).run before = .ok predicate middle →
          sort predicate := by
      intro kindName key operand connective ran
      unfold Binder.named at ran
      split at ran
      · exact binderMakes predicate ⟨_, _, _, _, _, _, sameWords, ran⟩
      · cases ran
    apply Entry.Made.predicate
    cases call <;> cases creates
    · exact binderMakes predicate ⟨_, _, _, _, _, _, sameWords, created⟩
    · exact named _ _ _ _ created
    · exact named _ _ _ _ created
  · rintro draft taken grown middle rfl stepped made
    apply ReadStep.made_of_run closed (makes (.read draft) (by simp [operands]) _ rfl) sameWords _
      made stepped
    intro operand used
    exact known operand (List.mem_cons_of_mem _ used)

end

/-! ## Runs -/

namespace Stage

/-- Whether a sort has all predicates that the mints of a stage create. -/
def Makes (stage : Stage) (sort : Predicate → Prop) : Prop :=
  ∀ object ∈ stage.made, ∀ mint, object.mint? = some mint →
    mint.Makes stage.supply.randomWord sort

theorem Leads.all_made {stage later : Stage} (leads : stage.Leads later)
    (closed : ∀ predicate joined, sort predicate → sort (predicate.withConnective joined))
    (makes : later.Makes sort) (made : ∀ object ∈ stage.made, object.All (Entry.Made sort)) :
    ∀ object ∈ later.made, object.All (Entry.Made sort) := by
  induction leads with
  | refl => exact made
  | @call middle earlier call known induction =>
      have makesBefore : middle.Makes sort := by
        intro object isMade mint owns
        rw [← middle.randomWord_after call]
        exact makes object (middle.made_subset_after call isMade) mint owns
      have allBefore := induction makesBefore
      intro object member
      rcases mem_made_after member with isOld | ran
      · exact allBefore object isOld
      · exact Call.made_of_run closed rfl
          (fun operand used => makesBefore operand (known operand used))
          (fun operand used => allBefore operand (known operand used)) ran

end Stage

theorem Entry.Contains.sorted {made : List Object} {predicate : Predicate} {entry : Entry}
    (contains : entry.Contains made predicate) (isMade : entry.Made sort)
    (allMade : ∀ object ∈ made, object.All (Entry.Made sort)) : sort predicate := by
  induction contains with
  | itself =>
      cases isMade with
      | predicate sorted => exact sorted
  | member inGroup _ induction => exact induction (Entry.made_group.mp isMade _ inGroup)
  | captured joined known present _ induction => exact induction (allMade _ known _ present)

/-- What holds of all predicates that the mints of a run create holds of every predicate that stands
somewhere in an object of the run. -/
theorem Stage.Reached.sorted_of_contains {stage : Stage} (reached : stage.Reached)
    (closed : ∀ predicate joined, sort predicate → sort (predicate.withConnective joined))
    (makes : stage.Makes sort) {object : Object} (isMade : object ∈ stage.made) {entry : Entry}
    (present : entry ∈ object.entries) {predicate : Predicate}
    (contains : entry.Contains stage.made predicate) : sort predicate := by
  rcases reached with ⟨words, leads⟩
  have allMade := leads.all_made closed makes (by simp [start])
  exact contains.sorted (allMade object isMade entry present) allMade

end ItemQuery
