import ItemQuery.Proofs.Simulation
import ItemQuery.Proofs.Integrity
import ItemQuery.Proofs.Embedding

/-!
Captured entries.

A fragment is text and bindings only, but nothing that is made of entries can tell it from the group
that it was captured from. Neither can a draft, whatever is done to it afterwards. So what a script
makes of a branch may go into the draft as a group or be embedded as a fragment; the requests are
the same.
-/

namespace ItemQuery

/-! ## Entries that cannot be told apart -/

/-- Whether two entries have the same connective, the same text and the same bindings. -/
structure Entry.Alike (first second : Entry) : Prop where
  connective : second.connective = first.connective
  render : second.render = first.render
  bindings : second.bindings = first.bindings

namespace Entry.Alike

variable {first second : Entry}

theorem refl (entry : Entry) : entry.Alike entry := ⟨rfl, rfl, rfl⟩

theorem all_refl (entries : List Entry) : List.Forall₂ Entry.Alike entries entries :=
  List.forall₂_same.mpr fun entry _ => refl entry

theorem renderRest {entries others : List Entry} (all : List.Forall₂ Entry.Alike entries others) :
    Entry.renderRest others = Entry.renderRest entries := by
  induction all with
  | nil => rfl
  | cons same _ induction =>
      rw [Entry.renderRest, Entry.renderRest, same.connective, same.render, induction]

theorem bindings_flatMap {entries others : List Entry}
    (all : List.Forall₂ Entry.Alike entries others) :
    Dictionary.ofList (others.flatMap Entry.tokenValues) =
      Dictionary.ofList (entries.flatMap Entry.tokenValues) := by
  induction all with
  | nil => rfl
  | cons same _ induction =>
      rw [List.flatMap_cons, List.flatMap_cons]
      exact Dictionary.ofList_append_congr same.bindings induction

theorem group {entries others : List Entry} (joined : Connective)
    (all : List.Forall₂ Entry.Alike entries others) :
    (Entry.group joined entries).Alike (.group joined others) where
  connective := rfl
  render := by
    cases all with
    | nil => rfl
    | cons same rest =>
        simp only [Entry.render, Entry.renderAll]
        rw [same.render, renderRest rest]
  bindings := by
    simp only [Entry.bindings, Entry.tokenValues, Entry.tokenValuesOfAll_eq_flatMap]
    exact bindings_flatMap all

theorem capture (joined : Connective) (same : first.Alike second) :
    (Entry.fragment (first.capture joined)).Alike (.fragment (second.capture joined)) := by
  unfold Entry.capture
  rw [same.render, same.bindings]
  exact refl _

/-- An entry and what is captured of it. -/
theorem captured (entry : Entry) : entry.Alike (.fragment (entry.capture entry.connective)) where
  connective := rfl
  render := rfl
  bindings := Dictionary.ofList_entries entry.bindings

end Entry.Alike

/-! ## Contexts -/

/-- An entry with a hole in it, at any depth of its groups and of what fragments are captured
from. -/
inductive Entry.Context
  | hole
  | group (joined : Connective) (earlier : List Entry) (inner : Context) (later : List Entry)
  | captured (joined : Connective) (inner : Context)

def Entry.Context.fill : Entry.Context → Entry → Entry
  | .hole, entry => entry
  | .group joined earlier inner later, entry =>
      .group joined (earlier ++ inner.fill entry :: later)
  | .captured joined inner, entry => .fragment ((inner.fill entry).capture joined)

theorem Entry.Alike.fill {first second : Entry} (same : first.Alike second)
    (context : Entry.Context) : (context.fill first).Alike (context.fill second) := by
  induction context with
  | hole => exact same
  | group joined earlier inner later induction =>
      apply Entry.Alike.group
      exact List.rel_append (all_refl earlier) (.cons induction (all_refl later))
  | captured joined inner induction => exact induction.capture joined

/-! ## Drafts that cannot be told apart -/

theorem Draw.Lockstep.refl {alike : α → α → Prop} (same : ∀ value, alike value value)
    (action : Draw α) :
    Draw.Lockstep Eq (fun _ => True) Draw.Never alike action action := by
  rintro before _ rfl _
  cases action.run before with
  | ok value after => exact .ok not_false (same value) rfl
  | error error after => exact .error not_false rfl

namespace ReadDraft

/-- Whether two drafts of one mint differ at most in entries that cannot be told apart. -/
def Alike (mint : Mint) : ReadDraft → ReadDraft → Prop := Paired Entry.Alike mint mint

namespace Alike

variable {mint : Mint} {first second : ReadDraft}

theorem render?_eq {first second : Condition} (paired : first.Paired Entry.Alike second) :
    second.render? = first.render? := by
  unfold Condition.render? Condition.render Condition.toEntry
  rw [paired.isEmpty, paired.connective, (Entry.Alike.group _ paired.entries).render]

theorem tokenValues_eq {first second : Condition} (paired : first.Paired Entry.Alike second) :
    Dictionary.ofList second.tokenValues = Dictionary.ofList first.tokenValues := by
  rw [Condition.tokenValues_eq, Condition.tokenValues_eq]
  exact Entry.Alike.bindings_flatMap paired.entries

theorem targetValues_eq {first second : ReadTarget} (paired : first.Paired Entry.Alike second) :
    Dictionary.ofList second.tokenValues = Dictionary.ofList first.tokenValues := by
  cases paired with
  | scan => rfl
  | query keys forward => exact tokenValues_eq keys

theorem boundValues_eq (alike : first.Alike mint second) : second.boundValues = first.boundValues :=
  Dictionary.ofList_append_congr (targetValues_eq alike.target) (tokenValues_eq alike.filter)

theorem toInput_eq (alike : first.Alike mint second) : second.toInput = first.toInput := by
  have sameValues := alike.boundValues_eq
  have sameText := render?_eq alike.filter
  have sameBindings : second.filter.bindings = first.filter.bindings := tokenValues_eq alike.filter
  have rest := alike.rest
  have targets := alike.target
  rcases first with ⟨_, _, _, target⟩
  rcases second with ⟨_, _, _, other⟩
  cases rest
  cases targets with
  | scan =>
      simp only [ReadDraft.toInput, ReadDraft.toScanInput]
      rw [sameText, sameBindings]
  | query keys forward =>
      simp only [ReadDraft.toInput, ReadDraft.toQueryInput]
      rw [sameText, sameValues, render?_eq keys]

theorem collision?_eq (alike : first.Alike mint second) (taken : ReadDraft) :
    second.collision? taken = first.collision? taken := by
  unfold ReadDraft.collision?
  rw [alike.boundValues_eq, alike.mint, alike.other]

end Alike

/-- Drafts that cannot be told apart, run side by side from the same supply. -/
def capturing (mint : Mint) : Simulation where
  mint := mint
  other := mint
  related := Eq
  within := fun _ => True
  alike := Entry.Alike
  operand := Eq
  parts := fun _ _ => False
  within_of_issues := fun _ _ => trivial
  create := fun _ _ _ _ => .refl (fun _ => .refl _) _
  group := .group
  capture := by
    rintro taken _ joined rfl
    exact .refl _
  filter_of_operand := by
    rintro taken _ rfl
    exact ⟨rfl, Entry.Alike.all_refl _⟩
  collision := by
    rintro draft twin taken _ alike rfl
    exact .inl ⟨not_false, Alike.collision?_eq alike taken⟩

theorem scriptPaired_capturing (mint : Mint) (steps : List ReadStep) :
    ScriptPaired (capturing mint) steps steps :=
  Simulation.scriptPaired_self _ steps (fun _ _ => rfl)
    fun _ _ => ⟨rfl, Entry.Alike.all_refl _⟩

end ReadDraft

/-- Whatever a script does to drafts that cannot be told apart, it ends with the same request. -/
theorem ReadDraft.Alike.toInput_runScript {mint : Mint} {first second : ReadDraft}
    (alike : first.Alike mint second) (script : List ReadStep) (before : Supply) :
    (ReadDraft.toInput <$> runScript script second).run before =
      (ReadDraft.toInput <$> runScript script first).run before := by
  have ends := Simulation.lockstep_runScript_of_together (fun _ _ => not_false)
    (scriptPaired_capturing mint script) alike before before rfl trivial
  rw [Draw.run_map, Draw.run_map]
  cases ran : (runScript script first).run before <;>
    cases other : (runScript script second).run before <;> rw [ran, other] at ends <;> cases ends
  case ok.ok.ok _ same supplies =>
    cases supplies
    exact congrArg (EStateM.Result.ok · _) (Alike.toInput_eq same)
  case error.error.error _ supplies => cases supplies; rfl
  all_goals exact absurd ‹_› not_false

/-! ## Groups and fragments -/

namespace ReadDraft

theorem alike_refl (draft : ReadDraft) : draft.Alike draft.binder.mint draft where
  mint := rfl
  other := rfl
  marshaler := rfl
  target := by
    cases draft.target with
    | scan => exact .scan
    | query keys forward => exact .query ⟨rfl, Entry.Alike.all_refl _⟩ forward
  filter := ⟨rfl, Entry.Alike.all_refl _⟩
  rest := rfl

/-- The filter of a draft of the same sequence can be embedded, and then cannot be told from a
group. -/
theorem exists_embed_alike_nest {draft child : ReadDraft} {sequence : Nat}
    (onSequence : draft.binder.mint.source = .sequence sequence)
    (sameMint : child.binder.mint = draft.binder.mint) (connective : Connective) :
    ∃ grown, draft.embed child connective = .ok grown ∧
      (draft.nest connective child.filter).Alike draft.binder.mint grown := by
  have shares : draft.binder.mint.sharesSequence child.binder.mint = true := by
    rw [sameMint]
    exact Mint.sharesSequence_self onSequence
  rcases exists_embed_of_sharesSequence shares connective with ⟨grown, embedded⟩
  refine ⟨grown, embedded, ?_⟩
  rcases of_embed embedded with ⟨isEmpty, rfl⟩ | ⟨nonempty, _, rfl⟩
  · rw [nest, if_pos isEmpty]
    exact alike_refl grown
  · rw [nest, if_neg (by simp [nonempty])]
    exact draft.alike_refl.push (Entry.Alike.captured (.group connective child.filter.entries))

end ReadDraft

/-- In no context can a captured condition be told from the condition itself; and where a draft
draws from a sequence, a group that is built on a branch is as good as the branch embedded, now and
after any script. -/
theorem fill_capture_and_group_eq_embed :
    (∀ (context : Entry.Context) (tree : Condition),
      (context.fill (.fragment (tree.toEntry.capture tree.connective))).render =
          (context.fill tree.toEntry).render ∧
        (context.fill (.fragment (tree.toEntry.capture tree.connective))).bindings =
          (context.fill tree.toEntry).bindings) ∧
    (∀ (draft : ReadDraft) (connective : Connective) (build : ReadDraft → Draw ReadDraft)
      (before : Supply) (sequence : Nat), draft.binder.mint.source = .sequence sequence →
        (∀ child middle, (build draft.branch).run before = .ok child middle →
          child.binder.mint = draft.binder.mint) →
        ∀ script : List ReadStep,
          (do let grown ← draft.group connective build
              ReadDraft.toInput <$> runScript script grown).run before =
            (do let child ← build draft.branch
                let grown ← Draw.ofExcept (draft.embed child connective)
                ReadDraft.toInput <$> runScript script grown).run before) ∧
    ∀ (steps : List ReadStep) (draft child : ReadDraft) (before middle : Supply),
      (runScript steps draft).run before = .ok child middle →
        child.binder.mint = draft.binder.mint := by
  refine ⟨?_, ?_, ?_⟩
  · intro context tree
    have alike := (Entry.Alike.captured tree.toEntry).fill context
    exact ⟨alike.render, alike.bindings⟩
  · intro draft connective build before sequence onSequence worksOnBranch script
    simp only [ReadDraft.group, EStateM.run_bind]
    cases built : (build draft.branch).run before with
    | error error middle => rfl
    | ok child middle =>
        rcases ReadDraft.exists_embed_alike_nest onSequence (worksOnBranch child middle built)
          connective with ⟨grown, embedded, alike⟩
        simp only [EStateM.run_pure, embedded]
        exact (alike.toInput_runScript script middle).symm
  · intro steps draft child before middle ran
    rw [(grew_of_runScript steps ran).binder]

/-- What is made of a branch here: an empty group, and a verb behind it. -/
def lostSteps : List ReadStep :=
  [.group .or [], .call "orEq" "lost" (.scalar (.bool true))]

def namedSteps : List ReadStep := [.restrict .and .eq "name" (.scalar (.string "chess"))]

/-- The supply after the first placeholder of the games was drawn. -/
def ratedSupply : Supply := (Supply.initial fun _ => "").advance 0

theorem group_eq_embed_of_ratedGames :
    ratedGames.binder.mint.source = .sequence 0 ∧
      (∀ child middle, (runScript lostSteps ratedGames.branch).run ratedSupply = .ok child middle →
        child.binder.mint = ratedGames.binder.mint) ∧
      (do let grown ← ratedGames.group .or (runScript lostSteps)
          ReadDraft.toInput <$> runScript namedSteps grown).run ratedSupply =
        (do let child ← runScript lostSteps ratedGames.branch
            let grown ← Draw.ofExcept (ratedGames.embed child .or)
            ReadDraft.toInput <$> runScript namedSteps grown).run ratedSupply ∧
      ∃ input after,
        (do let grown ← ratedGames.group .or (runScript lostSteps)
            ReadDraft.toInput <$> runScript namedSteps grown).run ratedSupply =
          .ok (.scan input) after ∧
        input.filterExpression = some "(rated = :p1 or (lost = :p2) and name = :p3)" := by
  rcases fill_capture_and_group_eq_embed with ⟨_, groups, scripts⟩
  have works := fun child middle => scripts lostSteps ratedGames.branch child ratedSupply middle
  exact ⟨rfl, works, groups ratedGames .or (runScript lostSteps) ratedSupply 0 rfl works namedSteps,
    _, _, rfl, by decide⟩

end ItemQuery
