import Mathlib.Logic.Equiv.Basic
import ItemQuery.Proofs.Renaming.Twins
import ItemQuery.Proofs.TableScript

/-!
Numbers renamed to words.

A mint on a sequence and a random mint with the same stem are run side by side. As long as no word
comes twice, placeholders can be renamed so that each number becomes the word that is drawn in its
place (`Mint.exists_naming`). Under that naming the two mints are twins (`Mint.sideBySide`), up to
where a draft takes in a filter whose tokens it binds already: a random mint shares a sequence with
none, not even with itself.
-/

namespace ItemQuery

/-! ## Namings -/

/-- Whether no word is one of those before it, up to a number of words. -/
def FreshBelow (words : Nat → String) (count : Nat) : Prop :=
  ∀ later < count, ∀ earlier < later, words later ≠ words earlier

instance (words : Nat → String) (count : Nat) : Decidable (FreshBelow words count) :=
  inferInstanceAs (Decidable (∀ later < count, ∀ earlier < later, _))

/-- Whether the numbers of a mint are renamed to the words that follow its stem at random, in their
order and up to a number of words. -/
def Mint.Renames (mint : Mint) (words : Nat → String) (count : Nat)
    (naming : Placeholder → Placeholder) : Prop :=
  ∀ number < count, naming (mint.numbered (number + 1)) = ⟨mint.stem ++ words number⟩

/-- A naming can be changed to send a placeholder to another one. It stays as it is where nothing
else was sent there. -/
theorem Placeholder.exists_naming_to (naming : Equiv.Perm Placeholder)
    (placeholder target : Placeholder) :
    ∃ changed : Equiv.Perm Placeholder, changed placeholder = target ∧
      ∀ other, other ≠ placeholder → naming other ≠ target → changed other = naming other := by
  refine ⟨naming.trans (Equiv.swap (naming placeholder) target), ?_, ?_⟩
  · rw [Equiv.trans_apply, Equiv.swap_apply_left]
  · intro other different elsewhere
    have differentName : naming other ≠ naming placeholder := naming.injective.ne different
    rw [Equiv.trans_apply, Equiv.swap_apply_of_ne_of_ne differentName elsewhere]

/-- If no word comes twice there is a naming by the words. -/
theorem Mint.exists_naming (mint : Mint) {words : Nat → String} {count : Nat}
    (fresh : FreshBelow words count) :
    ∃ naming : Equiv.Perm Placeholder, mint.Renames words count naming := by
  induction count with
  | zero => exact ⟨.refl _, fun number below => absurd below (Nat.not_lt_zero number)⟩
  | succ count induction =>
      have freshBefore : FreshBelow words count := fun later below =>
        fresh later (Nat.lt_succ_of_lt below)
      rcases induction freshBefore with ⟨naming, renames⟩
      rcases Placeholder.exists_naming_to naming (mint.numbered (count + 1))
        ⟨mint.stem ++ words count⟩ with ⟨changed, next, same⟩
      refine ⟨changed, ?_⟩
      intro number below
      rcases Nat.lt_succ_iff_lt_or_eq.mp below with earlier | rfl
      · rw [← renames number earlier]
        apply same
        · intro sameNumber
          have := Mint.numbered_injective sameNumber
          omega
        · rw [renames number earlier]
          intro sameName
          have sameWord : words number = words count := by simpa using sameName
          exact fresh count (Nat.lt_succ_self count) number earlier sameWord.symm
      · exact next

/-! ## Side by side -/

/-- Bindings overlap if the renamed ones do. -/
theorem Bindings.Renamed.overlap_iff {naming : Placeholder → Placeholder}
    {given held givenTwin heldTwin : Bindings} (incoming : Renamed naming given givenTwin)
    (bound : Renamed naming held heldTwin) :
    (∃ token ∈ givenTwin.names, heldTwin.contains token = true) ↔
      ∃ token ∈ given.names, held.contains token = true := by
  constructor
  · rintro ⟨token, member, contains⟩
    rcases Dictionary.mem_names_iff.mp member with ⟨value, found⟩
    rcases incoming.renamed found with ⟨placeholder, rfl⟩
    rw [incoming.get?] at found
    rw [bound.contains_iff] at contains
    exact ⟨placeholder.token, Dictionary.mem_names_iff.mpr ⟨value, found⟩, contains⟩
  · rintro ⟨token, member, contains⟩
    rcases Dictionary.mem_names_iff.mp member with ⟨value, found⟩
    rcases incoming.placeholders found with ⟨placeholder, rfl⟩
    rw [← incoming.get?] at found
    rw [← bound.contains_iff] at contains
    exact ⟨(naming placeholder).token, Dictionary.mem_names_iff.mpr ⟨value, found⟩, contains⟩

section

variable {stem : String} {sequence : Nat} {words : Nat → String} {count : Nat}
  {naming : Placeholder → Placeholder}

/-- Whether as many words were drawn as a sequence has issued numbers. -/
def Supply.Matches (sequence : Nat) (words : Nat → String) (before other : Supply) : Prop :=
  other.randomIssued = before.issued sequence ∧ other.randomWord = words

/-- Whether no more than a number of words were drawn. -/
def Supply.Within (count : Nat) (supply : Supply) : Prop := supply.randomIssued ≤ count

variable (renames : Mint.Renames ⟨stem, .sequence sequence⟩ words count naming)
include renames

theorem Mint.lockstep_next :
    Draw.Lockstep (Supply.Matches sequence words) (Supply.Within count) Draw.Never
      (fun placeholder twin => twin = naming placeholder)
      (Mint.next ⟨stem, .sequence sequence⟩) (Mint.next ⟨stem, .random⟩) := by
  rintro before other ⟨counted, sameWords⟩ bounded
  rw [Mint.run_next_of_sequence rfl, Mint.run_next_of_random rfl]
  unfold Draw.supplyAfter at bounded
  rw [Mint.run_next_of_random rfl] at bounded
  apply Draw.Ends.ok not_false
  · rw [renames _ (counted ▸ bounded), sameWords, counted]
  · exact ⟨by simp [Supply.advance, counted], sameWords⟩

/-- A mint on a sequence beside one that draws at random. -/
def Mint.sideBySide (injective : Function.Injective naming) (made : Pairs) : Twins where
  mint := ⟨stem, .sequence sequence⟩
  other := ⟨stem, .random⟩
  made := made
  naming := naming
  injective := injective
  related := Supply.Matches sequence words
  within := Supply.Within count
  parts := ReadDraft.TakesBound
  within_of_precedes earlier bounded := Nat.le_trans (earlier ⟨stem, .random⟩) bounded
  next := Mint.lockstep_next renames
  collision := by
    intro draft twin taken takenTwin drafts operands
    have shares : draft.collision? taken = none := by
      unfold ReadDraft.collision?
      rw [drafts.mint, operands.mint, Mint.sharesSequence_self rfl, if_pos rfl]
    have compares : twin.collision? takenTwin =
        takenTwin.filter.bindings.names.find? twin.boundValues.contains := by
      simp [ReadDraft.collision?, drafts.other, operands.other, Mint.sharesSequence,
        Mint.mayCollide]
    have overlap := Bindings.Renamed.overlap_iff
      (Condition.Renamed.bindings injective operands.filter) (drafts.renamed_boundValues injective)
    by_cases takes : draft.TakesBound taken
    · refine .inr ⟨takes, ?_, ?_⟩
      · rcases overlap.mpr takes with ⟨token, member, _⟩
        rw [Bool.eq_false_iff]
        intro isEmpty
        rw [Condition.bindings_of_isEmpty isEmpty] at member
        cases member
      · rw [compares, ← Option.isSome_iff_exists, List.find?_isSome]
        exact overlap.mpr takes
    · refine .inl ⟨takes, ?_⟩
      rw [shares, compares, List.find?_eq_none]
      intro token member contains
      exact takes (overlap.mp ⟨token, member, contains⟩)

end

end ItemQuery
