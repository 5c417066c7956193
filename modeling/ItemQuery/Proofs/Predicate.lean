import ItemQuery.Proofs.Draw

/-!
Predicates and what is drawn for them.

A predicate comes out of its creation with one issue for each value of its operand
(`Predicate.of_run_create`), or nothing is drawn and nothing comes out. So a predicate that was
created has as many placeholders as its kind shows (`Predicate.Valid.shows`), and where the stem of
the mint is valid each of them is a token of the store (`Predicate.Valid.placeholders`).
-/

namespace ItemQuery

/-- Whether predicates of a kind show all of so many placeholders. -/
def PredicateKind.Shows (kind : PredicateKind) (count : Nat) : Prop :=
  match kind.shape with
  | .scalar => count = 1
  | .collection => 0 < count

namespace Mint

/-- The issues that bind values to placeholders of a mint. -/
def issuesOf (mint : Mint) (bound : List (Placeholder × AttributeValue)) : List Issue :=
  bound.map fun entry => ⟨mint, entry.1, some entry.2⟩

theorem exists_run_bindAll (mint : Mint) : ∀ (values : List AttributeValue) (before : Supply),
    ∃ bound after, (mint.bindAll values).run before = .ok bound after ∧
      mint.Issues before (mint.issuesOf bound) after ∧ bound.map Prod.snd = values
  | [], before => ⟨[], before, rfl, .none before, rfl⟩
  | value :: rest, before => by
      rcases mint.exists_run_next before with ⟨placeholder, middle, drawn⟩
      rcases exists_run_bindAll mint rest middle with ⟨bound, after, ran, issues, values⟩
      refine ⟨(placeholder, value) :: bound, after, ?_, .next (some value) drawn issues, ?_⟩
      · simp only [bindAll, EStateM.run_bind, drawn, ran, EStateM.run_pure]
      · simp [values]

end Mint

namespace Predicate

variable {mint : Mint} {kind : PredicateKind} {key : String} {operand : Operand}
  {connective : Connective} {before after : Supply} {predicate : Predicate}

theorem run_create_of_mismatch {mismatch : OperandMismatch}
    (mismatched : operand.mismatch? kind = some mismatch) :
    (create mint kind key operand connective).run before =
      .error (.operand kind mismatch) before := by
  simp [create, mismatched]

theorem exists_run_create (fits : operand.mismatch? kind = none) :
    ∃ bound after, (create mint kind key operand connective).run before =
        .ok ⟨kind, key, connective, bound⟩ after ∧
      mint.Issues before (mint.issuesOf bound) after ∧ bound.map Prod.snd = operand.values := by
  rcases mint.exists_run_bindAll operand.values before with ⟨bound, after, ran, issues, values⟩
  refine ⟨bound, after, ?_, issues, values⟩
  simp only [create, fits, EStateM.run_bind, ran, EStateM.run_pure]

theorem of_run_create
    (created : (create mint kind key operand connective).run before = .ok predicate after) :
    operand.mismatch? kind = none ∧
      predicate = ⟨kind, key, connective, predicate.bound⟩ ∧
      mint.Issues before (mint.issuesOf predicate.bound) after ∧
      predicate.bound.map Prod.snd = operand.values := by
  cases mismatch : operand.mismatch? kind with
  | some mismatch =>
      rw [run_create_of_mismatch mismatch] at created
      cases created
  | none =>
      rcases @exists_run_create mint kind key operand connective before mismatch with
        ⟨bound, final, ran, issues, values⟩
      rw [ran] at created
      injection created with samePredicate sameSupply
      subst samePredicate sameSupply
      exact ⟨rfl, rfl, issues, values⟩

theorem shows_of_mismatch?_eq_none (fits : operand.mismatch? kind = none) :
    kind.Shows operand.values.length := by
  unfold Operand.mismatch? at fits
  split at fits
  · cases fits
  · next sameShape =>
      split at fits
      · cases fits
      · next nonempty =>
          have shapes : operand.shape = kind.shape := Decidable.not_not.mp sameShape
          unfold PredicateKind.Shows
          rw [← shapes]
          cases operand with
          | scalar value => rfl
          | collection values => exact List.length_pos_iff.mpr nonempty

theorem shows_of_run_create
    (created : (create mint kind key operand connective).run before = .ok predicate after) :
    predicate.kind.Shows predicate.placeholders.length := by
  rcases of_run_create created with ⟨fits, equal, _, values⟩
  have shown := shows_of_mismatch?_eq_none fits
  rw [equal]
  simpa [placeholders, ← values] using shown

/-! ## Valid predicates -/

end Predicate

/-- Whether a placeholder is a name that the store accepts behind the colon. -/
def Placeholder.Valid (placeholder : Placeholder) : Prop :=
  ∀ char ∈ placeholder.name.toList, Config.isTokenChar char = true

/-- Whether a stem passes the validation of configurations. -/
def Mint.Valid (mint : Mint) : Prop :=
  ∃ config : Config, config.stem = mint.stem ∧ config.validate = .ok ()

/-- Whether the words that random placeholders end in are made of characters of tokens. -/
def Supply.Valid (supply : Supply) : Prop :=
  ∀ number, ∀ char ∈ (supply.randomWord number).toList, Config.isTokenChar char = true

theorem Mint.Valid.stem {mint : Mint} (valid : mint.Valid) :
    ∀ char ∈ mint.stem.toList, Config.isTokenChar char = true := by
  rcases valid with ⟨config, sameStem, accepted⟩
  unfold Config.validate at accepted
  split at accepted
  · cases accepted
  · split at accepted
    · next all => exact sameStem ▸ List.all_eq_true.mp all
    · cases accepted

namespace Mint.Issues

/-- A mint with a valid stem issues valid placeholders only. -/
theorem valid {mint : Mint} (stem : mint.Valid) {before after : Supply} {issues : List Issue}
    (drawn : mint.Issues before issues after) (words : before.Valid) :
    ∀ issue ∈ issues, issue.placeholder.Valid := by
  induction drawn with
  | none => simp
  | @next before middle after placeholder later value drawn _ induction =>
      intro issue member
      cases source : mint.source with
      | sequence sequence =>
          rw [run_next_of_sequence source] at drawn
          injection drawn with named advanced
          subst named advanced
          rcases List.mem_cons.mp member with rfl | member
          · intro char inName
            simp only [Mint.numbered, String.toList_append, List.mem_append,
              Nat.toString_eq_repr, Nat.toList_repr] at inName
            rcases inName with inStem | inNumber
            · exact stem.stem char inStem
            · have isDigit := Nat.isDigit_of_mem_toDigits (by decide) (by decide) inNumber
              simp [Config.isTokenChar, Char.isAlphanum, isDigit]
          · exact induction words issue member
      | random =>
          rw [run_next_of_random source] at drawn
          injection drawn with named advanced
          subst named advanced
          rcases List.mem_cons.mp member with rfl | member
          · intro char inName
            simp only [String.toList_append, List.mem_append] at inName
            rcases inName with inStem | inWord
            · exact stem.stem char inStem
            · exact words _ char inWord
          · exact induction words issue member

end Mint.Issues

namespace Predicate

/-- The predicates that can come up when mints have valid stems: those that were created, perhaps
with another connective since. -/
inductive Valid : Predicate → Prop
  | created {mint : Mint} {kind : PredicateKind} {key : String} {operand : Operand}
      {connective : Connective} {before after : Supply} {predicate : Predicate}
      (stem : mint.Valid) (words : before.Valid)
      (created : (create mint kind key operand connective).run before = .ok predicate after) :
      Valid predicate
  | joined {predicate : Predicate} (connective : Connective) (valid : Valid predicate) :
      Valid (predicate.withConnective connective)

theorem Valid.shows {predicate : Predicate} (valid : predicate.Valid) :
    predicate.kind.Shows predicate.placeholders.length := by
  induction valid with
  | created stem words created => exact shows_of_run_create created
  | joined connective _ induction => exact induction

theorem Valid.placeholders {predicate : Predicate} (valid : predicate.Valid) :
    ∀ placeholder ∈ predicate.placeholders, placeholder.Valid := by
  induction valid with
  | created stem words created =>
      rcases of_run_create created with ⟨_, _, issues, _⟩
      intro placeholder member
      rcases List.mem_map.mp member with ⟨entry, bound, rfl⟩
      exact issues.valid stem words _ (List.mem_map_of_mem bound)
  | joined connective _ induction => exact induction

end Predicate

end ItemQuery
