import ItemQuery.Proofs.Draw

/-!
Two computations side by side.

Two computations are in lockstep when, from supplies that are related, both succeed with values that
are alike or both fail with the same error, and in either case leave related supplies behind. They
may also be known to part from some supplies, and then the second one meets a collision. Lockstep is
composed like the computations are: `Draw.Lockstep.bind` for one after the other,
`Draw.Lockstep.map` for what is made of a result.

Only those runs are compared whose second supply stays within some bound to the end.
-/

namespace ItemQuery
namespace Draw

variable {related : Supply → Supply → Prop} {within : Supply → Prop}

/-- How two runs end that part if and only if they are known to. -/
inductive Ends (related : Supply → Supply → Prop) (parts : Prop) (alike : α → β → Prop) :
    EStateM.Result QueryError Supply α → EStateM.Result QueryError Supply β → Prop
  | ok {value : α} {other : β} {after later : Supply} (together : ¬parts)
      (values : alike value other) (supplies : related after later) :
      Ends related parts alike (.ok value after) (.ok other later)
  | error {error : QueryError} {after later : Supply} (together : ¬parts)
      (supplies : related after later) :
      Ends related parts alike (.error error after) (.error error later)
  | collision {result : EStateM.Result QueryError Supply α} {token : String} {later : Supply}
      (apart : parts) : Ends related parts alike result (.error (.collision token) later)

theorem Ends.mono {parts others : Prop} {alike weaker : α → β → Prop}
    {result : EStateM.Result QueryError Supply α} {other : EStateM.Result QueryError Supply β}
    (ends : Ends related parts alike result other) (same : parts ↔ others)
    (weaken : ∀ value other, alike value other → weaker value other) :
    Ends related others weaker result other := by
  cases ends with
  | ok together values supplies =>
      exact .ok (fun apart => together (same.mpr apart)) (weaken _ _ values) supplies
  | error together supplies => exact .error (fun apart => together (same.mpr apart)) supplies
  | collision apart => exact .collision (same.mp apart)

/-- Whether two computations end alike from related supplies, those apart from which they part. -/
def Lockstep (related : Supply → Supply → Prop) (within : Supply → Prop) (parts : Supply → Prop)
    (alike : α → β → Prop) (first : Draw α) (second : Draw β) : Prop :=
  ∀ before other, related before other → within (second.supplyAfter other) →
    Ends related (parts before) alike (first.run before) (second.run other)

/-- A supply from which no pair of computations is known to part. -/
def Never (_ : Supply) : Prop := False

/-- The supplies from which the second of two steps parts, seen from before the first. -/
def PartsLater (action : Draw α) (parts : α → Supply → Prop) (before : Supply) : Prop :=
  match action.run before with
  | .ok value middle => parts value middle
  | .error _ _ => False

namespace Lockstep

theorem pure {alike : α → β → Prop} {value : α} {other : β} (values : alike value other) :
    Lockstep related within Never alike (Pure.pure value) (Pure.pure other) :=
  fun _ _ supplies _ => .ok not_false values supplies

theorem throw {alike : α → β → Prop} (error : QueryError) :
    Lockstep related within Never alike (throw error : Draw α) (throw error : Draw β) :=
  fun _ _ supplies _ => .error not_false supplies

theorem ofExcept {alike : α → β → Prop} {result : Except QueryError α}
    {other : Except QueryError β}
    (same : (∃ error, result = .error error ∧ other = .error error) ∨
      ∃ value held, result = .ok value ∧ other = .ok held ∧ alike value held) :
    Lockstep related within Never alike (ofExcept result) (ofExcept other) := by
  rcases same with ⟨error, rfl, rfl⟩ | ⟨value, held, rfl, rfl, values⟩
  · exact throw error
  · exact pure values

variable {γ δ : Type} {alike : α → β → Prop} {nextAlike : γ → δ → Prop}
  {parts others : Supply → Prop} {first : Draw α} {second : Draw β}

theorem mono {weaker : α → β → Prop} (lockstep : Lockstep related within parts alike first second)
    (same : ∀ before, parts before ↔ others before)
    (weaken : ∀ value other, alike value other → weaker value other) :
    Lockstep related within others weaker first second :=
  fun before other supplies bounded =>
    (lockstep before other supplies bounded).mono (same before) weaken

theorem map (lockstep : Lockstep related within parts alike first second) {transform : α → γ}
    {other : β → δ}
    (values : ∀ value held, alike value held → nextAlike (transform value) (other held)) :
    Lockstep related within parts nextAlike (transform <$> first) (other <$> second) := by
  intro before start supplies bounded
  rw [supplyAfter_map] at bounded
  have ends := lockstep before start supplies bounded
  rw [run_map, run_map]
  cases ended : first.run before <;> cases started : second.run start <;>
    rw [ended, started] at ends <;> cases ends
  case ok.ok.ok together alike supplies => exact .ok together (values _ _ alike) supplies
  case error.error.error together supplies => exact .error together supplies
  case ok.error.collision apart => exact .collision apart
  case error.error.collision apart => exact .collision apart

/-- One step after the other. The bound on the supply at the end has to be one on the supply in
the middle, which it is where the second step only adds to what was issued. -/
theorem bind {next : α → Draw γ} {nextOther : β → Draw δ} {later : α → Supply → Prop}
    (lockstep : Lockstep related within parts alike first second)
    (bounded : ∀ start held middle, second.run start = .ok held middle →
      within ((nextOther held).supplyAfter middle) → within middle)
    (rest : ∀ value held, alike value held →
      Lockstep related within (later value) nextAlike (next value) (nextOther held)) :
    Lockstep related within (fun before => parts before ∨ PartsLater first later before) nextAlike
      (first >>= next) (second >>= nextOther) := by
  intro before start supplies boundedAfter
  rw [supplyAfter_bind] at boundedAfter
  have boundedMiddle : within (second.supplyAfter start) := by
    unfold supplyAfter
    cases started : second.run start with
    | ok held middle =>
        rw [started] at boundedAfter
        exact bounded start held middle started boundedAfter
    | error error middle => rwa [started] at boundedAfter
  have ends := lockstep before start supplies boundedMiddle
  rw [EStateM.run_bind, EStateM.run_bind]
  cases ended : first.run before <;> cases started : second.run start <;>
    rw [ended, started] at ends <;> rw [started] at boundedAfter <;> cases ends
  case ok.ok.ok together values supplies =>
    apply (rest _ _ values _ _ supplies boundedAfter).mono _ fun _ _ alike => alike
    simp [PartsLater, ended, together]
  case error.error.error together supplies =>
    exact .error (by simp [PartsLater, ended, together]) supplies
  case ok.error.collision apart => exact .collision (.inl apart)
  case error.error.collision apart => exact .collision (.inl apart)

theorem bind_never {next : α → Draw γ} {nextOther : β → Draw δ}
    (lockstep : Lockstep related within Never alike first second)
    (bounded : ∀ start held middle, second.run start = .ok held middle →
      within ((nextOther held).supplyAfter middle) → within middle)
    (rest : ∀ value held, alike value held →
      Lockstep related within Never nextAlike (next value) (nextOther held)) :
    Lockstep related within Never nextAlike (first >>= next) (second >>= nextOther) := by
  apply (lockstep.bind bounded rest).mono _ fun _ _ same => same
  intro before
  unfold PartsLater
  cases first.run before <;> simp [Never]

end Lockstep
end Draw
end ItemQuery
