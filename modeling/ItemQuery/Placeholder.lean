import ItemQuery.Config

/-!
Placeholders and the mints that issue them.

A placeholder stands in a condition for a value that is bound to it elsewhere in the request. A
mint names its placeholders by a stem followed by a running number or by a random word. Mints that
run on the same sequence share its counter, so that between them no number is issued twice; that is
how all drafts of one table keep their placeholders apart. A `Supply` holds how far each sequence
has come, and a `Draw` is a computation that takes placeholders from it. What a draw took stays
taken even if the draw fails later on.
-/

namespace ItemQuery

structure Placeholder where
  name : String
deriving DecidableEq

/-- The placeholder as it stands in conditions and among the bindings. -/
def Placeholder.token (placeholder : Placeholder) : String := ":" ++ placeholder.name

/-! ## Supplies -/

/-- The sequences that have been opened, how many placeholders each of them has issued, and the
words that random placeholders end in. -/
structure Supply where
  opened : Nat
  issued : Nat → Nat
  randomIssued : Nat
  randomWord : Nat → String

namespace Supply

/-- The supply from which nothing has been taken. -/
def initial (randomWord : Nat → String) : Supply := ⟨0, fun _ => 0, 0, randomWord⟩

/-- The supply after one more placeholder of a sequence. -/
def advance (supply : Supply) (sequence : Nat) : Supply :=
  { supply with
    issued := fun other =>
      if other = sequence then supply.issued sequence + 1 else supply.issued other }

end Supply

/-- A computation that takes placeholders from a supply and may fail. -/
abbrev Draw := EStateM QueryError Supply

namespace Draw

def ofExcept : Except QueryError α → Draw α
  | .ok value => pure value
  | .error error => throw error

def ofMarshal : Except MarshalError α → Draw α
  | .ok value => pure value
  | .error error => throw (.marshal error)

def ofConfig : Except ConfigError α → Draw α
  | .ok value => pure value
  | .error error => throw (.config error)

end Draw

/-! ## Mints -/

/-- What follows the stem in the names that a mint issues. -/
inductive Mint.Source
  | sequence (sequence : Nat)
  | random
deriving DecidableEq

structure Mint where
  stem : String
  source : Mint.Source
deriving DecidableEq

namespace Mint

/-- A mint on a new sequence. -/
def sequential (stem : String) : Draw Mint := do
  let supply ← get
  set { supply with opened := supply.opened + 1 }
  return ⟨stem, .sequence supply.opened⟩

def random (stem : String) : Mint := ⟨stem, .random⟩

def ofConfig (config : Config) : Draw Mint :=
  match config.strategy with
  | .sequential => sequential config.stem
  | .random => pure (random config.stem)

/-- The mint of a draft that nothing else was said about. -/
def fresh : Draw Mint := ofConfig Config.default

/-- Issue the next placeholder. -/
def next (mint : Mint) : Draw Placeholder := do
  let supply ← get
  match mint.source with
  | .sequence sequence =>
      set (supply.advance sequence)
      return ⟨mint.stem ++ toString (supply.issued sequence + 1)⟩
  | .random =>
      set { supply with randomIssued := supply.randomIssued + 1 }
      return ⟨mint.stem ++ supply.randomWord supply.randomIssued⟩

/-- Issue a placeholder for each of a list of values. -/
def bindAll (mint : Mint) : List α → Draw (List (Placeholder × α))
  | [] => pure []
  | value :: rest => do
      let placeholder ← mint.next
      let others ← bindAll mint rest
      return (placeholder, value) :: others

/-- Whether two mints number their placeholders from one counter. -/
def sharesSequence (first second : Mint) : Bool :=
  match first.source, second.source with
  | .sequence sequence, .sequence other => sequence == other && first.stem == second.stem
  | _, _ => false

/-- Whether two mints that count on their own could issue the same placeholder: one stem would have
to begin with the other. -/
def mayCollide (first second : Mint) : Bool :=
  match first.source, second.source with
  | .sequence _, .sequence _ =>
      !first.sharesSequence second &&
        (first.stem.toList.isPrefixOf second.stem.toList ||
          second.stem.toList.isPrefixOf first.stem.toList)
  | _, _ => false

end Mint

end ItemQuery
