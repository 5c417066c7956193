/-!
Dictionaries: finite maps from names to values, kept as a list whose names strictly increase.

Every map of a request is one of these: the attributes of an item, the values bound to
placeholders, the aliases of attribute names, the tables of a batch. Names are compared by code
point, so a dictionary has exactly one representation, and two dictionaries that answer every
`get?` alike are equal (`Dictionary.ext_get?`). `insert` replaces: the last value stored under a
name is the one that is found (`Dictionary.get?_insert`).
-/

namespace ItemQuery

/-- A map from names to values. The entries stand in strictly increasing order of their names, so
no name occurs twice. -/
structure Dictionary (α : Type u) where
  entries : List (String × α)
  ordered : entries.Pairwise fun first second => first.1 < second.1
deriving DecidableEq

namespace Dictionary

variable {α : Type u} {β : Type v}

/-- The dictionary without entries. -/
def empty : Dictionary α := ⟨[], .nil⟩

instance : Inhabited (Dictionary α) := ⟨empty⟩

def isEmpty (dictionary : Dictionary α) : Bool := dictionary.entries.isEmpty

def size (dictionary : Dictionary α) : Nat := dictionary.entries.length

/-- The names in increasing order. -/
def names (dictionary : Dictionary α) : List String := dictionary.entries.map Prod.fst

/-- The values in the order of their names. -/
def values (dictionary : Dictionary α) : List α := dictionary.entries.map Prod.snd

/-! ## Looking up -/

/-- The first value stored under `name` in a list of entries. -/
def find? (name : String) : List (String × α) → Option α
  | [] => none
  | (other, value) :: rest => if name = other then some value else find? name rest

/-- The value stored under `name`. -/
def get? (dictionary : Dictionary α) (name : String) : Option α := find? name dictionary.entries

def contains (dictionary : Dictionary α) (name : String) : Bool := (dictionary.get? name).isSome

@[simp] theorem get?_empty (name : String) : (empty : Dictionary α).get? name = none := rfl

/-- A name that stands below every name of the list is not found in it. -/
theorem find?_eq_none_of_below {name : String} {entries : List (String × α)}
    (below : ∀ entry ∈ entries, name < entry.1) : find? name entries = none := by
  induction entries with
  | nil => rfl
  | cons entry rest induction =>
      have different : name ≠ entry.1 := fun equal =>
        String.lt_irrefl name (equal ▸ below entry (by simp))
      simp only [find?, if_neg different]
      exact induction fun other member => below other (List.mem_cons_of_mem _ member)

/-! ## Storing -/

/-- Put `value` under `name`: in place of the value that stood there, or at the point where the
names stay in order. -/
def insertEntry (name : String) (value : α) : List (String × α) → List (String × α)
  | [] => [(name, value)]
  | (other, held) :: rest =>
      if name < other then (name, value) :: (other, held) :: rest
      else if name = other then (name, value) :: rest
      else (other, held) :: insertEntry name value rest

theorem fst_of_mem_insertEntry {name : String} {value : α} {entries : List (String × α)}
    {entry : String × α} (member : entry ∈ insertEntry name value entries) :
    entry.1 = name ∨ entry ∈ entries := by
  induction entries with
  | nil => simp_all [insertEntry]
  | cons head rest induction =>
      simp only [insertEntry] at member
      split at member
      · rcases List.mem_cons.mp member with rfl | later
        · exact .inl rfl
        · exact .inr later
      · split at member
        · rcases List.mem_cons.mp member with rfl | later
          · exact .inl rfl
          · exact .inr (List.mem_cons_of_mem _ later)
        · rcases List.mem_cons.mp member with rfl | later
          · exact .inr (by simp)
          · exact (induction later).imp_right (List.mem_cons_of_mem _)

theorem ordered_insertEntry (name : String) (value : α) {entries : List (String × α)}
    (ordered : entries.Pairwise fun first second => first.1 < second.1) :
    (insertEntry name value entries).Pairwise fun first second => first.1 < second.1 := by
  induction entries with
  | nil => simp [insertEntry]
  | cons head rest induction =>
      have above : ∀ entry ∈ rest, head.1 < entry.1 := fun entry member =>
        List.rel_of_pairwise_cons ordered member
      simp only [insertEntry]
      split
      · next before =>
          refine List.pairwise_cons.mpr ⟨fun entry member => ?_, ordered⟩
          rcases List.mem_cons.mp member with rfl | later
          · exact before
          · exact String.lt_trans before (above entry later)
      · next notBefore =>
          split
          · next same =>
              exact List.pairwise_cons.mpr
                ⟨fun entry member => by simpa [same] using above entry member, ordered.of_cons⟩
          · next different =>
              refine List.pairwise_cons.mpr ⟨fun entry member => ?_, induction ordered.of_cons⟩
              rcases fst_of_mem_insertEntry member with equal | later
              · rw [equal]
                grind
              · exact above entry later

/-- The dictionary with `value` under `name` and everything else as it was. -/
def insert (dictionary : Dictionary α) (name : String) (value : α) : Dictionary α :=
  ⟨insertEntry name value dictionary.entries, ordered_insertEntry name value dictionary.ordered⟩

theorem find?_insertEntry (name wanted : String) (value : α) (entries : List (String × α))
    (ordered : entries.Pairwise fun first second => first.1 < second.1) :
    find? wanted (insertEntry name value entries) =
      if wanted = name then some value else find? wanted entries := by
  induction entries with
  | nil => simp [insertEntry, find?]
  | cons head rest induction =>
      simp only [insertEntry]
      split
      · simp [find?]
      · split
        · next same => by_cases equal : wanted = name <;> simp_all [find?]
        · next different =>
            simp only [find?, induction ordered.of_cons]
            by_cases equal : wanted = head.1
            · simp [equal, Ne.symm different]
            · simp [equal]

/-- The value stored last under a name is the one found there; other names are untouched. -/
theorem get?_insert (dictionary : Dictionary α) (name wanted : String) (value : α) :
    (dictionary.insert name value).get? wanted =
      if wanted = name then some value else dictionary.get? wanted :=
  find?_insertEntry name wanted value dictionary.entries dictionary.ordered

/-- Store the entries of a list one after the other; of a name that repeats the last value stays. -/
def insertAll (dictionary : Dictionary α) (entries : List (String × α)) : Dictionary α :=
  entries.foldl (fun held entry => held.insert entry.1 entry.2) dictionary

/-- The dictionary of a list of entries; of a name that repeats the last value stays. -/
def ofList (entries : List (String × α)) : Dictionary α := empty.insertAll entries

/-- All entries of both dictionaries, those of `overlay` where a name occurs in both. -/
def extend (dictionary overlay : Dictionary α) : Dictionary α := dictionary.insertAll overlay.entries

@[simp] theorem insertAll_nil (dictionary : Dictionary α) : dictionary.insertAll [] = dictionary :=
  rfl

@[simp] theorem insertAll_cons (dictionary : Dictionary α) (entry : String × α)
    (rest : List (String × α)) :
    dictionary.insertAll (entry :: rest) = (dictionary.insert entry.1 entry.2).insertAll rest :=
  rfl

theorem insertAll_append (dictionary : Dictionary α) (first second : List (String × α)) :
    dictionary.insertAll (first ++ second) = (dictionary.insertAll first).insertAll second := by
  simp [insertAll]

/-! ## Transforming -/

/-- Transform every value and leave the names alone. -/
def map (transform : α → β) (dictionary : Dictionary α) : Dictionary β where
  entries := dictionary.entries.map fun entry => (entry.1, transform entry.2)
  ordered := List.pairwise_map.mpr dictionary.ordered

/-- Keep the entries that pass the test. -/
def filter (keep : String → α → Bool) (dictionary : Dictionary α) : Dictionary α where
  entries := dictionary.entries.filter fun entry => keep entry.1 entry.2
  ordered := dictionary.ordered.filter _

/-! ## Extensionality -/

/-- Two dictionaries that hold the same value under every name are the same dictionary. -/
theorem ext_get? {first second : Dictionary α}
    (same : ∀ name, first.get? name = second.get? name) : first = second := by
  obtain ⟨entries, ordered⟩ := first
  obtain ⟨others, othersOrdered⟩ := second
  suffices equal : entries = others by subst equal; rfl
  change ∀ name, find? name entries = find? name others at same
  induction entries generalizing others with
  | nil =>
      cases others with
      | nil => rfl
      | cons head rest => simpa [find?] using same head.1
  | cons head rest induction =>
      have above : ∀ entry ∈ rest, head.1 < entry.1 := fun entry member =>
        List.rel_of_pairwise_cons ordered member
      cases others with
      | nil => simpa [find?] using same head.1
      | cons other remaining =>
          have othersAbove : ∀ entry ∈ remaining, other.1 < entry.1 := fun entry member =>
            List.rel_of_pairwise_cons othersOrdered member
          have sameName : head.1 = other.1 := by
            have atHead := same head.1
            have atOther := same other.1
            by_cases before : head.1 < other.1
            · have below : ∀ entry ∈ other :: remaining, head.1 < entry.1 := by
                intro entry member
                rcases List.mem_cons.mp member with rfl | later
                · exact before
                · exact String.lt_trans before (othersAbove entry later)
              rw [find?_eq_none_of_below below] at atHead
              simp [find?] at atHead
            · by_cases after : other.1 < head.1
              · have below : ∀ entry ∈ head :: rest, other.1 < entry.1 := by
                  intro entry member
                  rcases List.mem_cons.mp member with rfl | later
                  · exact after
                  · exact String.lt_trans after (above entry later)
                rw [find?_eq_none_of_below below] at atOther
                simp [find?] at atOther
              · grind
          have sameHead : head = other := by
            have atHead := same head.1
            simp [find?, sameName] at atHead
            exact Prod.ext sameName atHead
          subst sameHead
          refine congrArg (head :: ·) (induction ordered.of_cons remaining othersOrdered.of_cons ?_)
          intro name
          by_cases equal : name = head.1
          · rw [equal, find?_eq_none_of_below above, find?_eq_none_of_below othersAbove]
          · simpa [find?, equal] using same name

end Dictionary

end ItemQuery
