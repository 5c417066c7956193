import ItemQuery.ReadDraft

/-!
What is found under a token.

The bindings of an entry, a condition or a draft are stored one after the other, so a token that is
bound more than once keeps its last value (`Dictionary.get?_ofList_append`). Where all bindings of a
token agree there is nothing to choose from (`Dictionary.get?_ofList_of_forall`).
-/

namespace ItemQuery

namespace Dictionary

variable {α : Type u}

/-! ## Lists of entries -/

theorem get?_insertAll (dictionary : Dictionary α) (entries : List (String × α)) (name : String) :
    (dictionary.insertAll entries).get? name =
      ((ofList entries).get? name).or (dictionary.get? name) := by
  induction entries generalizing dictionary with
  | nil => simp [ofList]
  | cons entry rest induction =>
      have stored : ofList (entry :: rest) = (empty.insert entry.1 entry.2).insertAll rest := rfl
      rw [insertAll_cons, induction, get?_insert, stored, induction (empty.insert _ _), get?_insert,
        get?_empty, Option.or_assoc]
      by_cases equal : name = entry.1
      · rw [if_pos equal, if_pos equal, Option.some_or]
      · rw [if_neg equal, if_neg equal, Option.none_or]

/-- What a later list says of a name counts, and what an earlier list says only otherwise. -/
theorem get?_ofList_append (first second : List (String × α)) (name : String) :
    (ofList (first ++ second)).get? name =
      ((ofList second).get? name).or ((ofList first).get? name) := by
  rw [ofList, insertAll_append, get?_insertAll]
  rfl

theorem ofList_append_congr {first second others more : List (String × α)}
    (sameFirst : ofList others = ofList first) (sameSecond : ofList more = ofList second) :
    ofList (others ++ more) = ofList (first ++ second) := by
  apply ext_get?
  intro name
  rw [get?_ofList_append, get?_ofList_append, sameFirst, sameSecond]

theorem get?_ofList_cons (entry : String × α) (rest : List (String × α)) (name : String) :
    (ofList (entry :: rest)).get? name =
      ((ofList rest).get? name).or (if name = entry.1 then some entry.2 else none) := by
  rw [ofList, insertAll_cons, get?_insertAll, get?_insert, get?_empty]

theorem mem_of_get?_ofList {entries : List (String × α)} {name : String} {value : α}
    (found : (ofList entries).get? name = some value) : (name, value) ∈ entries := by
  induction entries with
  | nil => simp [ofList] at found
  | cons entry rest induction =>
      rw [get?_ofList_cons, Option.or_eq_some_iff] at found
      rcases found with later | ⟨_, here⟩
      · exact List.mem_cons_of_mem _ (induction later)
      · by_cases equal : name = entry.1
        · rw [if_pos equal] at here
          simp [equal, ← Option.some.inj here]
        · simp [equal] at here

theorem exists_get?_ofList {entries : List (String × α)} {name : String} {value : α}
    (member : (name, value) ∈ entries) : ∃ last, (ofList entries).get? name = some last := by
  induction entries with
  | nil => cases member
  | cons entry rest induction =>
      rw [get?_ofList_cons]
      rcases List.mem_cons.mp member with rfl | later
      · cases (ofList rest).get? name <;> simp
      · rcases induction later with ⟨last, found⟩
        exact ⟨last, by simp [found]⟩

theorem get?_ofList_of_forall {entries : List (String × α)} {name : String} {value held : α}
    (member : (name, held) ∈ entries)
    (agree : ∀ other, (name, other) ∈ entries → other = value) :
    (ofList entries).get? name = some value := by
  rcases exists_get?_ofList member with ⟨last, found⟩
  rw [found, agree last (mem_of_get?_ofList found)]

/-! ## The entries of a dictionary -/

theorem find?_eq_some_iff {entries : List (String × α)}
    (ordered : entries.Pairwise fun first second => first.1 < second.1) {name : String}
    {value : α} :
    find? name entries = some value ↔ (name, value) ∈ entries := by
  induction entries with
  | nil => simp [find?]
  | cons head rest induction =>
      have above : ∀ entry ∈ rest, head.1 < entry.1 := fun entry member =>
        List.rel_of_pairwise_cons ordered member
      simp only [find?, List.mem_cons]
      by_cases equal : name = head.1
      · have notLater : (name, value) ∉ rest := fun member =>
          String.lt_irrefl head.1 (by simpa [equal] using above _ member)
        rw [if_pos equal, or_iff_left notLater, Prod.ext_iff]
        constructor
        · intro found
          exact ⟨equal, (Option.some.inj found).symm⟩
        · intro same
          exact congrArg some same.2.symm
      · rw [if_neg equal, induction ordered.of_cons]
        exact ⟨.inr, fun member => member.resolve_left fun same => equal (congrArg Prod.fst same)⟩

theorem get?_eq_some_iff {dictionary : Dictionary α} {name : String} {value : α} :
    dictionary.get? name = some value ↔ (name, value) ∈ dictionary.entries :=
  find?_eq_some_iff dictionary.ordered

theorem ofList_entries (dictionary : Dictionary α) : ofList dictionary.entries = dictionary := by
  apply ext_get?
  intro name
  cases found : dictionary.get? name with
  | some value =>
      apply get?_ofList_of_forall (get?_eq_some_iff.mp found)
      intro other member
      rw [get?_eq_some_iff.mpr member] at found
      exact Option.some.inj found
  | none =>
      rw [Option.eq_none_iff_forall_ne_some]
      intro value stored
      rw [get?_eq_some_iff.mpr (mem_of_get?_ofList stored)] at found
      cases found

theorem entries_ofList {entries : List (String × α)}
    (ordered : entries.Pairwise fun first second => first.1 < second.1) :
    (ofList entries).entries = entries :=
  congrArg Dictionary.entries (ofList_entries ⟨entries, ordered⟩)

theorem get?_extend (dictionary overlay : Dictionary α) (name : String) :
    (dictionary.extend overlay).get? name = (overlay.get? name).or (dictionary.get? name) := by
  rw [extend, get?_insertAll, ofList_entries]

theorem get?_map {β : Type v} (transform : α → β) (dictionary : Dictionary α) (name : String) :
    (dictionary.map transform).get? name = (dictionary.get? name).map transform := by
  rcases dictionary with ⟨entries, ordered⟩
  change find? name (entries.map fun entry => (entry.1, transform entry.2)) =
    (find? name entries).map transform
  clear ordered
  induction entries with
  | nil => rfl
  | cons entry rest induction =>
      rw [List.map_cons, find?, find?]
      split
      · rfl
      · exact induction

theorem map_insert {β : Type v} (transform : α → β) (dictionary : Dictionary α) (name : String)
    (value : α) :
    (dictionary.insert name value).map transform =
      (dictionary.map transform).insert name (transform value) := by
  apply ext_get?
  intro other
  rw [get?_map, get?_insert, get?_insert, get?_map]
  split <;> rfl

theorem mem_names_iff {dictionary : Dictionary α} {name : String} :
    name ∈ dictionary.names ↔ ∃ value, dictionary.get? name = some value := by
  simp only [names, List.mem_map, get?_eq_some_iff]
  constructor
  · rintro ⟨entry, member, rfl⟩
    exact ⟨entry.2, member⟩
  · rintro ⟨value, member⟩
    exact ⟨(name, value), member, rfl⟩

end Dictionary

/-! ## Entries -/

namespace Entry

theorem mem_tokenValues_group {joined : Connective} {entries : List Entry}
    {binding : String × AttributeValue} :
    binding ∈ (Entry.group joined entries).tokenValues ↔
      ∃ entry ∈ entries, binding ∈ entry.tokenValues := by
  rw [tokenValues, tokenValuesOfAll_eq_flatMap, List.mem_flatMap]

theorem get?_bindings_eq_some {entry : Entry} {token : String} {value : AttributeValue}
    (found : entry.bindings.get? token = some value) : (token, value) ∈ entry.tokenValues :=
  Dictionary.mem_of_get?_ofList found

/-- A fragment binds only what the entry it was captured from binds. -/
theorem mem_tokenValues_of_capture {entry : Entry} {joined : Connective}
    {binding : String × AttributeValue}
    (member : binding ∈ (Entry.fragment (entry.capture joined)).tokenValues) :
    binding ∈ entry.tokenValues :=
  get?_bindings_eq_some (Dictionary.get?_eq_some_iff.mpr member)

/-- A fragment binds every token of the entry it was captured from. -/
theorem exists_mem_tokenValues_capture {entry : Entry} (joined : Connective) {token : String}
    {value : AttributeValue} (member : (token, value) ∈ entry.tokenValues) :
    ∃ last, (token, last) ∈ (Entry.fragment (entry.capture joined)).tokenValues := by
  rcases Dictionary.exists_get?_ofList member with ⟨last, found⟩
  exact ⟨last, Dictionary.get?_eq_some_iff.mp found⟩

end Entry

/-! ## Compiled drafts -/

/-- The values that an input carries under the tokens of its conditions. -/
def Input.attributeValues : Input → Bindings
  | .scan input => input.attributeValues
  | .query input => input.attributeValues
  | .update input => input.attributeValues
  | .batch _ => .empty

theorem ReadDraft.attributeValues_toInput (draft : ReadDraft) :
    draft.toInput.attributeValues = draft.boundValues := by
  unfold toInput
  cases target : draft.target with
  | scan =>
      change draft.filter.bindings = draft.boundValues
      rw [boundValues, target]
      rfl
  | query condition forward => rfl

end ItemQuery
