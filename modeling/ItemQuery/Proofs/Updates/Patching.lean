import ItemQuery.Proofs.Fields
import ItemQuery.Proofs.MapEquality
import ItemQuery.Proofs.NonFinite
import ItemQuery.Proofs.TableScript.Frame

/-!
Updates that are made from differences.

An update that was told the difference between each version of an item and the next writes the
versions one over the other (`UpdateDraft.patch_eq_foldl_extend`). What it assigns can be more than
what differs between the first version and the last, since nothing that was assigned is taken back,
but what the last version has is what the item ends with. A single difference assigns no more than
what has changed (`UpdateDraft.exists_assignsChanges`).
-/

namespace ItemQuery

/-! ## Parts of dictionaries -/

namespace Dictionary

variable {α : Type u} {dictionary overlay part : Dictionary α}

/-- Whether a dictionary has all entries of another one. -/
def Includes (dictionary part : Dictionary α) : Prop :=
  ∀ name value, part.get? name = some value → dictionary.get? name = some value

theorem includes_extend (dictionary overlay : Dictionary α) :
    (dictionary.extend overlay).Includes overlay := by
  intro name value found
  rw [get?_extend, found, Option.some_or]

theorem extend_extend (dictionary first second : Dictionary α) :
    (dictionary.extend first).extend second = dictionary.extend (first.extend second) := by
  apply ext_get?
  intro name
  simp only [get?_extend, Option.or_assoc]

theorem empty_extend (overlay : Dictionary α) : (empty : Dictionary α).extend overlay = overlay :=
  ofList_entries overlay

theorem names_map {β : Type v} (transform : α → β) (dictionary : Dictionary α) :
    (dictionary.map transform).names = dictionary.names := by
  simp [names, map]

theorem names_eq_nil_iff : dictionary.names = [] ↔ dictionary = .empty := by
  rcases dictionary with ⟨entries, ordered⟩
  simp [names, empty]

/-- What no version has stays as it was when the versions are written one over the other. -/
theorem get?_foldl_extend_of_forall {name : String} : ∀ (versions : List (Dictionary α))
    (base : Dictionary α), (∀ version ∈ versions, version.get? name = none) →
      (versions.foldl extend base).get? name = base.get? name
  | [], _, _ => rfl
  | version :: rest, base, absent => by
      have absentLater : ∀ later ∈ rest, later.get? name = none := fun later member =>
        absent later (List.mem_cons_of_mem _ member)
      rw [List.foldl_cons, get?_foldl_extend_of_forall rest _ absentLater, get?_extend,
        absent version List.mem_cons_self, Option.none_or]

/-- What the last version has is found when the versions are written one over the other. -/
theorem includes_foldl_extend : ∀ (versions : List (Dictionary α)) (base : Dictionary α),
    (versions.foldl extend base).Includes (versions.getLastD base)
  | [], _ => fun _ _ found => found
  | [version], base => includes_extend base version
  | _ :: next :: rest, base => by
      rw [List.foldl_cons, List.getLastD_cons]
      exact includes_foldl_extend (next :: rest) _

end Dictionary

namespace UpdateDraft

/-! ## What changes -/

theorem get?_changes_eq_some_iff {old new : Item} {name : String} {value : AttributeValue} :
    (changes old new).get? name = some value ↔
      new.get? name = some value ∧ old.get? name ≠ some value := by
  rw [changes, Dictionary.get?_filter, Option.filter_eq_some_iff, decide_eq_true_eq]

theorem changes_eq_empty_iff {old new : Item} : changes old new = .empty ↔ old.Includes new := by
  constructor
  · intro unchanged name value found
    by_contra different
    have changed := get?_changes_eq_some_iff.mpr ⟨found, different⟩
    rw [unchanged] at changed
    cases changed
  · intro included
    apply Dictionary.ext_get?
    intro name
    rw [Dictionary.get?_empty, Option.eq_none_iff_forall_ne_some]
    intro value changed
    rcases get?_changes_eq_some_iff.mp changed with ⟨found, different⟩
    exact different (included name value found)

/-- To an item that includes the old version it makes no difference whether the whole new version
is written over it or only what changes. -/
theorem extend_changes {item old new : Item} (included : item.Includes old) :
    item.extend (changes old new) = item.extend new := by
  apply Dictionary.ext_get?
  intro name
  rw [Dictionary.get?_extend, Dictionary.get?_extend]
  cases changed : (changes old new).get? name with
  | some value =>
      rw [(get?_changes_eq_some_iff.mp changed).1]
  | none =>
      cases found : new.get? name with
      | none => rfl
      | some value =>
          have same : old.get? name = some value := by
            by_contra different
            rw [get?_changes_eq_some_iff.mpr ⟨found, different⟩] at changed
            cases changed
          rw [included name value same]
          rfl

/-! ## What is assigned -/

/-- The values that a draft assigns. -/
def assigned (draft : UpdateDraft) : Item := draft.assignments.map Prod.snd

/-- The item after the update. -/
def patch (draft : UpdateDraft) (item : Item) : Item := item.extend draft.assigned

theorem assigned_assign {draft grown : UpdateDraft} {name : String} {value : AttributeValue}
    {before after : Supply} (ran : (draft.assign name value).run before = .ok grown after) :
    grown.key = draft.key ∧ grown.assigned = draft.assigned.insert name value := by
  rcases assign_cases ran with ⟨placeholder, rfl, _⟩
  exact ⟨rfl, Dictionary.map_insert _ _ _ _⟩

theorem assigned_assignAll : ∀ (assignments : List (String × AttributeValue))
    {draft grown : UpdateDraft} {before after : Supply},
    (draft.assignAll assignments).run before = .ok grown after →
      grown.key = draft.key ∧ grown.assigned = draft.assigned.insertAll assignments
  | [], _, _, _, _, ran => by
      cases ran
      exact ⟨rfl, rfl⟩
  | (name, value) :: rest, draft, _, _, _, ran => by
      rcases Draw.run_bind_eq_ok.mp ran with ⟨first, middle, ranFirst, finished⟩
      rcases assigned_assign ranFirst with ⟨sameKey, added⟩
      rcases assigned_assignAll rest finished with ⟨sameKeyLater, addedLater⟩
      exact ⟨sameKeyLater.trans sameKey, by rw [addedLater, added, Dictionary.insertAll_cons]⟩

/-- A difference names the item and assigns, on top of what was assigned before, what changes. -/
theorem exists_run_diff {key before after : Native} {keyItem old new : Item}
    (isKey : Item.marshal key = .ok keyItem) (isOld : Item.marshal before = .ok old)
    (isNew : Item.marshal after = .ok new) (draft : UpdateDraft) (supply : Supply) :
    ∃ grown left, (draft.diff key before after).run supply = .ok grown left ∧
      grown.key = keyItem ∧ grown.assigned = draft.assigned.extend (changes old new) := by
  have keyed : draft.keyOf key = .ok { draft with key := keyItem } := by
    rw [keyOf, isKey]
    rfl
  rcases succeeds_assignAll (changes old new).entries { draft with key := keyItem } supply with
    ⟨grown, left, ran⟩
  have differs : (draft.diff key before after).run supply = .ok grown left := by
    simp only [diff, Draw.run_bind_eq_ok, Draw.run_ofMarshal_eq_ok]
    exact ⟨old, supply, ⟨isOld, rfl⟩, new, supply, ⟨isNew, rfl⟩, _, supply, ⟨keyed, rfl⟩, ran⟩
  exact ⟨grown, left, differs, assigned_assignAll _ ran⟩

/-! ## Chains of differences -/

/-- The differences from a version to the next one of a list, and so on to the last. -/
def diffAll (draft : UpdateDraft) (key : Native) : Native → List Native → Draw UpdateDraft
  | _, [] => pure draft
  | before, after :: rest => do
      let grown ← draft.diff key before after
      diffAll grown key after rest

/-- Where the item comes out with the version that a chain starts from, it comes out as if the later
versions were written over it in full. -/
theorem patch_eq_foldl_extend {key : Native} {keyItem base : Item} {versions : List Native}
    {items : List Item} (isKey : Item.marshal key = .ok keyItem)
    (marshaled : versions.Forall₂ (fun native item => Item.marshal native = .ok item) items) :
    ∀ {before : Native} {old : Item} {draft : UpdateDraft} (supply : Supply),
      Item.marshal before = .ok old → (draft.patch base).Includes old →
        ∃ grown left, (draft.diffAll key before versions).run supply = .ok grown left ∧
          grown.patch base = items.foldl Dictionary.extend (draft.patch base) := by
  induction marshaled with
  | nil => exact fun supply _ _ => ⟨_, supply, rfl, rfl⟩
  | @cons after new versions items isNew marshaled induction =>
      intro before old draft supply isOld included
      rcases exists_run_diff isKey isOld isNew draft supply with
        ⟨grown, middle, ran, _, assigned⟩
      have patched : grown.patch base = (draft.patch base).extend new := by
        rw [patch, assigned, ← Dictionary.extend_extend]
        exact extend_changes included
      have includedNext : (grown.patch base).Includes new := by
        rw [patched]
        exact Dictionary.includes_extend _ new
      rcases induction middle isNew includedNext with ⟨last, left, ranRest, patchedRest⟩
      refine ⟨last, left, Draw.run_bind_eq_ok.mpr ⟨grown, middle, ran, ranRest⟩, ?_⟩
      rw [patchedRest, patched, List.foldl_cons]

/-- Whether an update takes an item over its later versions to the last of them, and leaves alone
what none of them has. -/
structure Patches (draft : UpdateDraft) (base : Item) (versions : List Item) : Prop where
  reaches : (draft.patch base).Includes (versions.getLastD base)
  leaves : ∀ name, (∀ version ∈ versions, version.get? name = none) →
    (draft.patch base).get? name = base.get? name

theorem exists_patches {key first : Native} {keyItem base : Item} {versions : List Native}
    {items : List Item} (isKey : Item.marshal key = .ok keyItem)
    (isBase : Item.marshal first = .ok base)
    (marshaled : versions.Forall₂ (fun native item => Item.marshal native = .ok item) items)
    (tableName : String) (binder : Binder) (supply : Supply) :
    ∃ draft left, (diffAll (start tableName binder) key first versions).run supply =
      .ok draft left ∧ draft.Patches base items := by
  have fresh : (start tableName binder).patch base = base := rfl
  have included : ((start tableName binder).patch base).Includes base := fun _ _ found => found
  rcases patch_eq_foldl_extend isKey marshaled supply isBase included with
    ⟨draft, left, ran, patched⟩
  rw [fresh] at patched
  refine ⟨draft, left, ran, ?_, ?_⟩
  · rw [patched]
    exact Dictionary.includes_foldl_extend items base
  · intro name absent
    rw [patched]
    exact Dictionary.get?_foldl_extend_of_forall items base absent

/-! ## Single differences -/

theorem assigned_eq_empty_iff {draft : UpdateDraft} :
    draft.assigned = .empty ↔ draft.assignments = .empty := by
  rw [← Dictionary.names_eq_nil_iff, ← Dictionary.names_eq_nil_iff, assigned,
    Dictionary.names_map]

theorem get?_key_compile (draft : UpdateDraft) :
    (draft.compile .empty).get? "Key" = some draft.key.toWire :=
  Json.get?_fieldsOf (by simp) (by simp [toUpdateInput])

theorem get?_updateExpression_eq_none_iff {draft : UpdateDraft} :
    (draft.compile .empty).get? "UpdateExpression" = none ↔ draft.assignments = .empty := by
  have rendered : (draft.compile .empty).get? "UpdateExpression" =
      draft.updateExpression?.map .string :=
    Request.get?_expression draft.toInput (by decide)
  rw [rendered, Option.map_eq_none_iff, updateExpression?, ← Dictionary.names_eq_nil_iff]
  simp [Dictionary.isEmpty, Dictionary.names]

/-- Whether an update assigns what changes from one version of an item to another one, and nothing
more. -/
structure AssignsChanges (draft : UpdateDraft) (old new : Item) : Prop where
  names : ∀ name, name ∈ draft.assignments.names ↔
    ∃ value, new.get? name = some value ∧ old.get? name ≠ some value
  nothing : draft.assignments = .empty ↔ old.Includes new
  expression : (draft.compile .empty).get? "UpdateExpression" = none ↔ old.Includes new

theorem assignsChanges_of_assigned {draft : UpdateDraft} {old new : Item}
    (assigned : draft.assigned = changes old new) : draft.AssignsChanges old new := by
  have nothing : draft.assignments = .empty ↔ old.Includes new := by
    rw [← assigned_eq_empty_iff, assigned, changes_eq_empty_iff]
  refine ⟨?_, nothing, get?_updateExpression_eq_none_iff.trans nothing⟩
  intro name
  have sameNames : draft.assignments.names = (changes old new).names := by
    rw [← assigned, UpdateDraft.assigned, Dictionary.names_map]
  simp only [sameNames, Dictionary.mem_names_iff, get?_changes_eq_some_iff]

/-- Of items in order it makes no difference whether their maps are compared with or without regard
to the order of the entries. -/
theorem get?_ne_some_iff {before after : Native} {old new : Item}
    (beforeInOrder : before.InOrder) (afterInOrder : after.InOrder)
    (isOld : Item.marshal before = .ok old) (isNew : Item.marshal after = .ok new)
    {name : String} {value : AttributeValue} (found : new.get? name = some value) :
    old.get? name ≠ some value ↔ ∀ held, old.get? name = some held → ¬ held.Alike value := by
  have ordered := Item.ordered_of_marshal afterInOrder isNew found
  constructor
  · intro different held present alike
    have heldOrdered := Item.ordered_of_marshal beforeInOrder isOld present
    rw [AttributeValue.alike_iff_eq heldOrdered ordered] at alike
    exact different (alike ▸ present)
  · intro unlike present
    exact unlike value present ((AttributeValue.alike_iff_eq ordered ordered).mpr rfl)

theorem exists_assignsChanges {key before after : Native} {keyItem old new : Item}
    (isKey : Item.marshal key = .ok keyItem) (isOld : Item.marshal before = .ok old)
    (isNew : Item.marshal after = .ok new) (tableName : String) (binder : Binder)
    (supply : Supply) :
    ∃ draft left, ((start tableName binder).diff key before after).run supply = .ok draft left ∧
      (draft.compile .empty).get? "Key" = some keyItem.toWire ∧ draft.AssignsChanges old new := by
  rcases exists_run_diff isKey isOld isNew (start tableName binder) supply with
    ⟨draft, left, ran, named, assigned⟩
  refine ⟨draft, left, ran, ?_, ?_⟩
  · rw [get?_key_compile, named]
  · exact assignsChanges_of_assigned (assigned.trans (Dictionary.empty_extend _))

/-- Whatever the versions of an item are, the differences from each to the next make an update that
takes the item from the first to the last: the attributes of the last version come out as it has
them, also those that were changed back, or dropped and taken up again, and those that no later
version has stay. A single difference assigns exactly the attributes that are new or have another
value, with maps compared without regard to order, and names the item by its key. -/
theorem exists_patches_and_assignsChanges {key : Native} {keyItem : Item}
    (isKey : Item.marshal key = .ok keyItem) (tableName : String) (binder : Binder)
    (supply : Supply) :
    (∀ (first : Native) (base : Item) (versions : List Native) (items : List Item),
      Item.marshal first = .ok base →
      versions.Forall₂ (fun native item => Item.marshal native = .ok item) items →
        ∃ draft left,
          (diffAll (start tableName binder) key first versions).run supply = .ok draft left ∧
          draft.Patches base items) ∧
    ∀ (before after : Native) (old new : Item),
      Item.marshal before = .ok old → Item.marshal after = .ok new →
        ∃ draft left,
          ((start tableName binder).diff key before after).run supply = .ok draft left ∧
          (draft.compile .empty).get? "Key" = some keyItem.toWire ∧
          draft.AssignsChanges old new ∧
          (before.InOrder → after.InOrder → ∀ name, name ∈ draft.assignments.names ↔
            ∃ value, new.get? name = some value ∧
              ∀ held, old.get? name = some held → ¬ held.Alike value) := by
  constructor
  · intro first base versions items isBase marshaled
    exact exists_patches isKey isBase marshaled tableName binder supply
  · intro before after old new isOld isNew
    rcases exists_assignsChanges isKey isOld isNew tableName binder supply with
      ⟨draft, left, ran, named, changed⟩
    refine ⟨draft, left, ran, named, changed, ?_⟩
    intro beforeInOrder afterInOrder name
    rw [changed.names]
    apply exists_congr
    intro value
    apply and_congr_right
    exact get?_ne_some_iff beforeInOrder afterInOrder isOld isNew

/-- An attribute is changed, dropped, and comes back as it was first, another one is dropped for
good, and a third one is new. A map whose entries are given in another order is no change. -/
theorem exists_patches_and_assignsChanges_of_backAndForth :
    Item.marshal (.map [(.char 'k', .char 'v')]) = .ok (.ofList [("k", .string "v")]) ∧
      (∃ draft left,
        (diffAll (start "games" ⟨⟨"p", .sequence 0⟩, ⟨false⟩⟩) (.map [(.char 'k', .char 'v')])
            (.json (.object [("a", .bool true), ("b", .null)]))
            [.json (.object [("a", .bool false)]), .map [],
              .map [(.char 'c', .unit), (.char 'a', .json (.bool true))]]).run
          (.initial toString) = .ok draft left ∧
        draft.Patches (.ofList [("a", .bool true), ("b", .null true)])
          [.ofList [("a", .bool false)], .empty,
            .ofList [("a", .bool true), ("c", .null true)]]) ∧
      ∃ draft left,
        ((start "games" ⟨⟨"p", .sequence 0⟩, ⟨false⟩⟩).diff (.map [(.char 'k', .char 'v')])
            (.json (.object [("m", .object [("x", .bool true), ("y", .null)])]))
            (.map [(.char 'n', .unit),
              (.char 'm', .map [(.char 'y', .unit), (.char 'x', .json (.bool true))])])).run
          (.initial toString) = .ok draft left ∧
        "m" ∉ draft.assignments.names ∧ "n" ∈ draft.assignments.names := by
  have isKey : Item.marshal (.map [(.char 'k', .char 'v')]) = .ok (.ofList [("k", .string "v")]) :=
    rfl
  rcases exists_patches_and_assignsChanges isKey "games" ⟨⟨"p", .sequence 0⟩, ⟨false⟩⟩
    (.initial toString) with ⟨patches, assigns⟩
  refine ⟨isKey, patches _ _ _ _ rfl (.cons rfl (.cons rfl (.cons rfl .nil))), ?_⟩
  rcases assigns (.json (.object [("m", .object [("x", .bool true), ("y", .null)])]))
    (.map [(.char 'n', .unit),
      (.char 'm', .map [(.char 'y', .unit), (.char 'x', .json (.bool true))])]) _ _ rfl rfl
    with ⟨draft, left, ran, _, _, names⟩
  have assigned := names (by unfold Native.InOrder; decide)
    ⟨trivial, ⟨trivial, trivial, trivial⟩, trivial⟩
  refine ⟨draft, left, ran, ?_, ?_⟩
  · rw [assigned]
    rintro ⟨value, found, unlike⟩
    cases found
    exact unlike _ rfl ⟨rfl, ⟨_, rfl, rfl⟩, ⟨_, rfl, rfl⟩, trivial⟩
  · rw [assigned]
    exact ⟨.null true, rfl, nofun⟩

end UpdateDraft

end ItemQuery
