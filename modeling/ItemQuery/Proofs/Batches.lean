import Mathlib.Data.List.Induction
import ItemQuery.Proofs.Marshaling
import ItemQuery.Proofs.Overrides

/-!
What a batch holds.

The steps that make a batch issue writes, each for the table that is current then. A batch holds
these writes and no others, grouped by their tables (`BatchDraft.Holds`): one step keeps this
(`BatchStep.holds_run`), and so does every run of steps (`BatchDraft.holds_runAll`). As no table has
two groups, nothing is lost when the groups become a dictionary, and the compiled request depends
only on what was issued for each table, however the tables took turns.
-/

namespace ItemQuery

/-! ## Writes as they are issued -/

/-- The write that a step issues: an item on the one side or a key on the other, a native one
marshaled before. Switching to another table issues none. -/
def BatchStep.write? : BatchStep → Option WriteRequest
  | .switchTo _ => none
  | .put native => (Item.marshal native).toOption.map fun item => ⟨some item, none⟩
  | .delete native => (Item.marshal native).toOption.map fun key => ⟨none, some key⟩
  | .putItem item => some ⟨some item, none⟩
  | .deleteKey key => some ⟨none, some key⟩

/-- The table that is current after a step. -/
def BatchStep.tableAfter (current : String) : BatchStep → String
  | .switchTo tableName => tableName
  | _ => current

/-- The writes that steps issue, each with the table that is current then. -/
def BatchStep.issued (current : String) : List BatchStep → List (String × WriteRequest)
  | [] => []
  | step :: rest =>
      step.write?.toList.map (current, ·) ++ issued (step.tableAfter current) rest

/-- The writes among those issued that were issued for a table. -/
def writesFor (tableName : String) (issued : List (String × WriteRequest)) : List WriteRequest :=
  (issued.filter fun write => write.1 = tableName).map Prod.snd

/-- What a step issues either stores an item or deletes by a key. -/
theorem BatchStep.exists_item_of_write? {step : BatchStep} {write : WriteRequest}
    (writes : step.write? = some write) :
    ∃ item, write = ⟨some item, none⟩ ∨ write = ⟨none, some item⟩ := by
  cases step with
  | switchTo tableName => cases writes
  | put native =>
      rcases Option.map_eq_some_iff.mp writes with ⟨item, _, rfl⟩
      exact ⟨item, .inl rfl⟩
  | delete native =>
      rcases Option.map_eq_some_iff.mp writes with ⟨key, _, rfl⟩
      exact ⟨key, .inr rfl⟩
  | putItem item => exact ⟨item, .inl (Option.some.inj writes).symm⟩
  | deleteKey key => exact ⟨key, .inr (Option.some.inj writes).symm⟩

theorem BatchStep.exists_item_of_mem_issued {write : String × WriteRequest} :
    ∀ {current : String} {steps : List BatchStep}, write ∈ issued current steps →
      ∃ item, write.2 = ⟨some item, none⟩ ∨ write.2 = ⟨none, some item⟩
  | _, step :: rest, member => by
      rcases List.mem_append.mp member with now | later
      · rcases List.mem_map.mp now with ⟨written, isWritten, rfl⟩
        exact exists_item_of_write? (Option.mem_toList.mp isWritten)
      · exact exists_item_of_mem_issued later

theorem writesFor_append (tableName : String) (issued more : List (String × WriteRequest)) :
    writesFor tableName (issued ++ more) =
      writesFor tableName issued ++ writesFor tableName more := by
  rw [writesFor, List.filter_append, List.map_append]
  rfl

theorem writesFor_eq_nil_iff {tableName : String} {issued : List (String × WriteRequest)} :
    writesFor tableName issued = [] ↔ tableName ∉ issued.map Prod.fst := by
  rw [writesFor, List.map_eq_nil_iff, List.filter_eq_nil_iff]
  constructor
  · intro none known
    rcases List.mem_map.mp known with ⟨write, member, named⟩
    exact none write member (decide_eq_true named)
  · intro unknown write member isFor
    exact unknown (List.mem_map.mpr ⟨write, member, of_decide_eq_true isFor⟩)

namespace Dictionary

variable {α : Type u}

theorem find?_eq_none_iff {name : String} {entries : List (String × α)} :
    find? name entries = none ↔ name ∉ entries.map Prod.fst := by
  induction entries with
  | nil => simp [find?]
  | cons entry rest induction =>
      rw [find?, List.map_cons, List.mem_cons, not_or]
      by_cases same : name = entry.1
      · simp [same]
      · rw [if_neg same, induction]
        exact (and_iff_right same).symm

/-- Where no name repeats, the dictionary of a list has of each name what the list has. -/
theorem get?_ofList_of_nodup {entries : List (String × α)} (names : (entries.map Prod.fst).Nodup)
    (name : String) : (ofList entries).get? name = find? name entries := by
  induction entries with
  | nil => rfl
  | cons entry rest induction =>
      rw [List.map_cons, List.nodup_cons] at names
      rw [get?_ofList_cons, induction names.2, find?]
      by_cases same : name = entry.1
      · simp [same, find?_eq_none_iff.mpr names.1]
      · rw [if_neg same, Option.or_none, if_neg same]

end Dictionary

/-! ## Steps that can fail -/

namespace BatchDraft

theorem put_eq_ok_iff {draft next : BatchDraft} {native : Native} :
    draft.put native = .ok next ↔
      ∃ item, Item.marshal native = .ok item ∧ draft.putItem item = next := by
  simp only [put, MarshalError.bind_eq_ok_iff, pure, Except.pure, Except.ok.injEq]

theorem delete_eq_ok_iff {draft next : BatchDraft} {native : Native} :
    draft.delete native = .ok next ↔
      ∃ key, Item.marshal native = .ok key ∧ draft.deleteKey key = next := by
  simp only [delete, MarshalError.bind_eq_ok_iff, pure, Except.pure, Except.ok.injEq]

/-- Run steps one after the other, up to the first one that fails. -/
def runAll : List BatchStep → BatchDraft → Except MarshalError BatchDraft
  | [], draft => .ok draft
  | step :: rest, draft => do
      let next ← step.run draft
      runAll rest next

end BatchDraft

/-! ## Grouping -/

namespace BatchDraft

section Enqueue

variable (tableName : String) (write : WriteRequest) (tables : List (String × List WriteRequest))

theorem find?_enqueue (wanted : String) :
    (Dictionary.find? wanted (enqueue tableName write tables)).getD [] =
      (Dictionary.find? wanted tables).getD [] ++ if wanted = tableName then [write] else [] := by
  induction tables with
  | nil => by_cases same : wanted = tableName <;> simp [enqueue, Dictionary.find?, same]
  | cons group rest induction =>
      rw [enqueue]
      split
      · next found =>
          by_cases same : wanted = group.1
          · simp [Dictionary.find?, same, found]
          · simp [Dictionary.find?, same, found ▸ same]
      · next other =>
          by_cases same : wanted = group.1
          · simp [Dictionary.find?, same, other]
          · simp [Dictionary.find?, same, induction]

theorem names_enqueue :
    (enqueue tableName write tables).map Prod.fst =
      tables.map Prod.fst ++ if tableName ∈ tables.map Prod.fst then [] else [tableName] := by
  induction tables with
  | nil => rfl
  | cons group rest induction =>
      rw [enqueue]
      split
      · next found => simp [found]
      · next other =>
          have known : tableName ∈ (group :: rest).map Prod.fst ↔
              tableName ∈ rest.map Prod.fst := by
            simp [Ne.symm other]
          rw [List.map_cons, induction, if_congr known rfl rfl, List.map_cons, List.cons_append]

theorem length_enqueue :
    ((enqueue tableName write tables).flatMap Prod.snd).length =
      (tables.flatMap Prod.snd).length + 1 := by
  induction tables with
  | nil => rfl
  | cons group rest induction =>
      rw [enqueue]
      split
      · simp only [List.flatMap_cons, List.length_append, List.length_singleton]
        omega
      · simp only [List.flatMap_cons, List.length_append, induction]
        omega

end Enqueue

/-- Whether a draft holds exactly some writes, grouped by their tables: each group has its writes
in the order in which they were issued, and the groups are in the order of their first writes. -/
structure Holds (issued : List (String × WriteRequest)) (draft : BatchDraft) : Prop where
  writes (tableName : String) : draft.writes tableName = writesFor tableName issued
  tableNames : draft.tableNames = (issued.map Prod.fst).eraseDups
  size : draft.size = issued.length

variable {issued : List (String × WriteRequest)} {draft grown : BatchDraft}

theorem holds_start (tableName : String) : Holds [] (start tableName) where
  writes _ := rfl
  tableNames := rfl
  size := rfl

theorem Holds.push (holds : draft.Holds issued) (write : WriteRequest) :
    (draft.push write).Holds (issued ++ [(draft.current, write)]) where
  writes wanted := by
    have before := holds.writes wanted
    rw [BatchDraft.writes] at before ⊢
    rw [BatchDraft.push, find?_enqueue, before, writesFor_append]
    by_cases same : wanted = draft.current
    · simp [writesFor, same]
    · simp [writesFor, same, Ne.symm same]
  tableNames := by
    have before := holds.tableNames
    rw [BatchDraft.tableNames] at before ⊢
    rw [BatchDraft.push, names_enqueue, before, List.map_append, List.eraseDups_append]
    simp only [List.mem_eraseDups]
    by_cases known : draft.current ∈ issued.map Prod.fst
    · simp [List.removeAll, known]
    · simp [List.removeAll, known, List.eraseDups_cons]
  size := by
    have before := holds.size
    rw [BatchDraft.size] at before ⊢
    rw [BatchDraft.push, length_enqueue, before, List.length_append, List.length_singleton]

theorem Holds.switchTo (holds : draft.Holds issued) (tableName : String) :
    (draft.switchTo tableName).Holds issued where
  writes := holds.writes
  tableNames := holds.tableNames
  size := holds.size

end BatchDraft

/-! ## Runs -/

/-- A step that succeeds queues what it issues for the current table, and nothing else. -/
theorem BatchStep.holds_run {issued : List (String × WriteRequest)} {step : BatchStep}
    {draft next : BatchDraft} (holds : draft.Holds issued) (ran : step.run draft = .ok next) :
    next.Holds (issued ++ step.write?.toList.map (draft.current, ·)) ∧
      next.current = step.tableAfter draft.current ∧
      (step.write? = none → ∃ tableName, step = .switchTo tableName) := by
  cases step with
  | switchTo tableName =>
      cases ran
      refine ⟨?_, rfl, fun _ => ⟨tableName, rfl⟩⟩
      rw [write?, Option.toList_none, List.map_nil, List.append_nil]
      exact holds.switchTo tableName
  | putItem item =>
      cases ran
      exact ⟨holds.push ⟨some item, none⟩, rfl, nofun⟩
  | deleteKey key =>
      cases ran
      exact ⟨holds.push ⟨none, some key⟩, rfl, nofun⟩
  | put native =>
      rcases BatchDraft.put_eq_ok_iff.mp ran with ⟨item, marshaled, rfl⟩
      rw [write?, marshaled]
      exact ⟨holds.push ⟨some item, none⟩, rfl, nofun⟩
  | delete native =>
      rcases BatchDraft.delete_eq_ok_iff.mp ran with ⟨key, marshaled, rfl⟩
      rw [write?, marshaled]
      exact ⟨holds.push ⟨none, some key⟩, rfl, nofun⟩

namespace BatchDraft

theorem holds_runAll : ∀ (steps : List BatchStep) {issued : List (String × WriteRequest)}
    {draft grown : BatchDraft}, draft.Holds issued → draft.runAll steps = .ok grown →
      grown.Holds (issued ++ BatchStep.issued draft.current steps) ∧
        ∀ step ∈ steps, step.write? = none → ∃ tableName, step = .switchTo tableName
  | [], issued, draft, grown, holds, ran => by
      cases ran
      rw [BatchStep.issued, List.append_nil]
      exact ⟨holds, nofun⟩
  | step :: rest, issued, draft, grown, holds, ran => by
      rcases MarshalError.bind_eq_ok_iff.mp ran with ⟨next, first, finished⟩
      rcases BatchStep.holds_run holds first with ⟨holdsNext, current, writes⟩
      rcases holds_runAll rest holdsNext finished with ⟨holdsGrown, restWrite⟩
      rw [List.append_assoc, current] at holdsGrown
      exact ⟨holdsGrown, List.forall_mem_cons.mpr ⟨writes, restWrite⟩⟩

/-! ## Names in the order of their first writes -/

/-- Without its repetitions a list is in the order in which its members occur first. -/
theorem pairwise_idxOf_eraseDups (names : List String) :
    names.eraseDups.Pairwise fun first second => names.idxOf first < names.idxOf second := by
  induction names using List.reverseRecOn with
  | nil => exact .nil
  | append_singleton names last induction =>
      have kept : names.eraseDups.Pairwise fun first second =>
          (names ++ [last]).idxOf first < (names ++ [last]).idxOf second := by
        apply induction.imp_of_mem
        intro first second firstKnown secondKnown before
        rw [List.idxOf_append_of_mem (List.mem_eraseDups.mp firstKnown),
          List.idxOf_append_of_mem (List.mem_eraseDups.mp secondKnown)]
        exact before
      rw [List.eraseDups_append]
      by_cases known : last ∈ names
      · simpa [List.removeAll, known] using kept
      · have once : ([last].removeAll names).eraseDups = [last] := by
          simp [List.removeAll, known, List.eraseDups_cons]
        rw [once, List.pairwise_append]
        refine ⟨kept, List.pairwise_singleton _ last, ?_⟩
        intro first firstKnown second isLast
        rw [List.mem_eraseDups] at firstKnown
        rw [List.mem_singleton.mp isLast, List.idxOf_append_of_mem firstKnown,
          List.idxOf_append_of_notMem known]
        exact Nat.lt_add_right _ (List.idxOf_lt_length_iff.mpr firstKnown)

theorem nodup_eraseDups (names : List String) : names.eraseDups.Nodup :=
  (pairwise_idxOf_eraseDups names).imp fun before same =>
    Nat.ne_of_lt before (congrArg names.idxOf same)

/-! ## Compiling -/

variable {issued : List (String × WriteRequest)} {draft : BatchDraft}

/-- The dictionary of a batch has the writes of each table that has any. -/
theorem Holds.get?_requestItems (holds : draft.Holds issued) (name : String) :
    draft.toBatchInput.requestItems.get? name =
      if writesFor name issued = [] then none else some (writesFor name issued) := by
  have listed : draft.tables.map Prod.fst = (issued.map Prod.fst).eraseDups := holds.tableNames
  have writes : (Dictionary.find? name draft.tables).getD [] = writesFor name issued :=
    holds.writes name
  have names : (draft.tables.map Prod.fst).Nodup := by
    rw [listed]
    exact nodup_eraseDups _
  have absent : Dictionary.find? name draft.tables = none ↔ writesFor name issued = [] := by
    rw [Dictionary.find?_eq_none_iff, listed, List.mem_eraseDups, writesFor_eq_nil_iff]
  rw [toBatchInput, Dictionary.get?_ofList_of_nodup names]
  cases found : Dictionary.find? name draft.tables with
  | none => rw [if_pos (absent.mp found)]
  | some group =>
      have written : writesFor name issued ≠ [] := by
        rw [Ne, ← absent, found]
        exact Option.some_ne_none group
      rw [found, Option.getD_some] at writes
      rw [if_neg written, writes]

theorem Holds.isEmpty_iff (holds : draft.Holds issued) :
    draft.isEmpty = true ↔ draft.size = 0 := by
  have listed : draft.tables.map Prod.fst = (issued.map Prod.fst).eraseDups := holds.tableNames
  rw [holds.size, isEmpty, List.isEmpty_iff, List.length_eq_zero_iff,
    ← List.map_eq_nil_iff (f := Prod.fst), listed]
  cases issued with
  | nil => simp
  | cons write rest => simp [List.eraseDups_cons]

/-- Drafts with the same writes for each table compile to the same request. -/
theorem Holds.compile_eq (holds : draft.Holds issued) {others : List (String × WriteRequest)}
    {other : BatchDraft} (otherHolds : other.Holds others)
    (same : ∀ name, writesFor name others = writesFor name issued) (overrides : Dictionary Json) :
    other.compile overrides = draft.compile overrides := by
  have items : other.toBatchInput.requestItems = draft.toBatchInput.requestItems := by
    apply Dictionary.ext_get?
    intro name
    rw [otherHolds.get?_requestItems, holds.get?_requestItems, same]
  have inputs : other.toBatchInput = draft.toBatchInput := congrArg BatchInput.mk items
  rw [compile, toInput, inputs]
  rfl

theorem mem_writesFor {name : String} {write : WriteRequest} :
    write ∈ writesFor name issued ↔ (name, write) ∈ issued := by
  simp [writesFor]

/-- After a run of steps a batch holds what the steps issued: for each table its writes in order,
the tables in the order of their first writes, and in the request each table with its writes. Two
runs that issue the same writes for each table compile to the same request. -/
theorem holds_and_compile_of_runAll {tableName : String} {steps : List BatchStep}
    {draft : BatchDraft} (ran : (start tableName).runAll steps = .ok draft) :
    (∀ step ∈ steps, step.write? = none → ∃ other, step = .switchTo other) ∧
      (∀ name, draft.writes name = writesFor name (BatchStep.issued tableName steps)) ∧
      (∀ name, ∀ write ∈ draft.writes name,
        ∃ item, write = ⟨some item, none⟩ ∨ write = ⟨none, some item⟩) ∧
      draft.tableNames.Nodup ∧
      (∀ name, name ∈ draft.tableNames ↔
        ∃ write, (name, write) ∈ BatchStep.issued tableName steps) ∧
      (draft.tableNames.Pairwise fun first second =>
        ((BatchStep.issued tableName steps).map Prod.fst).idxOf first <
          ((BatchStep.issued tableName steps).map Prod.fst).idxOf second) ∧
      draft.size = (BatchStep.issued tableName steps).length ∧
      (draft.isEmpty = true ↔ draft.size = 0) ∧
      (∃ items : Dictionary (List WriteRequest),
        (draft.compile .empty).toJson =
            .object [("RequestItems", .ofDictionary (items.map BatchInput.writesToJson))] ∧
          ∀ name, items.get? name =
            if name ∈ draft.tableNames then some (draft.writes name) else none) ∧
      ∀ (otherName : String) (others : List BatchStep) (other : BatchDraft),
        (start otherName).runAll others = .ok other →
          (∀ name, writesFor name (BatchStep.issued otherName others) =
            writesFor name (BatchStep.issued tableName steps)) →
          ∀ overrides, other.compile overrides = draft.compile overrides := by
  rcases holds_runAll steps (holds_start tableName) ran with ⟨holds, writing⟩
  rw [List.nil_append] at holds
  change draft.Holds (BatchStep.issued tableName steps) at holds
  have known (name : String) : name ∈ draft.tableNames ↔
      name ∈ (BatchStep.issued tableName steps).map Prod.fst := by
    rw [holds.tableNames, List.mem_eraseDups]
  refine ⟨writing, holds.writes, ?_, ?_, ?_, ?_, holds.size, ?_, ?_, ?_⟩
  · intro name write member
    rw [holds.writes, mem_writesFor] at member
    exact BatchStep.exists_item_of_mem_issued member
  · rw [holds.tableNames]
    exact nodup_eraseDups _
  · intro name
    rw [known, List.mem_map]
    constructor
    · rintro ⟨write, member, rfl⟩
      exact ⟨write.2, member⟩
    · rintro ⟨write, member⟩
      exact ⟨(name, write), member, rfl⟩
  · rw [holds.tableNames]
    exact pairwise_idxOf_eraseDups _
  · exact holds.isEmpty_iff
  · refine ⟨draft.toBatchInput.requestItems, rfl, ?_⟩
    intro name
    rw [holds.get?_requestItems, holds.writes]
    by_cases written : name ∈ draft.tableNames
    · have issuedFor : writesFor name (BatchStep.issued tableName steps) ≠ [] :=
        mt writesFor_eq_nil_iff.mp (not_not_intro ((known name).mp written))
      rw [if_pos written, if_neg issuedFor]
    · rw [if_neg written, if_pos (writesFor_eq_nil_iff.mpr (mt (known name).mpr written))]
  · intro otherName others other otherRan same overrides
    have otherHolds := (holds_runAll others (holds_start otherName) otherRan).1
    exact holds.compile_eq otherHolds same overrides

/-- Two tables take turns. -/
def inTurns : List BatchStep :=
  [.put (.json (.object [("id", .ofInteger ⟨1, by decide⟩)])), .switchTo "scores",
    .delete (.map [(.char 'x', .char 'y')]), .switchTo "games", .deleteKey .empty]

/-- The same writes for each table, those of the second one first. -/
def oneAfterTheOther : List BatchStep :=
  [.delete (.map [(.char 'x', .char 'y')]), .switchTo "games",
    .put (.json (.object [("id", .ofInteger ⟨1, by decide⟩)])), .deleteKey .empty]

theorem compile_eq_of_inTurns :
    ∃ draft other, (start "games").runAll inTurns = .ok draft ∧
      (start "scores").runAll oneAfterTheOther = .ok other ∧
      draft.tableNames = ["games", "scores"] ∧ other.tableNames = ["scores", "games"] ∧
      ∀ overrides, other.compile overrides = draft.compile overrides := by
  refine ⟨_, _, rfl, rfl, rfl, rfl, ?_⟩
  have ran : (start "games").runAll inTurns = .ok _ := rfl
  rcases holds_and_compile_of_runAll ran with ⟨_, _, _, _, _, _, _, _, _, sameRequest⟩
  apply sameRequest "scores" oneAfterTheOther _ rfl
  intro name
  by_cases games : "games" = name
  · subst games
    rfl
  · by_cases scores : "scores" = name
    · subst scores
      rfl
    · have others : writesFor name (BatchStep.issued "scores" oneAfterTheOther) = [] := by
        apply writesFor_eq_nil_iff.mpr
        change name ∉ ["scores", "games", "games"]
        simp [Ne.symm games, Ne.symm scores]
      have first : writesFor name (BatchStep.issued "games" inTurns) = [] := by
        apply writesFor_eq_nil_iff.mpr
        change name ∉ ["games", "scores", "games"]
        simp [Ne.symm games, Ne.symm scores]
      rw [others, first]

end BatchDraft

end ItemQuery
