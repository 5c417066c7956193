import ItemQuery.ReadDraft.Script
import ItemQuery.Proofs.Phrase
import ItemQuery.Proofs.Draw

/-!
What a script of filter steps says.

A script is read as clauses: its names are resolved and its operands are checked, up to the first
step that cannot be run. The clauses are translated on their own, without any draft. A test is a
phrase with the next numbers for its values, a group is the phrase of its clauses in parentheses,
and a group of nothing is dropped.
-/

namespace ItemQuery

/-! ## Scripts and clauses -/

/-- A step that only adds to a filter, and takes in nothing. -/
inductive FilterStep
  | restrict (connective : Connective) (kind : PredicateKind) (key : String) (operand : Operand)
  | call (verbName key : String) (operand : Operand)
  | apply (specification : Specification)
  | group (connective : Connective) (steps : List FilterStep)

/-- What a step adds: a test of an attribute, or a group of what its script adds. -/
inductive Clause
  | test (connective : Connective) (kind : PredicateKind) (key : String) (operand : Operand)
  | group (connective : Connective) (clauses : List Clause)

mutual
def FilterStep.toStep : FilterStep → ReadStep
  | .restrict connective kind key operand => .restrict connective kind key operand
  | .call verbName key operand => .call verbName key operand
  | .apply specification => .apply specification
  | .group connective steps => .group connective (toSteps steps)

def FilterStep.toSteps : List FilterStep → List ReadStep
  | [] => []
  | step :: rest => step.toStep :: toSteps rest
end

/-- A test with an operand of its kind. -/
def Clause.ofTest (connective : Connective) (kind : PredicateKind) (key : String)
    (operand : Operand) : Except QueryError Clause :=
  match operand.mismatch? kind with
  | some mismatch => .error (.operand kind mismatch)
  | none => .ok (.test connective kind key operand)

mutual
/-- What a step adds, or why it adds nothing. -/
def FilterStep.clause : FilterStep → Except QueryError Clause
  | .restrict connective kind key operand => Clause.ofTest connective kind key operand
  | .call verbName key operand =>
      match Verb.ofName verbName with
      | .ok verb => Clause.ofTest verb.connective verb.kind key operand
      | .error error => .error error
  | .apply specification =>
      match PredicateKind.ofName? specification.kindName.toList with
      | some kind =>
          Clause.ofTest specification.connective kind specification.key
            (.ofJson specification.value)
      | none => .error (.unknownKind specification.kindName)
  | .group connective steps =>
      match clauses steps with
      | .ok inner => .ok (.group connective inner)
      | .error error => .error error

/-- What a script adds, or the error of the first step that adds nothing. -/
def FilterStep.clauses : List FilterStep → Except QueryError (List Clause)
  | [] => .ok []
  | step :: rest =>
      match step.clause with
      | .error error => .error error
      | .ok clause =>
          match clauses rest with
          | .ok others => .ok (clause :: others)
          | .error error => .error error
end

mutual
/-- The operands of a clause from left to right, at any depth. -/
def Clause.operands : Clause → List Operand
  | .test _ _ _ operand => [operand]
  | .group _ clauses => operandsOfAll clauses

def Clause.operandsOfAll : List Clause → List Operand
  | [] => []
  | clause :: rest => clause.operands ++ operandsOfAll rest
end

/-- The values of a clause from left to right. -/
def Clause.values (clause : Clause) : List AttributeValue := clause.operands.flatMap Operand.values

def Clause.valuesOfAll (clauses : List Clause) : List AttributeValue :=
  (operandsOfAll clauses).flatMap Operand.values

theorem Clause.valuesOfAll_cons (clause : Clause) (rest : List Clause) :
    valuesOfAll (clause :: rest) = clause.values ++ valuesOfAll rest := by
  simp [valuesOfAll, values, operandsOfAll]

theorem Clause.valuesOfAll_singleton (clause : Clause) : valuesOfAll [clause] = clause.values := by
  simp [valuesOfAll, values, operandsOfAll]

/-! ## Translation -/

/-- The placeholders of so many numbers above some number. -/
def Mint.numbersAbove (mint : Mint) (number count : Nat) : List Placeholder :=
  (List.range' (number + 1) count).map mint.numbered

/-- The phrase of several phrases in parentheses, if there are any. -/
def Phrase.ofJoined? : List (Connective × Phrase) → Option Phrase
  | [] => none
  | (_, first) :: rest => some (.group first rest)

mutual
/-- What a clause says, its values being numbered on from some number. This is at most one phrase,
and a group of nothing says nothing. -/
def Clause.phrases (mint : Mint) : Clause → Nat → List (Connective × Phrase)
  | .test connective kind key operand, number =>
      [(connective, .predicate kind key (mint.numbersAbove number operand.values.length))]
  | .group connective clauses, number =>
      match Phrase.ofJoined? (phrasesOfAll mint clauses number) with
      | some phrase => [(connective, phrase)]
      | none => []

def Clause.phrasesOfAll (mint : Mint) : List Clause → Nat → List (Connective × Phrase)
  | [], _ => []
  | clause :: rest, number =>
      clause.phrases mint number ++ phrasesOfAll mint rest (number + clause.values.length)
end

mutual
/-- The placeholders of a phrase in the order in which they stand in its text. -/
def Phrase.placeholders : Phrase → List Placeholder
  | .predicate _ _ placeholders => placeholders
  | .emptyGroup => []
  | .group first rest => first.placeholders ++ placeholdersOfRest rest

def Phrase.placeholdersOfRest : List (Connective × Phrase) → List Placeholder
  | [] => []
  | (_, phrase) :: rest => phrase.placeholders ++ placeholdersOfRest rest
end

theorem Phrase.ofJoined?_eq_none {said : List (Connective × Phrase)} :
    ofJoined? said = none ↔ said = [] := by
  cases said <;> simp [ofJoined?]

theorem Phrase.placeholdersOfRest_append (first second : List (Connective × Phrase)) :
    placeholdersOfRest (first ++ second) =
      placeholdersOfRest first ++ placeholdersOfRest second := by
  induction first with
  | nil => rfl
  | cons head rest induction => simp [placeholdersOfRest, induction]

/-! ## Numbers -/

namespace Mint

theorem numbersAbove_append (mint : Mint) (number first second : Nat) :
    mint.numbersAbove number (first + second) =
      mint.numbersAbove number first ++ mint.numbersAbove (number + first) second := by
  unfold numbersAbove
  rw [← List.map_append, Nat.add_right_comm number first 1, List.range'_append_1]

theorem numbersAbove_succ (mint : Mint) (number count : Nat) :
    mint.numbersAbove number (count + 1) =
      mint.numbered (number + 1) :: mint.numbersAbove (number + 1) count := by
  rw [numbersAbove, List.range'_succ]
  rfl

theorem length_numbersAbove (mint : Mint) (number count : Nat) :
    (mint.numbersAbove number count).length = count := by
  simp [numbersAbove]

/-- Values with the placeholders of the numbers above some number. -/
def boundAbove (mint : Mint) (number : Nat) (values : List AttributeValue) :
    List (Placeholder × AttributeValue) :=
  (mint.numbersAbove number values.length).zip values

theorem boundAbove_append (mint : Mint) (number : Nat) (first second : List AttributeValue) :
    mint.boundAbove number (first ++ second) =
      mint.boundAbove number first ++ mint.boundAbove (number + first.length) second := by
  unfold boundAbove
  rw [List.length_append, numbersAbove_append,
    List.zip_append (mint.length_numbersAbove number first.length)]

theorem placeholders_boundAbove (mint : Mint) (number : Nat) (values : List AttributeValue) :
    (mint.boundAbove number values).map Prod.fst = mint.numbersAbove number values.length :=
  List.map_fst_zip (Nat.le_of_eq (mint.length_numbersAbove number values.length))

theorem getElem?_boundAbove (mint : Mint) (number index : Nat) (values : List AttributeValue) :
    (mint.boundAbove number values)[index]? =
      values[index]?.map fun value => (mint.numbered (number + index + 1), value) := by
  induction values generalizing number index with
  | nil => rfl
  | cons value rest induction =>
      rw [boundAbove, List.length_cons, numbersAbove_succ, List.zip_cons_cons]
      cases index with
      | zero => rfl
      | succ index =>
          rw [List.getElem?_cons_succ, List.getElem?_cons_succ, ← boundAbove, induction,
            Nat.add_assoc number 1 index, Nat.add_comm 1 index]

/-- A mint on a sequence binds values to the numbers that come next. -/
theorem run_bindAll_of_sequence {mint : Mint} {sequence : Nat}
    (onSequence : mint.source = .sequence sequence) :
    ∀ (values : List AttributeValue) (before : Supply), ∃ after,
      (mint.bindAll values).run before =
          .ok (mint.boundAbove (before.issued sequence) values) after ∧
        after.issued sequence = before.issued sequence + values.length
  | [], before => ⟨before, rfl, rfl⟩
  | value :: rest, before => by
      rcases run_bindAll_of_sequence onSequence rest (before.advance sequence) with
        ⟨after, ran, counted⟩
      have advanced : (before.advance sequence).issued sequence = before.issued sequence + 1 := by
        simp [Supply.advance]
      rw [advanced] at ran counted
      refine ⟨after, ?_, ?_⟩
      · simp only [bindAll, EStateM.run_bind, run_next_of_sequence onSequence, ran,
          EStateM.run_pure]
        simp only [boundAbove, List.length_cons, numbersAbove_succ, List.zip_cons_cons]
      · rw [counted, List.length_cons]
        omega

end Mint

end ItemQuery
