import ItemQuery.Proofs.Phrase.Reader

/-!
Conditions can be read in one way only.

The text of a condition gives back the kind, the attribute and the placeholders of each predicate,
the grouping, and the connectives between entries, at any depth and through any fragment. Two
conditions have the same text exactly when they agree in all this. What a text does not show is the
connective of a first entry and of the condition itself, the values that are bound, and whether a
part was captured.
-/

namespace ItemQuery

/-- Whether an attribute or alias has at least one character, and none that has a meaning of its own
in the text of a condition. -/
def PlainKey (key : String) : Prop :=
  key ≠ "" ∧ ∀ char ∈ key.toList, char ∉ [' ', '(', ')', ',', ':']

instance (key : String) : Decidable (PlainKey key) :=
  have := List.decidableBAll (fun char => char ∉ [' ', '(', ')', ',', ':']) key.toList
  inferInstanceAs (Decidable (_ ∧ _))

namespace Lexeme

theorem ofMark?_eq_none {char : Char} (plain : char ∉ [' ', '(', ')', ',']) :
    ofMark? char = none := by
  unfold ofMark?
  split <;> simp_all

theorem isWord_of_plainKey {key : String} (plain : PlainKey key) : IsWord key.toList := by
  rcases plain with ⟨nonempty, noMarks⟩
  constructor
  · simpa using nonempty
  · intro char member
    have noMark := noMarks char member
    exact ofMark?_eq_none (by simp_all)

/-- The token of a valid placeholder is one word: its colon is no mark, and neither are the
characters of its name. -/
theorem isWord_token {placeholder : Placeholder} (valid : placeholder.Valid) :
    IsWord placeholder.token.toList := by
  constructor
  · simp [Placeholder.token]
  · intro char member
    apply ofMark?_eq_none
    intro isMark
    rcases List.mem_cons.mp (show char ∈ ':' :: placeholder.name.toList by
      simpa [Placeholder.token] using member) with rfl | inName
    · simp at isMark
    · have isToken := valid char inName
      have noMarks : [' ', '(', ')', ','].all (fun mark => !Config.isTokenChar mark) = true := by
        decide
      have noToken := List.all_eq_true.mp noMarks char isMark
      simp [isToken] at noToken

end Lexeme

namespace Expression

/-- Whether all predicates of an expression, at any depth, are valid and test plain attributes. -/
def Plain (expression : Expression) : Prop :=
  ∀ predicate ∈ expression.predicates, predicate.Valid ∧ PlainKey predicate.key

theorem mem_predicatesOfAll {predicate : Predicate} {entries : List Expression} :
    predicate ∈ predicatesOfAll entries ↔ ∃ entry ∈ entries, predicate ∈ entry.predicates := by
  induction entries with
  | nil => simp [predicatesOfAll]
  | cons entry rest induction => simp [predicatesOfAll, induction]

theorem readable_predicate {predicate : Predicate} (valid : predicate.Valid)
    (plain : PlainKey predicate.key) :
    (Phrase.predicate predicate.kind predicate.key predicate.placeholders).Readable :=
  ⟨Lexeme.isWord_of_plainKey plain,
    fun placeholder member => Lexeme.isWord_token (valid.placeholders placeholder member),
    valid.shows⟩

mutual
theorem readable_phrase : ∀ expression : Expression, expression.Plain →
    expression.phrase.Readable
  | .predicate simple, plain =>
      have simplePlain := plain simple (by simp [predicates])
      readable_predicate simplePlain.1 simplePlain.2
  | .group _ entries, plain => readable_phraseOfAll entries plain
  | .captured _ source, plain => readable_phrase source plain

theorem readable_phraseOfAll : ∀ entries : List Expression,
    (∀ predicate ∈ predicatesOfAll entries, predicate.Valid ∧ PlainKey predicate.key) →
      (phraseOfAll entries).Readable
  | [], _ => trivial
  | first :: rest, plain =>
      ⟨readable_phrase first fun predicate member =>
          plain predicate (List.mem_append_left _ member),
        readable_phrasesOfRest rest fun predicate member =>
          plain predicate (List.mem_append_right _ member)⟩

theorem readable_phrasesOfRest : ∀ rest : List Expression,
    (∀ predicate ∈ predicatesOfAll rest, predicate.Valid ∧ PlainKey predicate.key) →
      Phrase.ReadableRest (phrasesOfRest rest)
  | [], _ => trivial
  | expression :: rest, plain =>
      ⟨readable_phrase expression fun predicate member =>
          plain predicate (List.mem_append_left _ member),
        readable_phrasesOfRest rest fun predicate member =>
          plain predicate (List.mem_append_right _ member)⟩
end

end Expression

def Condition.ofExpressions (joined : Connective) (entries : List Expression) : Condition :=
  ⟨joined, Expression.toEntries entries⟩

namespace Condition

theorem render_ofExpressions (joined : Connective) (entries : List Expression) :
    (ofExpressions joined entries).render = (Expression.phraseOfAll entries).text :=
  Expression.render_toEntry (.group joined entries)

theorem read?_render_ofExpressions (joined : Connective) (entries : List Expression)
    (plain : ∀ expression ∈ entries, expression.Plain) :
    Phrase.read? (ofExpressions joined entries).render = some (Expression.phraseOfAll entries) := by
  rw [render_ofExpressions]
  apply Phrase.read?_text
  apply Expression.readable_phraseOfAll
  intro predicate member
  rcases Expression.mem_predicatesOfAll.mp member with ⟨entry, present, inEntry⟩
  exact plain entry present predicate inEntry

end Condition

/-- The text of a condition gives back what the condition says, and nothing that two conditions of
one text could differ in. -/
theorem read?_render_and_render_eq_iff (joined other : Connective)
    (entries others : List Expression) (plain : ∀ expression ∈ entries, expression.Plain)
    (othersPlain : ∀ expression ∈ others, expression.Plain) :
    Phrase.read? (Condition.ofExpressions joined entries).render =
        some (Expression.phraseOfAll entries) ∧
      ((Condition.ofExpressions joined entries).render =
          (Condition.ofExpressions other others).render ↔
        Expression.phraseOfAll entries = Expression.phraseOfAll others) := by
  have reads := Condition.read?_render_ofExpressions joined entries plain
  have othersRead := Condition.read?_render_ofExpressions other others othersPlain
  refine ⟨reads, fun sameText => ?_, fun samePhrase => ?_⟩
  · rw [sameText, othersRead] at reads
    exact (Option.some.inj reads).symm
  · rw [Condition.render_ofExpressions, Condition.render_ofExpressions, samePhrase]

/-! ## A condition whose attributes are words of the grammar -/

theorem Predicate.valid_of_default {issued : Nat} {kind : PredicateKind} {key : String}
    {operand : Operand} {connective : Connective} {after : Supply} {predicate : Predicate}
    (created : (create ⟨"p", .sequence 0⟩ kind key operand connective).run
      ⟨1, fun _ => issued, 0, fun _ => ""⟩ = .ok predicate after) :
    predicate.Valid := by
  apply Valid.created ⟨Config.default, rfl, rfl⟩ _ created
  intro number char member
  simp at member

def keywordPredicates : List Predicate :=
  [⟨.eq, "in", .and, [(⟨"p1"⟩, .bool true)]⟩,
    ⟨.within, "and", .or, [(⟨"p2"⟩, .null true), (⟨"p3"⟩, .bool false)]⟩,
    ⟨.contains, "contains", .or, [(⟨"p4"⟩, .string "or")]⟩]

theorem plain_of_mem_keywordPredicates :
    ∀ predicate ∈ keywordPredicates, predicate.Valid ∧ PlainKey predicate.key := by
  have plainKeys : ∀ predicate ∈ keywordPredicates, PlainKey predicate.key := by decide
  intro predicate member
  refine ⟨?_, plainKeys predicate member⟩
  simp only [keywordPredicates, List.mem_cons, List.not_mem_nil, or_false] at member
  rcases member with rfl | rfl | rfl
  · exact @Predicate.valid_of_default 0 .eq "in" (.scalar (.bool true)) .and _ _ rfl
  · exact @Predicate.valid_of_default 1 .within "and" (.collection [.null true, .bool false]) .or
      _ _ rfl
  · exact @Predicate.valid_of_default 3 .contains "contains" (.scalar (.string "or")) .or _ _ rfl

/-- A predicate, a fragment of a group that ends in an empty group, and a group of one fragment. -/
def keywordEntries : List Expression :=
  match keywordPredicates with
  | [equality, membership, search] =>
      [.predicate equality,
        .captured .or (.group .and [.predicate membership, .group .or []]),
        .group .and [.captured .or (.predicate search)]]
  | _ => []

/-- The same without fragments, and with other connectives wherever no text shows them. -/
def keywordGroups : List Expression :=
  match keywordPredicates with
  | [equality, membership, search] =>
      [.predicate (equality.withConnective .or),
        .group .or [.predicate (membership.withConnective .and), .group .or []],
        .group .and [.predicate (search.withConnective .and)]]
  | _ => []

example : (Condition.ofExpressions .and keywordEntries).render =
    "(in = :p1 or (and in (:p2,:p3) or ()) and (contains(contains, :p4)))" := by decide

theorem plain_of_mem_keywordEntries : ∀ expression ∈ keywordEntries, expression.Plain := by
  intro expression member predicate inside
  apply plain_of_mem_keywordPredicates
  revert predicate expression
  decide

theorem plain_of_mem_keywordGroups : ∀ expression ∈ keywordGroups, expression.Plain := by
  have rejoined : ∀ expression ∈ keywordGroups, ∀ predicate ∈ expression.predicates,
      ∃ source ∈ keywordPredicates, predicate = source.withConnective predicate.connective := by
    decide
  intro expression member predicate inside
  rcases rejoined expression member predicate inside with ⟨source, known, equal⟩
  rcases plain_of_mem_keywordPredicates source known with ⟨valid, plainKey⟩
  rw [equal]
  exact ⟨valid.joined _, plainKey⟩

/-- The text keeps what the two conditions share and shows nothing of what they differ in. -/
theorem read?_render_and_render_eq_of_keywords :
    (∀ expression ∈ keywordEntries, expression.Plain) ∧
      (∀ expression ∈ keywordGroups, expression.Plain) ∧
      Phrase.read? (Condition.ofExpressions .and keywordEntries).render =
        some (Expression.phraseOfAll keywordEntries) ∧
      (Condition.ofExpressions .and keywordEntries).render =
        (Condition.ofExpressions .or keywordGroups).render := by
  rcases read?_render_and_render_eq_iff .and .or keywordEntries keywordGroups
    plain_of_mem_keywordEntries plain_of_mem_keywordGroups with ⟨reads, sameText⟩
  have samePhrase : Expression.phraseOfAll keywordEntries = Expression.phraseOfAll keywordGroups :=
    rfl
  exact ⟨plain_of_mem_keywordEntries, plain_of_mem_keywordGroups, reads, sameText.mpr samePhrase⟩

end ItemQuery
