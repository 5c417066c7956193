import ItemQuery.Proofs.Phrase

/-!
Lexemes: a text cut into marks and the words between them.

The marks are the blank, the two parentheses and the comma. A word is a longest run of other
characters. The text of a phrase is cut into the lexemes that `Phrase.lexemes` lists
(`Lexeme.ofText_text`), provided that its attributes and placeholders are words.
-/

namespace ItemQuery

inductive Lexeme
  | word (letters : List Char)
  | blank
  | opening
  | closing
  | comma
deriving DecidableEq

namespace Lexeme

def ofMark? : Char → Option Lexeme
  | ' ' => some .blank
  | '(' => some .opening
  | ')' => some .closing
  | ',' => some .comma
  | _ => none

/-- Cut a text into lexemes. -/
def ofText : List Char → List Lexeme
  | [] => []
  | char :: rest =>
      match ofMark? char with
      | some mark => mark :: ofText rest
      | none =>
          match ofText rest with
          | .word letters :: more => .word (char :: letters) :: more
          | more => .word [char] :: more

example : ofText "a in (:p1)".toList =
    [.word ['a'], .blank, .word ['i', 'n'], .blank, .opening, .word [':', 'p', '1'],
      .closing] := by decide

/-- A text that can be a word: not empty, and without marks. -/
def IsWord (letters : List Char) : Prop :=
  letters ≠ [] ∧ ∀ char ∈ letters, ofMark? char = none

instance (letters : List Char) : Decidable (IsWord letters) :=
  have := List.decidableBAll (fun char => ofMark? char = none) letters
  inferInstanceAs (Decidable (_ ∧ _))

/-- Whether a text ends a word that stands before it, by its end or by a mark. -/
def EndsWord : List Char → Prop
  | [] => True
  | char :: _ => ofMark? char ≠ none

instance (text : List Char) : Decidable (EndsWord text) :=
  match text with
  | [] => isTrue trivial
  | _ :: _ => inferInstanceAs (Decidable (_ ≠ _))

theorem ofText_mark {char : Char} {mark : Lexeme} (isMark : ofMark? char = some mark)
    (rest : List Char) : ofText (char :: rest) = mark :: ofText rest := by
  simp [ofText, isMark]

@[simp] theorem ofText_nil : ofText [] = [] := rfl

@[simp] theorem ofText_blank (rest : List Char) : ofText (' ' :: rest) = .blank :: ofText rest :=
  rfl

@[simp] theorem ofText_opening (rest : List Char) :
    ofText ('(' :: rest) = .opening :: ofText rest := rfl

@[simp] theorem ofText_closing (rest : List Char) :
    ofText (')' :: rest) = .closing :: ofText rest := rfl

@[simp] theorem ofText_comma (rest : List Char) : ofText (',' :: rest) = .comma :: ofText rest :=
  rfl

@[simp] theorem endsWord_blank (rest : List Char) : EndsWord (' ' :: rest) := by
  simp [EndsWord, ofMark?]

@[simp] theorem endsWord_opening (rest : List Char) : EndsWord ('(' :: rest) := by
  simp [EndsWord, ofMark?]

@[simp] theorem endsWord_closing (rest : List Char) : EndsWord (')' :: rest) := by
  simp [EndsWord, ofMark?]

@[simp] theorem endsWord_comma (rest : List Char) : EndsWord (',' :: rest) := by
  simp [EndsWord, ofMark?]

theorem ofText_of_endsWord {rest : List Char} (ends : EndsWord rest) (letters : List Char)
    (more : List Lexeme) : ofText rest ≠ .word letters :: more := by
  cases rest with
  | nil => simp [ofText]
  | cons char rest =>
      rcases Option.ne_none_iff_exists'.mp ends with ⟨mark, isMark⟩
      rw [ofText_mark isMark]
      intro equal
      injection equal with isWord _
      subst isWord
      unfold ofMark? at isMark
      split at isMark <;> simp at isMark

theorem ofText_word {letters : List Char} (isWord : IsWord letters) {rest : List Char}
    (ends : EndsWord rest) : ofText (letters ++ rest) = .word letters :: ofText rest := by
  rcases isWord with ⟨nonempty, plain⟩
  induction letters with
  | nil => exact absurd rfl nonempty
  | cons char letters induction =>
      have notMark : ofMark? char = none := plain char (by simp)
      cases letters with
      | nil =>
          simp only [List.cons_append, List.nil_append, ofText, notMark]
          split
          · next letters more equal => exact absurd equal (ofText_of_endsWord ends letters more)
          · rfl
      | cons next letters =>
          have tail := induction (by simp) fun other member =>
            plain other (List.mem_cons_of_mem _ member)
          rw [List.cons_append, ofText, notMark]
          simp only [tail]

end Lexeme

end ItemQuery
