import ItemQuery.Proofs.Phrase.Lexeme
import ItemQuery.Proofs.Predicate

/-!
Reading phrases.

A reader goes over the lexemes of a text once, from left to right, and keeps the groups that are
open. What it reads from the text of a phrase is that phrase (`Phrase.read?_text`), as long as the
attributes and placeholders are words and every predicate has as many placeholders as its kind
shows.
-/

namespace ItemQuery

/-! ## The three forms of predicates -/

/-- How the text of a predicate is laid out around its attribute and its placeholders. -/
inductive PredicateKind.Form
  | comparison (sign : String)
  | function (name : String)
  | membership
deriving DecidableEq

namespace PredicateKind

def form : PredicateKind → Form
  | .eq => .comparison "="
  | .notEq => .comparison "<>"
  | .gt => .comparison ">"
  | .gtEq => .comparison ">="
  | .lt => .comparison "<"
  | .ltEq => .comparison "<="
  | .contains => .function "contains"
  | .beginsWith => .function "begins_with"
  | .within => .membership

/-- The kind whose predicates are laid out in some form. -/
def ofForm? (form : Form) : Option PredicateKind := all.find? fun kind => kind.form = form

@[simp] theorem ofForm?_form (kind : PredicateKind) : ofForm? kind.form = some kind := by
  cases kind <;> decide

end PredicateKind

theorem Predicate.renderKind_eq (kind : PredicateKind) (key : String) (tokens : List String) :
    renderKind kind key tokens =
      match kind.form with
      | .comparison sign => key ++ " " ++ sign ++ " " ++ tokens.headD ""
      | .function name => name ++ "(" ++ key ++ ", " ++ tokens.headD "" ++ ")"
      | .membership => key ++ " in (" ++ String.intercalate "," tokens ++ ")" := by
  cases kind <;> simp [renderKind, PredicateKind.form, String.append_assoc]

namespace Phrase

/-! ## The reader -/

/-- A group that is being read, up to the place of its next entry: nothing yet, or a first entry,
later ones, and the connective that the next one is joined by. -/
inductive Frame
  | fresh
  | joining (first : Phrase) (later : List (Connective × Phrase)) (connective : Connective)

/-- The entries of a group after one more. -/
def Frame.accept : Frame → Phrase → Phrase × List (Connective × Phrase)
  | .fresh, phrase => (phrase, [])
  | .joining first later joined, phrase => (first, later ++ [(joined, phrase)])

/-- Where the reader stands: before an entry, before a placeholder of a list, or behind a phrase. -/
inductive Place
  | entry
  | member (key : String) (earlier : List Placeholder)
  | behind (phrase : Phrase)

def placeholder? : List Char → Option Placeholder
  | ':' :: name => some ⟨.ofList name⟩
  | _ => none

@[simp] theorem placeholder?_token (placeholder : Placeholder) :
    placeholder? placeholder.token.toList = some placeholder := by
  simp [Placeholder.token, placeholder?]

/-- Read lexemes to their end. The frames are the groups that are open, the innermost first. -/
def read : Place → List Frame → List Lexeme → Option Phrase
  | .entry, frames, .opening :: rest => read .entry (.fresh :: frames) rest
  | .entry, .fresh :: frames, .closing :: rest => read (.behind .emptyGroup) frames rest
  | .entry, frames, .word key :: .blank :: .word ['i', 'n'] :: .blank :: .opening :: rest =>
      read (.member (.ofList key) []) frames rest
  | .entry, frames, .word key :: .blank :: .word sign :: .blank :: .word token :: rest => do
      let kind ← PredicateKind.ofForm? (.comparison (.ofList sign))
      let placeholder ← placeholder? token
      read (.behind (.predicate kind (.ofList key) [placeholder])) frames rest
  | .entry, frames,
      .word name :: .opening :: .word key :: .comma :: .blank :: .word token :: .closing ::
        rest => do
      let kind ← PredicateKind.ofForm? (.function (.ofList name))
      let placeholder ← placeholder? token
      read (.behind (.predicate kind (.ofList key) [placeholder])) frames rest
  | .member key earlier, frames, .word token :: .comma :: rest => do
      let placeholder ← placeholder? token
      read (.member key (earlier ++ [placeholder])) frames rest
  | .member key earlier, frames, .word token :: .closing :: rest => do
      let placeholder ← placeholder? token
      read (.behind (.predicate .within key (earlier ++ [placeholder]))) frames rest
  | .behind phrase, [], [] => some phrase
  | .behind phrase, frame :: frames, .closing :: rest =>
      read (.behind (.group (frame.accept phrase).1 (frame.accept phrase).2)) frames rest
  | .behind phrase, frame :: frames, .blank :: .word word :: .blank :: rest => do
      let joined ← Connective.ofText? (.ofList word)
      read .entry (.joining (frame.accept phrase).1 (frame.accept phrase).2 joined :: frames) rest
  | _, _, _ => none

/-- The phrase that a text is, if it is one. -/
def read? (text : String) : Option Phrase := read .entry [] (Lexeme.ofText text.toList)

/-! ## The lexemes of a phrase -/

def lexemesOfTokens : List Placeholder → List Lexeme
  | [] => []
  | [last] => [.word last.token.toList]
  | next :: later => .word next.token.toList :: .comma :: lexemesOfTokens later

def lexemesOfPredicate (kind : PredicateKind) (key : String) (placeholders : List Placeholder) :
    List Lexeme :=
  let first := ((placeholders.map Placeholder.token).headD "").toList
  match kind.form with
  | .comparison sign => [.word key.toList, .blank, .word sign.toList, .blank, .word first]
  | .function name =>
      [.word name.toList, .opening, .word key.toList, .comma, .blank, .word first, .closing]
  | .membership =>
      [.word key.toList, .blank, .word ['i', 'n'], .blank, .opening] ++
        lexemesOfTokens placeholders ++ [.closing]

mutual
def lexemes : Phrase → List Lexeme
  | .predicate kind key placeholders => lexemesOfPredicate kind key placeholders
  | .emptyGroup => [.opening, .closing]
  | .group first rest => .opening :: (first.lexemes ++ lexemesOfRest rest) ++ [.closing]

def lexemesOfRest : List (Connective × Phrase) → List Lexeme
  | [] => []
  | (joined, phrase) :: rest =>
      [.blank, .word joined.text.toList, .blank] ++ phrase.lexemes ++ lexemesOfRest rest
end

mutual
/-- A phrase whose parts can be told apart: its attributes and tokens are words, and each predicate
has as many placeholders as its kind shows. -/
def Readable : Phrase → Prop
  | .predicate kind key placeholders =>
      Lexeme.IsWord key.toList ∧
        (∀ placeholder ∈ placeholders, Lexeme.IsWord placeholder.token.toList) ∧
        kind.Shows placeholders.length
  | .emptyGroup => True
  | .group first rest => first.Readable ∧ ReadableRest rest

def ReadableRest : List (Connective × Phrase) → Prop
  | [] => True
  | (_, phrase) :: rest => phrase.Readable ∧ ReadableRest rest
end

/-! ## Cutting the text of a phrase -/

theorem ofText_tokens {placeholders : List Placeholder} (nonempty : placeholders ≠ [])
    (words : ∀ placeholder ∈ placeholders, Lexeme.IsWord placeholder.token.toList)
    {rest : List Char} (ends : Lexeme.EndsWord rest) :
    Lexeme.ofText
        ((String.intercalate "," (placeholders.map Placeholder.token)).toList ++ rest) =
      lexemesOfTokens placeholders ++ Lexeme.ofText rest := by
  induction placeholders with
  | nil => exact absurd rfl nonempty
  | cons next later induction =>
      have nextIsWord := words next (by simp)
      cases later with
      | nil => simpa [lexemesOfTokens] using Lexeme.ofText_word nextIsWord ends
      | cons second later =>
          have tail := induction (by simp) fun placeholder member =>
            words placeholder (List.mem_cons_of_mem _ member)
          simp only [List.map_cons, String.intercalate_cons_cons, String.toList_append,
            List.append_assoc] at tail ⊢
          rw [Lexeme.ofText_word nextIsWord (by simp)]
          simpa [lexemesOfTokens] using tail

theorem isWord_sign {kind : PredicateKind} {sign : String}
    (isComparison : kind.form = .comparison sign) : Lexeme.IsWord sign.toList := by
  cases kind <;> simp only [PredicateKind.form, reduceCtorEq,
    PredicateKind.Form.comparison.injEq] at isComparison <;> subst isComparison <;> decide

theorem isWord_function {kind : PredicateKind} {name : String}
    (isFunction : kind.form = .function name) : Lexeme.IsWord name.toList := by
  cases kind <;> simp only [PredicateKind.form, reduceCtorEq,
    PredicateKind.Form.function.injEq] at isFunction <;> subst isFunction <;> decide

theorem isWord_connective (joined : Connective) : Lexeme.IsWord joined.text.toList := by
  cases joined <;> decide

/-- A kind shows one placeholder, unless its form is that of a membership. -/
theorem shows_iff (kind : PredicateKind) (count : Nat) :
    kind.Shows count ↔ if kind.form = .membership then 0 < count else count = 1 := by
  cases kind <;> simp [PredicateKind.Shows, PredicateKind.shape, PredicateKind.form]

theorem ofText_predicate {kind : PredicateKind} {key : String} {placeholders : List Placeholder}
    (readable : (predicate kind key placeholders).Readable) {rest : List Char}
    (ends : Lexeme.EndsWord rest) :
    Lexeme.ofText ((predicate kind key placeholders).text.toList ++ rest) =
      lexemesOfPredicate kind key placeholders ++ Lexeme.ofText rest := by
  rcases readable with ⟨keyIsWord, words, shown⟩
  rw [shows_iff] at shown
  simp only [text, Predicate.renderKind_eq, lexemesOfPredicate]
  cases form : kind.form with
  | comparison sign =>
      simp only [form, reduceCtorEq, if_false] at shown
      rcases List.length_eq_one_iff.mp shown with ⟨only, rfl⟩
      have tokenIsWord := words only (by simp)
      simp only [String.toList_append, List.append_assoc]
      rw [Lexeme.ofText_word keyIsWord (by simp)]
      simp [Lexeme.ofText_word (isWord_sign form), Lexeme.ofText_word tokenIsWord ends]
  | function name =>
      simp only [form, reduceCtorEq, if_false] at shown
      rcases List.length_eq_one_iff.mp shown with ⟨only, rfl⟩
      have tokenIsWord := words only (by simp)
      simp only [String.toList_append, List.append_assoc]
      rw [Lexeme.ofText_word (isWord_function form) (by simp)]
      simp [Lexeme.ofText_word keyIsWord, Lexeme.ofText_word tokenIsWord]
  | membership =>
      simp only [form, if_true] at shown
      have tokens := ofText_tokens (List.ne_nil_of_length_pos shown) words
        (Lexeme.endsWord_closing rest)
      have opened (more : List Char) : Lexeme.ofText (" in (".toList ++ more) =
          [.blank, .word ['i', 'n'], .blank, .opening] ++ Lexeme.ofText more := rfl
      simp only [String.toList_append, List.append_assoc]
      rw [Lexeme.ofText_word keyIsWord (by simp), opened]
      simpa using tokens

/-- Behind an entry of a group stands a blank or the parenthesis that closes the group. -/
theorem endsWord_textOfRest (later : List (Connective × Phrase)) (rest : List Char) :
    Lexeme.EndsWord ((textOfRest later).toList ++ ')' :: rest) := by
  cases later <;> simp [textOfRest]

mutual
theorem ofText_text : ∀ (phrase : Phrase), phrase.Readable → ∀ (rest : List Char),
    Lexeme.EndsWord rest →
      Lexeme.ofText (phrase.text.toList ++ rest) = phrase.lexemes ++ Lexeme.ofText rest
  | .predicate _ _ _, readable, _, ends => ofText_predicate readable ends
  | .emptyGroup, _, _, _ => by simp [text, lexemes]
  | .group first later, readable, rest, _ => by
      have firstText := ofText_text first readable.1
        ((textOfRest later).toList ++ ')' :: rest) (endsWord_textOfRest later rest)
      have laterText := ofText_textOfRest later readable.2 rest
      simp [text, lexemes, firstText, laterText]

theorem ofText_textOfRest : ∀ (later : List (Connective × Phrase)), ReadableRest later →
    ∀ rest : List Char,
      Lexeme.ofText ((textOfRest later).toList ++ ')' :: rest) =
        lexemesOfRest later ++ .closing :: Lexeme.ofText rest
  | [], _, _ => by simp [textOfRest, lexemesOfRest]
  | (joined, phrase) :: later, readable, rest => by
      have phraseText := ofText_text phrase readable.1
        ((textOfRest later).toList ++ ')' :: rest) (endsWord_textOfRest later rest)
      have laterText := ofText_textOfRest later readable.2 rest
      simp [textOfRest, lexemesOfRest, Lexeme.ofText_word (isWord_connective joined), phraseText,
        laterText]
end

/-! ## Reading the lexemes of a phrase -/

theorem read_tokens (key : String) (frames : List Frame) (rest : List Lexeme) :
    ∀ (earlier placeholders : List Placeholder), placeholders ≠ [] →
      read (.member key earlier) frames (lexemesOfTokens placeholders ++ .closing :: rest) =
        read (.behind (.predicate .within key (earlier ++ placeholders))) frames rest
  | _, [], nonempty => absurd rfl nonempty
  | earlier, [last], _ => by simp [lexemesOfTokens, read]
  | earlier, next :: second :: later, _ => by
      have further := read_tokens key frames rest (earlier ++ [next]) (second :: later) (by simp)
      simpa [lexemesOfTokens, read] using further

theorem read_predicate {kind : PredicateKind} {key : String} {placeholders : List Placeholder}
    (shown : kind.Shows placeholders.length) (frames : List Frame) (rest : List Lexeme) :
    read .entry frames (lexemesOfPredicate kind key placeholders ++ rest) =
      read (.behind (.predicate kind key placeholders)) frames rest := by
  rw [shows_iff] at shown
  have kindOfForm := PredicateKind.ofForm?_form kind
  cases form : kind.form with
  | comparison sign =>
      simp only [form, reduceCtorEq, if_false] at shown kindOfForm
      rcases List.length_eq_one_iff.mp shown with ⟨only, rfl⟩
      simp [lexemesOfPredicate, form, read, kindOfForm]
  | function name =>
      simp only [form, reduceCtorEq, if_false] at shown kindOfForm
      rcases List.length_eq_one_iff.mp shown with ⟨only, rfl⟩
      simp [lexemesOfPredicate, form, read, kindOfForm]
  | membership =>
      simp only [form, if_true] at shown
      have isWithin : kind = .within := by
        cases kind <;> simp [PredicateKind.form] at form ⊢
      subst isWithin
      have tokens := read_tokens key frames rest [] placeholders (List.ne_nil_of_length_pos shown)
      simpa [lexemesOfPredicate, PredicateKind.form, read] using tokens

mutual
/-- Before an entry the reader takes in the lexemes of a readable phrase, whatever follows. -/
theorem read_lexemes : ∀ (phrase : Phrase), phrase.Readable → ∀ (frames : List Frame)
    (rest : List Lexeme),
      read .entry frames (phrase.lexemes ++ rest) = read (.behind phrase) frames rest
  | .predicate _ _ _, readable, frames, rest => read_predicate readable.2.2 frames rest
  | .emptyGroup, _, _, _ => by simp [lexemes, read]
  | .group first later, readable, frames, rest => by
      have firstRead := read_lexemes first readable.1 (.fresh :: frames)
        (lexemesOfRest later ++ .closing :: rest)
      have laterRead := read_lexemesOfRest later readable.2 .fresh first frames rest
      simp only [lexemes, List.cons_append, List.append_assoc, List.nil_append, read]
      rw [firstRead, laterRead]
      rfl

theorem read_lexemesOfRest : ∀ (later : List (Connective × Phrase)), ReadableRest later →
    ∀ (frame : Frame) (phrase : Phrase) (frames : List Frame) (rest : List Lexeme),
      read (.behind phrase) (frame :: frames) (lexemesOfRest later ++ .closing :: rest) =
        read (.behind (.group (frame.accept phrase).1 ((frame.accept phrase).2 ++ later)))
          frames rest
  | [], _, _, _, _, _ => by simp [lexemesOfRest, read]
  | (joined, next) :: later, readable, frame, phrase, frames, rest => by
      have nextRead := read_lexemes next readable.1
        (.joining (frame.accept phrase).1 (frame.accept phrase).2 joined :: frames)
        (lexemesOfRest later ++ .closing :: rest)
      have laterRead := read_lexemesOfRest later readable.2
        (.joining (frame.accept phrase).1 (frame.accept phrase).2 joined) next frames rest
      simp only [lexemesOfRest, List.cons_append, List.append_assoc, List.nil_append, read,
        String.ofList_toList, Connective.ofText?_text, Option.bind_eq_bind, Option.bind_some]
      rw [nextRead, laterRead]
      simp [Frame.accept]
end

/-- The phrase of a readable text is the one that was written. -/
theorem read?_text {phrase : Phrase} (readable : phrase.Readable) :
    read? phrase.text = some phrase := by
  have cut := ofText_text phrase readable [] trivial
  have taken := read_lexemes phrase readable [] []
  simp only [List.append_nil, Lexeme.ofText_nil] at cut taken
  rw [read?, cut, taken]
  rfl

end Phrase

end ItemQuery
