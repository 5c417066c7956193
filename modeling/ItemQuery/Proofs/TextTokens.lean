import Mathlib.Data.List.TakeWhile
import ItemQuery.Proofs.Phrase.Reader
import ItemQuery.Proofs.Predicate

/-!
The tokens that a text mentions.

A token is a colon with the longest run of token characters behind it, of which there has to be at
least one. Texts are scanned without knowing how they were put together. Of a text without a colon
nothing is found, and what stands before a character that no token can have is scanned on its own
(`tokensIn_append`), so the scan of a condition is that of its predicates, which mention the
placeholders that they show.
-/

namespace ItemQuery

/-- The tokens that occur in a text, from left to right. -/
def tokensIn : List Char → List (List Char)
  | [] => []
  | char :: rest =>
      let name := rest.takeWhile Config.isTokenChar
      if char = ':' ∧ name ≠ [] then (char :: name) :: tokensIn rest else tokensIn rest

/-- The tokens that occur in a text. -/
def textTokens (text : String) : List String := (tokensIn text.toList).map .ofList

example : textTokens "SET a:b = :p1, :c = :p11x:" = [":b", ":p1", ":c", ":p11x"] := by decide

/-- Whether a text ends a token that stands before it. -/
def EndsToken (text : List Char) : Prop :=
  ∀ char rest, text = char :: rest → Config.isTokenChar char = false

/-! ## Scanning -/

theorem takeWhile_append_of_endsToken {second : List Char} (ends : EndsToken second)
    (first : List Char) :
    (first ++ second).takeWhile Config.isTokenChar = first.takeWhile Config.isTokenChar := by
  induction first with
  | nil =>
      cases second with
      | nil => rfl
      | cons char rest => simp [ends char rest rfl]
  | cons char rest induction => simp only [List.cons_append, List.takeWhile_cons, induction]

theorem tokensIn_append {second : List Char} (ends : EndsToken second) (first : List Char) :
    tokensIn (first ++ second) = tokensIn first ++ tokensIn second := by
  induction first with
  | nil => rfl
  | cons char rest induction =>
      simp only [List.cons_append, tokensIn, takeWhile_append_of_endsToken ends, induction]
      split <;> rfl

theorem tokensIn_append_of_plain {first : List Char} (plain : ':' ∉ first) (second : List Char) :
    tokensIn (first ++ second) = tokensIn second := by
  induction first with
  | nil => rfl
  | cons char rest induction =>
      simp only [List.mem_cons, not_or] at plain
      have notColon : char ≠ ':' := fun equal => plain.1 equal.symm
      simp only [List.cons_append, tokensIn, notColon, false_and, if_false]
      exact induction plain.2

theorem tokensIn_of_plain {text : List Char} (plain : ':' ∉ text) : tokensIn text = [] := by
  have scanned := tokensIn_append_of_plain plain []
  rwa [List.append_nil] at scanned

theorem endsToken_nil : EndsToken [] := by
  intro char rest equal
  cases equal

theorem endsToken_cons {char : Char} (isOther : Config.isTokenChar char = false)
    (rest : List Char) : EndsToken (char :: rest) := by
  intro other others equal
  cases equal
  exact isOther

/-! ## Placeholders and predicates -/

/-- Whether the token of a placeholder can be told in a text. -/
structure Placeholder.Tellable (placeholder : Placeholder) : Prop where
  nonempty : placeholder.name ≠ ""
  valid : placeholder.Valid

theorem Mint.Valid.nonempty {mint : Mint} (valid : mint.Valid) : mint.stem ≠ "" := by
  rcases valid with ⟨config, sameStem, accepted⟩
  rw [← sameStem]
  intro isEmpty
  rw [Config.validate, if_pos isEmpty] at accepted
  cases accepted

/-- A mint with a valid stem issues placeholders that can be told in a text. -/
theorem Mint.Issues.tellable {mint : Mint} (stem : mint.Valid) {before after : Supply}
    {issues : List Issue} (drawn : mint.Issues before issues after) (words : before.Valid) :
    ∀ issue ∈ issues, issue.placeholder.Tellable := by
  have nonempty : ∀ issue ∈ issues, issue.placeholder.name ≠ "" := by
    clear words
    induction drawn with
    | none => simp
    | next value drawn _ induction =>
        refine List.forall_mem_cons.mpr ⟨?_, induction⟩
        cases source : mint.source with
        | sequence sequence =>
            rw [Mint.run_next_of_sequence source] at drawn
            cases drawn
            simp [Mint.numbered, stem.nonempty]
        | random =>
            rw [Mint.run_next_of_random source] at drawn
            cases drawn
            simp [stem.nonempty]
  exact fun issue member => ⟨nonempty issue member, drawn.valid stem words issue member⟩

theorem tokensIn_token {placeholder : Placeholder} (tellable : placeholder.Tellable) :
    tokensIn placeholder.token.toList = [placeholder.token.toList] := by
  have letters : placeholder.token.toList = ':' :: placeholder.name.toList := by
    simp [Placeholder.token]
  have all : placeholder.name.toList.takeWhile Config.isTokenChar = placeholder.name.toList :=
    List.takeWhile_eq_self_iff.mpr tellable.valid
  have someLetters : placeholder.name.toList ≠ [] := by simpa using tellable.nonempty
  have noColon : ':' ∉ placeholder.name.toList := by
    intro member
    have isToken := tellable.valid ':' member
    revert isToken
    decide
  rw [letters, tokensIn, all, if_pos ⟨rfl, someLetters⟩, tokensIn_of_plain noColon]

theorem tokensIn_tokens {placeholders : List Placeholder}
    (tellable : ∀ placeholder ∈ placeholders, placeholder.Tellable) :
    ((placeholders.map Placeholder.token).flatMap fun token => tokensIn token.toList) =
      placeholders.map fun placeholder => placeholder.token.toList := by
  induction placeholders with
  | nil => rfl
  | cons first rest induction =>
      rw [List.map_cons, List.flatMap_cons, tokensIn_token (tellable first (by simp)), induction
        fun placeholder member => tellable placeholder (List.mem_cons_of_mem _ member)]
      rfl

/-- Texts that are set apart by something that no token goes on with are scanned one by one. -/
theorem tokensIn_intercalate {separator : String} {char : Char} {letters : List Char}
    (starts : separator.toList = char :: letters) (isOther : Config.isTokenChar char = false)
    (plain : ':' ∉ separator.toList) (texts : List String) :
    tokensIn (String.intercalate separator texts).toList =
      texts.flatMap fun text => tokensIn text.toList := by
  induction texts with
  | nil => rfl
  | cons first rest induction =>
      cases rest with
      | nil => simp
      | cons second later =>
          have ends : ∀ text, EndsToken (separator.toList ++ text) := by
            intro text
            rw [starts]
            exact endsToken_cons isOther _
          rw [String.intercalate_cons_cons, String.toList_append, String.toList_append,
            List.append_assoc, tokensIn_append (ends _), tokensIn_append_of_plain plain, induction]
          rfl

/-- The tokens of the placeholders that the text of a predicate shows. -/
def Predicate.shownTokens (predicate : Predicate) : List String :=
  match predicate.kind.shape with
  | .scalar => predicate.tokens.take 1
  | .collection => predicate.tokens

theorem Predicate.shownTokens_eq {predicate : Predicate}
    (shows : predicate.kind.Shows predicate.placeholders.length) :
    predicate.shownTokens = predicate.tokens := by
  unfold shownTokens
  unfold PredicateKind.Shows at shows
  cases shape : predicate.kind.shape with
  | collection => rfl
  | scalar =>
      rw [shape] at shows
      apply List.take_of_length_le
      rw [tokens, List.length_map]
      exact Nat.le_of_eq shows

theorem tokensIn_between {placeholder : Placeholder} (tellable : placeholder.Tellable)
    {before after : List Char} (plainBefore : ':' ∉ before) (ends : EndsToken after)
    (plainAfter : ':' ∉ after) :
    tokensIn (before ++ (placeholder.token.toList ++ after)) = [placeholder.token.toList] := by
  rw [tokensIn_append_of_plain plainBefore, tokensIn_append ends, tokensIn_token tellable,
    tokensIn_of_plain plainAfter, List.append_nil]

theorem plain_sign {kind : PredicateKind} {sign : String}
    (isComparison : kind.form = .comparison sign) : ':' ∉ sign.toList := by
  cases kind <;> simp only [PredicateKind.form, reduceCtorEq,
    PredicateKind.Form.comparison.injEq] at isComparison <;> subst isComparison <;> decide

theorem plain_function {kind : PredicateKind} {name : String}
    (isFunction : kind.form = .function name) : ':' ∉ name.toList := by
  cases kind <;> simp only [PredicateKind.form, reduceCtorEq,
    PredicateKind.Form.function.injEq] at isFunction <;> subst isFunction <;> decide

/-- The text of a predicate mentions the tokens of its placeholders and no others. -/
theorem tokensIn_renderKind {kind : PredicateKind} {key : String} (plain : ':' ∉ key.toList)
    {placeholders : List Placeholder} (shows : kind.Shows placeholders.length)
    (tellable : ∀ placeholder ∈ placeholders, placeholder.Tellable) :
    tokensIn (Predicate.renderKind kind key (placeholders.map Placeholder.token)).toList =
      placeholders.map fun placeholder => placeholder.token.toList := by
  rw [Phrase.shows_iff] at shows
  rw [Predicate.renderKind_eq]
  cases form : kind.form with
  | membership =>
      have plainBefore : ':' ∉ (key ++ " in (").toList := by simp [plain]
      have separated := @tokensIn_intercalate "," ',' [] rfl (by decide) (by decide)
        (placeholders.map Placeholder.token)
      have closed : tokensIn [')'] = [] := tokensIn_of_plain (by decide)
      have ends : EndsToken [')'] := endsToken_cons (by decide) []
      rw [tokensIn_tokens tellable] at separated
      simp only [String.toList_append, List.append_assoc] at plainBefore ⊢
      rw [← List.append_assoc, tokensIn_append_of_plain plainBefore,
        show ")".toList = [')'] from rfl, tokensIn_append ends, separated, closed, List.append_nil]
  | comparison sign =>
      rw [form, if_neg (by simp)] at shows
      rcases List.length_eq_one_iff.mp shows with ⟨placeholder, rfl⟩
      have plainSign := plain_sign form
      have found := @tokensIn_between placeholder (tellable placeholder (by simp))
        (key ++ " " ++ sign ++ " ").toList [] (by simp [plain, plainSign]) endsToken_nil (by simp)
      simpa using found
  | function name =>
      rw [form, if_neg (by simp)] at shows
      rcases List.length_eq_one_iff.mp shows with ⟨placeholder, rfl⟩
      have plainName := plain_function form
      have found := @tokensIn_between placeholder (tellable placeholder (by simp))
        (name ++ "(" ++ key ++ ", ").toList [')'] (by simp [plain, plainName])
        (endsToken_cons (by decide) []) (by simp)
      simpa using found

/-- Whether the text of a predicate tells its placeholders. -/
structure Predicate.Told (predicate : Predicate) : Prop where
  shows : predicate.kind.Shows predicate.placeholders.length
  tellable : ∀ placeholder ∈ predicate.placeholders, placeholder.Tellable
  plain : ':' ∉ predicate.key.toList

theorem Predicate.Told.tokensIn_render {predicate : Predicate} (told : predicate.Told) :
    tokensIn predicate.render.toList = predicate.shownTokens.map String.toList := by
  rw [shownTokens_eq told.shows, render, tokens,
    tokensIn_renderKind told.plain told.shows told.tellable, List.map_map]
  rfl

/-! ## Groups -/

theorem endsToken_renderRest (entries : List Entry) :
    EndsToken (Entry.renderRest entries).toList := by
  cases entries with
  | nil => exact endsToken_nil
  | cons entry rest =>
      rw [Entry.renderRest]
      simp only [String.toList_append, List.append_assoc]
      exact endsToken_cons (by decide) _

theorem tokensIn_renderRest (entries : List Entry) :
    tokensIn (Entry.renderRest entries).toList =
      entries.flatMap fun entry => tokensIn entry.render.toList := by
  induction entries with
  | nil => rfl
  | cons entry rest induction =>
      have plain : ':' ∉ (" " ++ entry.connective.text ++ " ").toList := by
        cases entry.connective <;> decide
      rw [Entry.renderRest, String.toList_append, String.toList_append,
        tokensIn_append (endsToken_renderRest rest), tokensIn_append_of_plain plain, induction]
      rfl

/-- The text of a group mentions what the texts of its entries mention. -/
theorem tokensIn_group (joined : Connective) (entries : List Entry) :
    tokensIn (Entry.group joined entries).render.toList =
      entries.flatMap fun entry => tokensIn entry.render.toList := by
  have inner : tokensIn (Entry.renderAll entries).toList =
      entries.flatMap fun entry => tokensIn entry.render.toList := by
    cases entries with
    | nil => rfl
    | cons first rest =>
        rw [Entry.renderAll, String.toList_append, tokensIn_append (endsToken_renderRest rest),
          tokensIn_renderRest]
        rfl
  have opening : ':' ∉ "(".toList := by decide
  have closing : tokensIn ")".toList = [] := by decide
  have ends : EndsToken ")".toList := endsToken_cons (by decide) []
  rw [Entry.render, String.toList_append, String.toList_append, tokensIn_append ends,
    tokensIn_append_of_plain opening, inner, closing, List.append_nil]

end ItemQuery
