import ItemQuery.Json
import ItemQuery.Numeral

/-!
Reading a JSON text.

A number without fraction and exponent that fits in 64 bits is an integer; every other number is
the nearest double, and a number beyond the doubles is refused. Of a member that an object repeats
the last value stays, and members are put in order. Blanks may stand between the parts.
-/

namespace ItemQuery
namespace Json
namespace Reader

def isBlank (char : Char) : Bool := char = ' ' || char = '\t' || char = '\n' || char = '\r'

def skipBlanks (text : List Char) : List Char := text.dropWhile isBlank

/-- The text after a word that it starts with. -/
def expect : List Char → List Char → Option (List Char)
  | [], text => some text
  | _ :: _, [] => none
  | wanted :: rest, char :: text => if wanted = char then expect rest text else none

/-! ## Strings -/

def hexDigit? (char : Char) : Option Nat :=
  if '0' ≤ char ∧ char ≤ '9' then some (char.toNat - '0'.toNat)
  else if 'a' ≤ char ∧ char ≤ 'f' then some (char.toNat - 'a'.toNat + 10)
  else if 'A' ≤ char ∧ char ≤ 'F' then some (char.toNat - 'A'.toNat + 10)
  else none

/-- The code unit that four hexadecimal digits denote. -/
def codeUnit? : List Char → Option (Nat × List Char)
  | first :: second :: third :: fourth :: rest => do
      let digits ← [first, second, third, fourth].mapM hexDigit?
      pure (digits.foldl (16 * · + ·) 0, rest)
  | _ => none

/-- The character of a code unit, or of a high code unit and the low one that must follow it. -/
def unicode? (text : List Char) : Option (Char × List Char) := do
  let (unit, rest) ← codeUnit? text
  if 0xD800 ≤ unit ∧ unit < 0xDC00 then
    let rest ← expect ['\\', 'u'] rest
    let (low, rest) ← codeUnit? rest
    if 0xDC00 ≤ low ∧ low < 0xE000 then
      pure (Char.ofNat (0x10000 + (unit - 0xD800) * 0x400 + (low - 0xDC00)), rest)
    else none
  else if 0xDC00 ≤ unit ∧ unit < 0xE000 then none
  else pure (Char.ofNat unit, rest)

def shortEscape? (char : Char) : Option Char :=
  if char = '"' ∨ char = '\\' ∨ char = '/' then some char
  else if char = 'b' then some '\x08'
  else if char = 'f' then some '\x0c'
  else if char = 'n' then some '\n'
  else if char = 'r' then some '\r'
  else if char = 't' then some '\t'
  else none

/-- The characters of a string up to its closing quote, and the text after that. -/
def stringBody? : (fuel : Nat) → List Char → Option (List Char × List Char)
  | 0, _ => none
  | fuel + 1, text =>
      match text with
      | [] => none
      | '"' :: rest => some ([], rest)
      | '\\' :: 'u' :: rest => do
          let (char, rest) ← unicode? rest
          let (body, rest) ← stringBody? fuel rest
          pure (char :: body, rest)
      | '\\' :: escaped :: rest => do
          let char ← shortEscape? escaped
          let (body, rest) ← stringBody? fuel rest
          pure (char :: body, rest)
      | char :: rest =>
          if char.toNat < 0x20 ∨ char = '\\' then none
          else do
            let (body, rest) ← stringBody? fuel rest
            pure (char :: body, rest)

def quoted? : List Char → Option (String × List Char)
  | '"' :: rest => (stringBody? (rest.length + 1) rest).map fun (body, rest) =>
      (String.ofList body, rest)
  | _ => none

/-! ## Numbers -/

def isNumberChar (char : Char) : Bool :=
  char.isDigit || char = '-' || char = '+' || char = '.' || char = 'e' || char = 'E'

/-- Digits without a zero in front, zero itself apart. -/
def IsPlainDigits (digits : List Char) : Prop :=
  digits ≠ [] ∧ digits.all Char.isDigit ∧ (digits.head? = some '0' → digits.length = 1)

instance (digits : List Char) : Decidable (IsPlainDigits digits) :=
  inferInstanceAs (Decidable (_ ∧ _ ∧ (_ → _)))

/-- A point is followed by at least one digit. -/
def IsFraction : List Char → Prop
  | '.' :: rest => rest.takeWhile Char.isDigit ≠ []
  | _ => True

instance (text : List Char) : Decidable (IsFraction text) := by
  unfold IsFraction
  split <;> infer_instance

def number? (lexeme : List Char) : Option Number := do
  let (negative, unsigned) :=
    match lexeme with
    | '-' :: rest => (true, rest)
    | _ => (false, lexeme)
  let whole := unsigned.takeWhile Char.isDigit
  let ending := unsigned.dropWhile Char.isDigit
  if IsPlainDigits whole ∧ IsFraction ending then
    let integer :=
      if ending = [] then Integer.ofInt? (Numeral.applySign negative (Numeral.ofDigits whole))
      else none
    match integer with
    | some integer => some (.integer integer)
    | none => do
        let (digits, exponent) ← Numeral.unsignedDecimal? unsigned
        (Double.ofDecimal? negative digits exponent).map .double
  else none

/-! ## Values -/

mutual
def value? : (fuel : Nat) → List Char → Option (Json × List Char)
  | 0, _ => none
  | fuel + 1, text =>
      match skipBlanks text with
      | '"' :: rest => (quoted? ('"' :: rest)).map fun (content, rest) => (.string content, rest)
      | '[' :: rest =>
          match skipBlanks rest with
          | ']' :: rest => some (.array [], rest)
          | _ => (elements? fuel rest).map fun (elements, rest) => (.array elements, rest)
      | '\x7b' :: rest =>
          match skipBlanks rest with
          | '\x7d' :: rest => some (.object [], rest)
          | _ => (members? fuel rest).map fun (members, rest) =>
              (.ofDictionary (Dictionary.ofList members), rest)
      | 'n' :: rest => (expect "ull".toList rest).map (Json.null, ·)
      | 't' :: rest => (expect "rue".toList rest).map (Json.bool true, ·)
      | 'f' :: rest => (expect "alse".toList rest).map (Json.bool false, ·)
      | text =>
          (number? (text.takeWhile isNumberChar)).map fun numeral =>
            (.number numeral, text.dropWhile isNumberChar)

/-- One or more elements and the bracket that closes them. -/
def elements? : (fuel : Nat) → List Char → Option (List Json × List Char)
  | 0, _ => none
  | fuel + 1, text => do
      let (element, rest) ← value? fuel text
      match skipBlanks rest with
      | ']' :: rest => pure ([element], rest)
      | ',' :: rest =>
          let (elements, rest) ← elements? fuel rest
          pure (element :: elements, rest)
      | _ => none

/-- One or more members and the brace that closes them. -/
def members? : (fuel : Nat) → List Char → Option (List (String × Json) × List Char)
  | 0, _ => none
  | fuel + 1, text => do
      let (name, rest) ← quoted? (skipBlanks text)
      let rest ← expect [':'] (skipBlanks rest)
      let (value, rest) ← value? fuel rest
      match skipBlanks rest with
      | '\x7d' :: rest => pure ([(name, value)], rest)
      | ',' :: rest =>
          let (members, rest) ← members? fuel rest
          pure ((name, value) :: members, rest)
      | _ => none
end

end Reader

/-- The value that a text denotes; none if the text is not JSON. Each character is met by at most
two of the reader's steps, which bounds their number. -/
def read? (text : String) : Option Json := do
  let chars := text.toList
  let (json, rest) ← Reader.value? (2 * chars.length + 2) chars
  if Reader.skipBlanks rest = [] then some json else none

end Json
end ItemQuery
