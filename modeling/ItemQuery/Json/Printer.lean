import ItemQuery.Json
import ItemQuery.Double.Layout
import ItemQuery.Numeral

/-!
The compact text of a JSON value.

Nothing separates the parts but the commas and colons of the grammar. A string escapes the quote,
the backslash and the characters below U+0020, those that have a short escape by it, and shows all
other characters as they are. A double is positional when its leading digit stands between 10^-5
and 10^15, always has a fraction there, and has an exponent otherwise, so that no text of a double
is the text of an integer.
-/

namespace ItemQuery
namespace Json

/-- How a double is written in JSON. -/
def layout : Layout := ⟨.toEven, true, some (-5, 15)⟩

def Number.text : Number → List Char
  | .integer whole => Numeral.ofInteger whole.value
  | .double real => layout.double real

/-- The characters that stand for one character of a string. -/
def escape (char : Char) : List Char :=
  if char = '"' then ['\\', '"']
  else if char = '\\' then ['\\', '\\']
  else if char = '\x08' then ['\\', 'b']
  else if char = '\x0c' then ['\\', 'f']
  else if char = '\n' then ['\\', 'n']
  else if char = '\r' then ['\\', 'r']
  else if char = '\t' then ['\\', 't']
  else if char.toNat < 0x20 then
    ['\\', 'u', '0', '0', Nat.digitChar (char.toNat / 16), Nat.digitChar (char.toNat % 16)]
  else [char]

def quote (text : String) : List Char := '"' :: text.toList.flatMap escape ++ ['"']

mutual
def chars : Json → List Char
  | .null => "null".toList
  | .bool value => (if value then "true" else "false").toList
  | .number value => value.text
  | .string value => quote value
  | .array [] => ['[', ']']
  | .array (first :: rest) => '[' :: (first.chars ++ charsOfElements rest)
  | .object [] => ['\x7b', '\x7d']
  | .object ((name, value) :: rest) =>
      '\x7b' :: (quote name ++ ':' :: (value.chars ++ charsOfMembers rest))

/-- The rest of an array after an element. -/
def charsOfElements : List Json → List Char
  | [] => [']']
  | element :: rest => ',' :: (element.chars ++ charsOfElements rest)

/-- The rest of an object after a member. -/
def charsOfMembers : List (String × Json) → List Char
  | [] => ['\x7d']
  | (name, value) :: rest =>
      ',' :: (quote name ++ ':' :: (value.chars ++ charsOfMembers rest))
end

def text (json : Json) : String := String.ofList json.chars

end Json
end ItemQuery
