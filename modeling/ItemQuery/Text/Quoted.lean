import ItemQuery.Text.Unprintable

/-!
Quoted text for messages.

A text is shown between double quotes. The quote and the backslash get a backslash; a tab, a line
feed, a carriage return and the null character have a letter of their own; any other character
without a visible form is shown by its code point between braces. All else stands as it is. A list
of texts is shown between brackets.
-/

namespace ItemQuery
namespace Quoted

/-- The characters that stand for one character of a quoted text. -/
def escape (char : Char) : List Char :=
  if char = '\x00' then ['\\', '0']
  else if char = '\t' then ['\\', 't']
  else if char = '\r' then ['\\', 'r']
  else if char = '\n' then ['\\', 'n']
  else if char = '"' ∨ char = '\\' then ['\\', char]
  else if isUnprintable char then
    '\\' :: 'u' :: '\x7b' :: Nat.toDigits 16 char.toNat ++ ['\x7d']
  else [char]

end Quoted

def quoted (text : String) : String :=
  String.ofList ('"' :: text.toList.flatMap Quoted.escape ++ ['"'])

def quotedList (texts : List String) : String :=
  "[" ++ String.intercalate ", " (texts.map quoted) ++ "]"

end ItemQuery
