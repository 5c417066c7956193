/-!
Base64: bytes as text over 64 symbols.

Three bytes make four symbols. One or two bytes at the end make two or three symbols, filled up to
four with `=`. Reading is strict: it accepts exactly what writing produces, so the filling is
required, no bits may be left over in the last symbol, and no other character may occur.
-/

namespace ItemQuery
namespace Base64

/-- The 64 symbols in the order of their numbers. -/
def alphabet : List Char :=
  "ABCDEFGHIJKLMNOPQRSTUVWXYZabcdefghijklmnopqrstuvwxyz0123456789+/".toList

def symbol (number : Nat) : Char := alphabet.getD number '='

/-- The number of a symbol. -/
def number? (char : Char) : Option Nat :=
  if 'A' ≤ char ∧ char ≤ 'Z' then some (char.toNat - 'A'.toNat)
  else if 'a' ≤ char ∧ char ≤ 'z' then some (char.toNat - 'a'.toNat + 26)
  else if '0' ≤ char ∧ char ≤ '9' then some (char.toNat - '0'.toNat + 52)
  else if char = '+' then some 62
  else if char = '/' then some 63
  else none

theorem number?_symbol : ∀ number < 64, number? (symbol number) = some number := by decide +kernel

theorem symbol_ne_filling {number : Nat} (below : number < 64) : symbol number ≠ '=' := by
  intro isFilling
  have numbered := number?_symbol number below
  rw [isFilling] at numbered
  cases numbered

def encode : List UInt8 → List Char
  | first :: second :: third :: rest =>
      symbol (first.toNat / 4) ::
        symbol (first.toNat % 4 * 16 + second.toNat / 16) ::
          symbol (second.toNat % 16 * 4 + third.toNat / 64) ::
            symbol (third.toNat % 64) :: encode rest
  | [first, second] =>
      [symbol (first.toNat / 4), symbol (first.toNat % 4 * 16 + second.toNat / 16),
        symbol (second.toNat % 16 * 4), '=']
  | [first] => [symbol (first.toNat / 4), symbol (first.toNat % 4 * 16), '=', '=']
  | [] => []

/-- The byte that joins the low bits of one symbol's number with the high bits of the next one's:
`weight` is the value of the lowest bit that the first one gives. -/
def joined (first second weight : Nat) : UInt8 :=
  .ofNat (first * weight % 256 + second / (64 / weight))

/-- The bytes of a text, none if no bytes are written like it. -/
def decode? : List Char → Option (List UInt8)
  | [] => some []
  | [first, second, '=', '='] => do
      let first ← number? first
      let second ← number? second
      if second % 16 = 0 then some [joined first second 4] else none
  | [first, second, third, '='] => do
      let first ← number? first
      let second ← number? second
      let third ← number? third
      if third % 4 = 0 then some [joined first second 4, joined second third 16] else none
  | first :: second :: third :: fourth :: rest => do
      let first ← number? first
      let second ← number? second
      let third ← number? third
      let fourth ← number? fourth
      let bytes ← decode? rest
      some (joined first second 4 :: joined second third 16 :: joined third fourth 64 :: bytes)
  | _ => none

example : encode [0xfb] = "+w==".toList := by decide
example : decode? "+x==".toList = none := by decide

/-! ## Reading back -/

/-- A block whose last symbol is no filling stands for three bytes. -/
theorem decode?_block {first second third fourth : Char} (full : fourth ≠ '=') (rest : List Char) :
    decode? (first :: second :: third :: fourth :: rest) = (do
      let first ← number? first
      let second ← number? second
      let third ← number? third
      let fourth ← number? fourth
      let bytes ← decode? rest
      some (joined first second 4 :: joined second third 16 :: joined third fourth 64 :: bytes)) := by
  rw [decode?]
  · intro _ isFilling
    exact fun _ => absurd isFilling full
  · intro isFilling
    exact fun _ => absurd isFilling full

theorem joined_eq {byte : UInt8} {first second weight : Nat}
    (split : first * weight % 256 + second / (64 / weight) = byte.toNat) :
    joined first second weight = byte := by
  rw [joined, split, UInt8.ofNat_toNat]

/-- Reading what was written gives the bytes back. -/
theorem decode?_encode : ∀ bytes : List UInt8, decode? (encode bytes) = some bytes
  | [] => rfl
  | [first] => by
      have firstBound := first.toNat_lt
      have high := number?_symbol (first.toNat / 4) (by omega)
      have low := number?_symbol (first.toNat % 4 * 16) (by omega)
      have byte : joined (first.toNat / 4) (first.toNat % 4 * 16) 4 = first :=
        joined_eq (by omega)
      simp [encode, decode?, high, low, byte]
  | [first, second] => by
      have firstBound := first.toNat_lt
      have secondBound := second.toNat_lt
      have high := number?_symbol (first.toNat / 4) (by omega)
      have middle := number?_symbol (first.toNat % 4 * 16 + second.toNat / 16) (by omega)
      have low := number?_symbol (second.toNat % 16 * 4) (by omega)
      have notFilling : symbol (second.toNat % 16 * 4) ≠ '=' := symbol_ne_filling (by omega)
      have byte : joined (first.toNat / 4) (first.toNat % 4 * 16 + second.toNat / 16) 4 = first :=
        joined_eq (by omega)
      have nextByte : joined (first.toNat % 4 * 16 + second.toNat / 16) (second.toNat % 16 * 4) 16 =
          second := joined_eq (by omega)
      rw [encode, decode?]
      · simp [high, middle, low, byte, nextByte]
      · exact fun isFilling => absurd isFilling notFilling
  | first :: second :: third :: rest => by
      have firstBound := first.toNat_lt
      have secondBound := second.toNat_lt
      have thirdBound := third.toNat_lt
      have byte : joined (first.toNat / 4) (first.toNat % 4 * 16 + second.toNat / 16) 4 = first :=
        joined_eq (by omega)
      have nextByte : joined (first.toNat % 4 * 16 + second.toNat / 16)
          (second.toNat % 16 * 4 + third.toNat / 64) 16 = second := joined_eq (by omega)
      have lastByte : joined (second.toNat % 16 * 4 + third.toNat / 64) (third.toNat % 64) 64 =
          third := joined_eq (by omega)
      rw [encode, decode?_block (symbol_ne_filling (by omega)), number?_symbol _ (by omega),
        number?_symbol _ (by omega), number?_symbol _ (by omega), number?_symbol _ (by omega),
        decode?_encode rest]
      simp [byte, nextByte, lastByte]

end Base64
end ItemQuery
