import Mathlib.Tactic.SplitIfs

/-!
The order of texts.

Texts are ordered by their code points. Their UTF-8 forms are in the same order, compared byte by
byte (`utf8Bytes_lt_of_lt`), because the form of a lesser character is less in the first byte in
which the two forms differ.
-/

namespace ItemQuery

/-- The UTF-8 form of a text. -/
def utf8Bytes (text : String) : List UInt8 := text.toUTF8.data.toList

theorem utf8Bytes_eq_flatMap (text : String) :
    utf8Bytes text = text.toList.flatMap String.utf8EncodeChar := by
  rw [utf8Bytes, String.toUTF8, ← String.utf8Encode_toList, List.utf8Encode,
    List.toList_data_toByteArray]

/-- The bytes of a lesser character come before those of a greater one, whatever follows them. -/
theorem utf8EncodeChar_append_lt {first second : Char} (less : first < second)
    (rest others : List UInt8) :
    String.utf8EncodeChar first ++ rest < String.utf8EncodeChar second ++ others := by
  have below : first.val.toNat < second.val.toNat := less
  have bounded : second.val.toNat < 0x110000 := by
    rcases second.valid with low | high
    · exact Nat.lt_trans low (by decide)
    · exact high.2
  -- Quotients of quotients give `omega` one digit at a time.
  have twice (value : Nat) : value / 4096 = value / 64 / 64 := by omega
  have thrice (value : Nat) : value / 262144 = value / 64 / 64 / 64 := by omega
  simp only [String.utf8EncodeChar, twice, thrice]
  generalize first.val.toNat = value at *
  generalize second.val.toNat = other at *
  split_ifs <;>
    simp (disch := omega) only [List.cons_append, List.nil_append, List.cons_lt_cons_iff,
      UInt8.lt_iff_toNat_lt, ← UInt8.toNat_inj, UInt8.toNat_ofNat', Nat.mod_eq_of_lt] <;> omega

theorem flatMap_utf8EncodeChar_lt {first second : List Char} (less : first < second) :
    first.flatMap String.utf8EncodeChar < second.flatMap String.utf8EncodeChar := by
  induction less with
  | @nil char rest =>
      rw [List.flatMap_nil, List.flatMap_cons]
      cases encoded : String.utf8EncodeChar char with
      | nil => exact absurd encoded String.utf8EncodeChar_ne_nil
      | cons byte bytes => exact List.nil_lt_cons _ _
  | rel charLess =>
      rw [List.flatMap_cons, List.flatMap_cons]
      exact utf8EncodeChar_append_lt charLess _ _
  | cons _ induction =>
      rw [List.flatMap_cons, List.flatMap_cons]
      exact List.append_left_lt induction

/-- Texts in the order of their code points are in the order of their bytes. -/
theorem utf8Bytes_lt_of_lt {first second : String} (less : first < second) :
    utf8Bytes first < utf8Bytes second := by
  rw [utf8Bytes_eq_flatMap, utf8Bytes_eq_flatMap]
  exact flatMap_utf8EncodeChar_lt less

end ItemQuery
