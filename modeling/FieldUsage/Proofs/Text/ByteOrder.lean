import FieldUsage.Text.Bytes
import Mathlib.Data.String.Basic

/-!
The order of texts is the order of their bytes. A character with a greater code point has, at the
first byte in which two encodings differ, the greater byte; so comparing texts character by
character is the same as comparing their bytes.
-/

namespace FieldUsage.Text

/-- Numbers are compared by their groups of six bits, from the highest one on. -/
theorem groups_lt {first second : Nat} (below : first < second) :
    first / 262144 < second / 262144 ∨ first / 262144 = second / 262144 ∧
      (first / 4096 % 64 < second / 4096 % 64 ∨ first / 4096 % 64 = second / 4096 % 64 ∧
        (first / 64 % 64 < second / 64 % 64 ∨ first / 64 % 64 = second / 64 % 64 ∧
          first % 64 < second % 64)) := by
  have upper {x y : Nat} (less : x < y) : x / 64 < y / 64 ∨ x / 64 = y / 64 ∧ x % 64 < y % 64 := by
    omega
  have twice (n : Nat) : n / 64 / 64 = n / 4096 := Nat.div_div_eq_div_mul n 64 64
  have thrice (n : Nat) : n / 4096 / 64 = n / 262144 := Nat.div_div_eq_div_mul n 4096 64
  rcases upper below with less | ⟨same, last⟩
  · rcases upper less with less | ⟨same, third⟩
    · rw [twice, twice] at less
      rcases upper less with top | ⟨same, next⟩
      · rw [thrice, thrice] at top
        exact .inl top
      · rw [thrice, thrice] at same
        exact .inr ⟨same, .inl next⟩
    · rw [twice, twice] at same
      rw [← thrice, ← thrice, same]
      exact .inr ⟨rfl, .inr ⟨rfl, .inl third⟩⟩
  · rw [← thrice, ← thrice, ← twice, ← twice, same]
    exact .inr ⟨rfl, .inr ⟨rfl, .inr ⟨rfl, last⟩⟩⟩

/-- A smaller character decides the order of bytes, whatever follows. -/
theorem utf8EncodeChar_append_lt {c d : Char} (below : c < d) (rest more : List UInt8) :
    String.utf8EncodeChar c ++ rest < String.utf8EncodeChar d ++ more := by
  have order : c.val.toNat < d.val.toNat := UInt32.lt_iff_toNat_lt.mp below
  have bound : d.val.toNat < 0x110000 := by
    have valid := d.valid
    simp only [UInt32.isValidChar, Nat.isValidChar] at valid
    omega
  have groups := groups_lt order
  have first : c.val.toNat / 262144 % 8 = c.val.toNat / 262144 := by omega
  have second : d.val.toNat / 262144 % 8 = d.val.toNat / 262144 := by omega
  have compare {x y : Nat} (small : x < 256) (small' : y < 256) (xs ys : List UInt8) :
      UInt8.ofNat x :: xs < UInt8.ofNat y :: ys ↔ x < y ∨ x = y ∧ xs < ys := by
    rw [List.cons_lt_cons_iff, UInt8.lt_iff_toNat_lt, ← UInt8.toNat_inj,
      UInt8.toNat_ofNat_of_lt' small, UInt8.toNat_ofNat_of_lt' small']
  unfold String.utf8EncodeChar
  dsimp only
  -- encodings of different lengths differ in their first byte
  split_ifs <;> simp (disch := omega) only [List.cons_append, List.nil_append, compare] <;> omega

theorem bytes_cons (c : Char) (rest : List Char) :
    bytes (c :: rest) = String.utf8EncodeChar c ++ bytes rest :=
  List.flatMap_cons

theorem bytes_lt_bytes {first second : List Char} (below : first < second) :
    bytes first < bytes second := by
  induction first generalizing second with
  | nil =>
      cases second with
      | nil => simp at below
      | cons d more =>
          have solid := String.utf8EncodeChar_ne_nil (c := d)
          obtain ⟨byte, others, shape⟩ := List.exists_cons_of_ne_nil solid
          simp [bytes, shape]
  | cons c rest ih =>
      cases second with
      | nil => simp at below
      | cons d more =>
          rw [bytes_cons, bytes_cons]
          rcases List.cons_lt_cons_iff.mp below with less | ⟨rfl, later⟩
          · exact utf8EncodeChar_append_lt less _ _
          · exact List.append_left_lt (ih later)

/-- The order of texts is the order of their bytes. -/
theorem bytes_lt_iff (first second : String) :
    bytes first.toList < bytes second.toList ↔ first < second := by
  rw [String.lt_iff_toList_lt]
  constructor
  · intro below
    rcases lt_trichotomy first.toList second.toList with less | same | greater
    · exact less
    · rw [same] at below
      exact absurd below (List.lt_irrefl _)
    · exact absurd below (List.lt_asymm (bytes_lt_bytes greater))
  · exact bytes_lt_bytes

end FieldUsage.Text
