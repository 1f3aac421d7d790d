import FieldUsage.GraphQL.Token
import FieldUsage.Text.Bytes

/-!
Names of the grammar: a letter or an underscore, and then letters, digits and underscores. All
these characters are far from the blanks, the marks and the quotes of every format, which is all
that readers of names rely on.
-/

namespace FieldUsage.GraphQL

def Token.isName : List Char → Bool
  | first :: rest => startsName first && rest.all continuesName
  | [] => false

def IsName (text : String) : Prop := Token.isName text.toList = true

instance (text : String) : Decidable (IsName text) := inferInstanceAs (Decidable (_ = true))

namespace Token

/-- The code points of the characters of names. -/
theorem toNat_of_continuesName {c : Char} (h : continuesName c = true) :
    48 ≤ c.toNat ∧ c.toNat ≤ 57 ∨ 65 ≤ c.toNat ∧ c.toNat ≤ 90 ∨ c.toNat = 95 ∨
      97 ≤ c.toNat ∧ c.toNat ≤ 122 := by
  have range (low high : UInt32) (h : low ≤ c.val ∧ c.val ≤ high) :
      low.toNat ≤ c.toNat ∧ c.toNat ≤ high.toNat :=
    ⟨UInt32.le_iff_toNat_le.1 h.1, UInt32.le_iff_toNat_le.1 h.2⟩
  have both (low high : UInt32) (h : (decide (low ≤ c.val) && decide (c.val ≤ high)) = true) :
      low ≤ c.val ∧ c.val ≤ high := by simpa using h
  have classes : (((c.isUpper || c.isLower) || c.isDigit) || c == '_') = true := h
  simp only [Bool.or_eq_true, beq_iff_eq] at classes
  rcases classes with ((upper | lower) | digit) | rfl
  · exact .inr (.inl (range 65 90 (of_decide_eq_true upper)))
  · exact .inr (.inr (.inr (range 97 122 (both 97 122 lower))))
  · exact .inl (range 48 57 (both 48 57 digit))
  · exact .inr (.inr (.inl rfl))

theorem continuesName_of_startsName {c : Char} (h : startsName c = true) :
    continuesName c = true := by
  simp only [startsName, continuesName, Char.isAlphanum, Bool.or_eq_true] at h ⊢
  rcases h with h | h
  · exact .inl (.inl h)
  · exact .inr h

theorem ne_of_continuesName {c other : Char} (h : continuesName c = true)
    (not : continuesName other = false) : c ≠ other := by
  rintro rfl
  rw [h] at not
  cases not

/-- No character of a name is a blank. -/
theorem isBlank_of_continuesName {c : Char} (h : continuesName c = true) :
    Text.isBlank c = false := by
  have code := toNat_of_continuesName h
  simp only [Text.isBlank, Bool.or_eq_false_iff, Bool.and_eq_false_iff, decide_eq_false_iff_not,
    beq_eq_false_iff_ne]
  omega

end Token

theorem IsName.continuesName {text : String} (name : IsName text) :
    ∀ c ∈ text.toList, Token.continuesName c = true := by
  unfold IsName at name
  cases shape : text.toList with
  | nil => simp
  | cons first rest =>
      rw [shape, Token.isName, Bool.and_eq_true, List.all_eq_true] at name
      exact List.forall_mem_cons.2 ⟨Token.continuesName_of_startsName name.1, name.2⟩

theorem IsName.toList_ne_nil {text : String} (name : IsName text) : text.toList ≠ [] := by
  intro empty
  rw [IsName, empty] at name
  cases name

/-- Characters that no name contains are not in this one. -/
theorem IsName.notMem {text : String} (name : IsName text) {c : Char}
    (other : Token.continuesName c = false) : c ∉ text.toList := by
  intro member
  exact Token.ne_of_continuesName (name.continuesName c member) other rfl

end FieldUsage.GraphQL
