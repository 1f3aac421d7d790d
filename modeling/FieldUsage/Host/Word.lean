import FieldUsage.Host.Cursor
import FieldUsage.Host.Token

/-!
Names as they are written. An identifier of host text may spell any of its characters as an escape,
so a name and what stands for it in the text can differ. A word is a name that is known to be
spelled somewhere in the text it was read from.
-/

namespace FieldUsage.Host

/-- The first text spells the second: each character stands for itself or is written as an escape.
-/
inductive Spells : List Char → List Char → Prop where
  | nil : Spells [] []
  | plain {c : Char} {spelling name : List Char} :
      c ≠ '\\' → Spells spelling name → Spells (c :: spelling) (c :: name)
  | escape {code : Nat} {digits spelling name : List Char} :
      codeEscape? digits = some (code, digits.length) → Spells spelling name →
        Spells ('\\' :: (digits ++ spelling)) (Char.ofNat code :: name)

/-- A spelling without escapes is the name itself. -/
theorem Spells.eq_of_notMem {spelling name : List Char} (h : Spells spelling name)
    (plain : '\\' ∉ spelling) : spelling = name := by
  induction h with
  | nil => rfl
  | plain _ _ ih => rw [ih (fun member => plain (List.mem_cons_of_mem _ member))]
  | escape _ _ _ => exact absurd List.mem_cons_self plain

/-- An escape takes as many characters as it says, and those are all it depends on. -/
theorem codeEscape?_take {text : List Char} {code used : Nat}
    (h : codeEscape? text = some (code, used)) :
    used ≤ text.length ∧ codeEscape? (text.take used) = some (code, used) := by
  unfold codeEscape? at h
  split at h
  case h_1 rest =>
    obtain ⟨⟨value, length⟩, braced, h⟩ := Option.bind_eq_some_iff.1 h
    simp only at h
    split at h
    case isTrue small =>
      obtain ⟨rfl, rfl⟩ := by simpa using h
      obtain ⟨long, cut⟩ := Text.bracedHex?_take braced
      exact ⟨by simp only [List.length_cons]; omega, by simp [codeEscape?, cut, small]⟩
    case isFalse => cases h
  case h_2 rest unbraced =>
    obtain ⟨value, read, same⟩ := Option.map_eq_some_iff.1 h
    obtain ⟨rfl, rfl⟩ := by simpa using same
    obtain ⟨long, cut⟩ := Text.hexAt?_take read
    refine ⟨by simp only [List.length_cons]; omega, ?_⟩
    have unbracedCut : ∀ more, rest.take 4 ≠ '{' :: more := by
      intro more opens
      obtain ⟨c, tail, rfl⟩ := List.exists_cons_of_length_pos (l := rest) (by omega)
      exact unbraced tail (by rw [(List.cons.inj opens).1])
    rw [List.take_succ_cons, codeEscape?, cut]
    · rfl
    · exact unbracedCut
  case h_3 => cases h

/-- What a scan adds to a name is spelled by the text right behind the characters it skips. -/
theorem spells_of_scanWord (skip : Nat) (text : List Char) (scan : WordScan)
    (valid : (scanWord skip text scan).valid = true) :
    ∃ spelling name more, text.drop skip = spelling ++ more ∧ Spells spelling name ∧
      (scanWord skip text scan).text = name.reverse ++ scan.text := by
  fun_induction scanWord skip text scan with
  | case1 skip scan => exact ⟨[], [], [], by simp, .nil, rfl⟩
  | case2 skip c rest scan ih => simpa using ih valid
  | case3 rest scan fits code used read fitting ih =>
      obtain ⟨spelling, name, more, follows, spells, added⟩ := ih valid
      obtain ⟨long, cut⟩ := codeEscape?_take read
      have taken : (rest.take used).length = used := List.length_take_of_le long
      refine ⟨'\\' :: (rest.take used ++ spelling), Char.ofNat code :: name, more, ?_,
        .escape (taken.symm ▸ cut) spells, ?_⟩
      · calc ('\\' :: rest).drop 0
          _ = '\\' :: (rest.take used ++ rest.drop used) := by rw [List.take_append_drop]; rfl
          _ = '\\' :: (rest.take used ++ spelling) ++ more := by simp [follows]
      · rw [added]
        simp
  | case4 => cases valid
  | case5 => cases valid
  | case6 c rest scan fits plain fitting ih =>
      obtain ⟨spelling, name, more, follows, spells, added⟩ := ih valid
      exact ⟨c :: spelling, c :: name, more, by simpa using follows, .plain plain spells,
        by simp [added]⟩
  | case7 c rest scan => exact ⟨[], [], c :: rest, rfl, .nil, rfl⟩

/-- What is cut off as a word spells it, escapes included. -/
theorem spells_of_wordLexeme {offset : Nat} {text : List Char} {name : String} {escaped : Bool}
    (h : (wordLexeme offset text).token = .word name escaped) :
    ∃ spelling more, text = spelling ++ more ∧ Spells spelling name.toList := by
  unfold wordLexeme at h
  simp only at h
  split at h
  · cases h
  · rename_i valid
    split at h
    · cases h
    · obtain ⟨spelling, decoded, more, follows, spells, added⟩ :=
        spells_of_scanWord 0 text {} (by simpa using valid)
      obtain ⟨rfl, -⟩ := Token.word.inj h
      refine ⟨spelling, more, by simpa using follows, ?_⟩
      simpa [added] using spells

theorem closeNumber_ne_word (offset length : Nat) (misplaced forbidden : Bool) (text : List Char)
    (name : String) (escaped : Bool) :
    (closeNumber offset length misplaced forbidden text).token ≠ .word name escaped := by
  unfold closeNumber
  dsimp only
  split
  · split <;> simp
  · simp

theorem numberLexeme_ne_word (offset : Nat) (text : List Char) (name : String) (escaped : Bool) :
    (numberLexeme offset text).token ≠ .word name escaped := by
  have based (accepts : Char → Bool) :
      (basedNumber offset accepts text).token ≠ .word name escaped := by
    unfold basedNumber
    dsimp only
    split
    · nofun
    · exact closeNumber_ne_word _ _ _ _ _ _ _
  have decimal : (decimalNumber offset text).token ≠ .word name escaped := by
    unfold decimalNumber
    dsimp only
    split
    · nofun
    · exact closeNumber_ne_word _ _ _ _ _ _ _
  unfold numberLexeme
  split
  · split
    · exact based _
    · split
      · exact based _
      · split
        · exact based _
        · exact decimal
  · exact decimal

theorem stringLexeme_ne_word (offset : Nat) (quote : Char) (text : List Char) (name : String)
    (escaped : Bool) : (stringLexeme offset quote text).token ≠ .word name escaped := by
  unfold stringLexeme
  dsimp only
  split <;> nofun

/-- A word that is cut off a text is spelled at its beginning. -/
theorem spells_of_lexeme {offset : Nat} {text : List Char} {name : String} {escaped : Bool}
    (h : (lexeme offset text).token = .word name escaped) :
    ∃ spelling more, text = spelling ++ more ∧ Spells spelling name.toList := by
  unfold lexeme at h
  split at h
  · cases h
  · split at h
    · exact spells_of_wordLexeme h
    · split at h
      · exact absurd h (numberLexeme_ne_word _ _ _ _)
      · split at h
        · exact absurd h (stringLexeme_ne_word _ _ _ _ _)
        · split at h
          · cases h
          · split at h <;> cases h

def Spelled (text : List Char) (name : String) : Prop :=
  ∃ spelling, Spells spelling name.toList ∧ spelling <:+: text

/-- The word at a cursor is spelled there. -/
theorem Cursor.spelled {text : List Char} (cursor : Cursor text) {name : String} {escaped : Bool}
    (h : (lexeme cursor.offset cursor.rest).token = .word name escaped) : Spelled text name := by
  obtain ⟨spelling, more, follows, spells⟩ := spells_of_lexeme h
  refine ⟨spelling, spells, cursor.before.reverse, more, ?_⟩
  rw [List.append_assoc, ← follows, cursor.whole]

structure Word (text : List Char) where
  name : String
  spelled : Spelled text name
deriving DecidableEq, Repr

end FieldUsage.Host
