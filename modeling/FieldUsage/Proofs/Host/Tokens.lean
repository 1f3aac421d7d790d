import FieldUsage.Proofs.Host.Reads

/-!
Readers of single tokens. Going on with the next token moves forward, and looking at one moves
nowhere. Where templates have to be in order, none of the words that reorder them is ever met and no
dialect has types: that is what the tests for them tell.
-/

namespace FieldUsage.Host

variable {text : List Char} {ordered : Prop} {α : Type}

theorem length_lexeme_backquote (offset : Nat) {rest : List Char}
    (h : rest.head? = some '`') : (lexeme offset rest).length = 1 := by
  obtain ⟨more, rfl⟩ : ∃ more, rest = '`' :: more := by
    cases rest with
    | nil => simp at h
    | cons c more => exact ⟨more, by simpa using h⟩
  have noWord : ¬ (startsWord '`' || '`' == '\\') = true := by decide
  have noNumber : ¬ (Char.isDigit '`' || ('`' == '.' && more.head?.any Char.isDigit)) = true := by
    simp [show Char.isDigit '`' = false by decide]
  rw [lexeme, if_neg noWord, if_neg noNumber]
  rfl

namespace State

/-- Reading a token passes over blanks and comments only. -/
theorem offset_le_readFrom (state : State text) (silent : Bool) (start : Cursor text) :
    start.offset ≤ (state.readFrom silent start).cursor.offset :=
  start.offset_le_advance _

theorem offset_le_tokenEnd (state : State text) : state.cursor.offset ≤ state.tokenEnd.offset :=
  state.cursor.offset_le_advance _

end State

/-- What is read at any place of a text without the reordering words is sound. -/
theorem Sound.readFrom {context : Context} {state : State text}
    (sound : Sound ordered context state) (silent : Bool) (start : Cursor text) :
    Sound ordered context (state.readFrom silent start) :=
  ⟨sound.budget, sound.untyped, sound.absent,
    fun strict word member read => sound.absent strict word member ⟨_, read⟩,
    length_lexeme_backquote _⟩

section Jumping

variable [Carries text α] {seen : Found text} {tells : α → Prop} {context : Context}
variable {state : State text}

/-- A jump ahead passes the place it jumps to. -/
theorem ReadsFrom.jump {place : Nat} (sound : Sound ordered context state) {cursor : Cursor text}
    (ahead : state.cursor.offset ≤ cursor.offset) (reached : place ≤ cursor.offset) :
    ReadsFrom ordered place [] (Reader.jump cursor) Silent context state := by
  have further : cursor.offset ≤ (state.readFrom context.silent cursor).cursor.offset :=
    state.offset_le_readFrom _ _
  exact .ok rfl ⟨sound.readFrom context.silent cursor, Nat.le_trans ahead further⟩
    (Nat.le_trans reached further) (.refl _) trivial

/-- Going on from a place ahead. -/
theorem ReadsFrom.jumpThen {place : Nat} (sound : Sound ordered context state)
    {cursor : Cursor text} (ahead : state.cursor.offset ≤ cursor.offset)
    (reached : place ≤ cursor.offset) {next : Unit → Reader text α}
    (rest : Reads ordered seen (next ()) tells) :
    ReadsFrom ordered place seen (Reader.jump cursor >>= next) tells context state := by
  rw [← List.append_nil seen]
  refine (ReadsFrom.jump sound ahead reached).bind fun _ _ => ?_
  rwa [carried_bare, List.append_nil]

/-- Noting a fault changes nothing that a reader looks at. -/
theorem Reader.run_noteAny (offset : Option Nat) (context : Context) (state : State text) :
    ∃ next, noteAny offset context state = .ok () next ∧ next.token = state.token ∧
      next.cursor = state.cursor ∧ next.length = state.length := by
  cases offset with
  | none => exact ⟨state, rfl, rfl, rfl, rfl⟩
  | some offset =>
      change ∃ next, (if context.silent then pure () else
        modify fun state => { state with fault := state.fault.or (some offset) } :
          Reader text Unit) context state = .ok () next ∧ _
      split <;> exact ⟨_, rfl, rfl, rfl, rfl⟩

/-- Noting a fault stays at the current token. -/
theorem ReadsFrom.noted {place : Nat} (offset : Option Nat) (sound : Sound ordered context state)
    {next : Unit → Reader text α}
    (rest : ∀ state' : State text, Sound ordered context state' → state'.cursor = state.cursor →
      ReadsFrom ordered place seen (next ()) tells context state') :
    ReadsFrom ordered place seen (Reader.noteAny offset >>= next) tells context state := by
  obtain ⟨state', run, token, cursor, length⟩ := Reader.run_noteAny offset context state
  have sound' : Sound ordered context state' := sound.of_same rfl rfl token cursor length
  exact .step run ⟨sound', Nat.le_of_eq (by rw [cursor])⟩ (rest state' sound' cursor)

/-- A reader that looks at the state first. -/
theorem Reads.get {next : State text → Reader text α}
    (rest : ∀ context state, Sound ordered context state →
      ReadsFrom ordered state.cursor.offset seen (next state) tells context state) :
    Reads ordered seen (get >>= next) tells :=
  ⟨rest⟩

end Jumping

namespace Reader

instance get_reads : Reads ordered [] (get : Reader text (State text)) (·.token.Harmless ordered) :=
  ⟨fun _ _ sound => .ok rfl (.refl sound) (Nat.le_refl _) (.refl _) sound.harmless⟩

instance current_reads :
    Reads ordered [] (current : Reader text Token) (Token.Harmless ordered) := by
  unfold current
  exact .bind fun state harmless => .pure (t := harmless)

instance place_reads : Reads ordered [] (place : Reader text Nat) Silent := by
  unfold place
  exact .bind fun _ _ => .pure

instance afterNewline_reads : Reads ordered [] (afterNewline : Reader text Bool) Silent := by
  unfold afterNewline
  exact .bind fun _ _ => .pure

instance unexpected_reads [Carries text α] :
    Reads ordered [] (unexpected : Reader text α) fun _ => False := by
  unfold unexpected
  exact .bind fun _ _ => .last

instance note_reads (offset : Nat) : Reads ordered [] (note offset : Reader text Unit) Silent := by
  unfold note
  exact .bind fun _ _ => .ite (fun _ => .pure) fun _ => .modify

instance noteAny_reads (offset : Option Nat) :
    Reads ordered [] (noteAny offset : Reader text Unit) Silent := by
  cases offset with
  | some offset => exact inferInstanceAs (Reads ordered [] (note offset) Silent)
  | none => exact .pure

instance advance_reads : Reads ordered [] (advance : Reader text Unit) Silent := by
  unfold advance
  refine .get fun context state sound => ?_
  by_cases atEnd : state.token == .finish
  · simp only [atEnd, if_true]
    exact .ok rfl (.refl sound) (Nat.le_refl _) (.refl _) trivial
  · simp only [atEnd]
    exact .jump sound state.offset_le_tokenEnd state.offset_le_tokenEnd

instance peekState_reads :
    Reads ordered [] (peekState : Reader text (State text)) (·.token.Harmless ordered) := by
  unfold peekState
  refine .get fun context state sound => ?_
  exact .ok rfl (.refl sound) (Nat.le_refl _) (.refl _) (sound.readFrom _ _).harmless

instance peek_reads : Reads ordered [] (peek : Reader text Token) (Token.Harmless ordered) := by
  unfold peek
  exact .bind fun state harmless => .pure (t := harmless)

instance typed_reads : Reads ordered [] (typed : Reader text Bool) (· = true → ¬ ordered) :=
  ⟨fun _ _ sound => .ok rfl (.refl sound) (Nat.le_refl _) (.refl _) fun typed strict =>
    Bool.noConfusion ((sound.untyped strict).symm.trans typed)⟩

instance hasMarkup_reads : Reads ordered [] (hasMarkup : Reader text Bool) Silent := by
  unfold hasMarkup
  exact .bind fun _ _ => .pure

instance isMark_reads (mark : String) :
    Reads ordered [] (isMark mark : Reader text Bool) Silent := by
  unfold isMark
  exact .bind fun _ _ => .pure

instance isAnyMark_reads (marks : List String) :
    Reads ordered [] (isAnyMark marks : Reader text Bool) Silent := by
  unfold isAnyMark
  refine .bind fun state _ => ?_
  split <;> exact .pure

/-- A keyword that is there reorders nothing if order matters. -/
instance isWord_reads (word : String) : Reads ordered [] (isWord word : Reader text Bool)
    fun found => found = true → word ∈ reorderingWords → ¬ ordered := by
  unfold isWord
  refine .bind fun state harmless => .pure (t := ?_)
  intro found member strict
  exact harmless strict word member (by simpa using found)

instance isAnyWord_reads (words : List String) :
    Reads ordered [] (isAnyWord words : Reader text Bool) Silent := by
  unfold isAnyWord
  refine .bind fun state _ => ?_
  split <;> exact .pure

instance isName_reads : Reads ordered [] (isName : Reader text Bool) Silent := by
  unfold isName
  refine .bind fun state _ => ?_
  split <;> exact .pure

instance eatMark_reads (mark : String) :
    Reads ordered [] (eatMark mark : Reader text Bool) Silent := by
  unfold eatMark
  exact .bind fun _ _ => .ite (fun _ => .bind fun _ _ => .pure) fun _ => .pure

instance eatWord_reads (word : String) : Reads ordered [] (eatWord word : Reader text Bool)
    fun found => found = true → word ∈ reorderingWords → ¬ ordered := by
  unfold eatWord
  refine .bind fun found told => .ite (fun here => .bind fun _ _ => .pure (t := ?_)) fun _ => .pure
  exact fun _ => told here

instance expectMark_reads (mark : String) :
    Reads ordered [] (expectMark mark : Reader text Unit) Silent := by
  unfold expectMark
  exact .bind fun _ _ => .ite (fun _ => .pure) fun _ => .last

instance expectWord_reads (word : String) : Reads ordered [] (expectWord word : Reader text Unit)
    fun _ => word ∈ reorderingWords → ¬ ordered := by
  unfold expectWord
  exact .bind fun _ told => .ite (fun here => .pure (t := told here)) fun _ => .last

instance atStatementEnd_reads : Reads ordered [] (atStatementEnd : Reader text Bool) Silent := by
  unfold atStatementEnd
  refine .bind fun state _ => ?_
  split
  iterate 3 exact .pure
  exact .last

instance eatSemicolon_reads : Reads ordered [] (eatSemicolon : Reader text Bool) Silent := by
  unfold eatSemicolon
  exact .bind fun _ _ => .ite (fun _ => .pure) fun _ => .last

instance expectSemicolon_reads : Reads ordered [] (expectSemicolon : Reader text Unit) Silent := by
  unfold expectSemicolon
  exact .bind fun _ _ => .ite (fun _ => .pure) fun _ => .last

section Lists

variable {item : Reader text (Found text)} [Reads ordered [] item Silent]

instance itemsUntil_reads (close : String) : Reads ordered [] (itemsUntil close item) Silent := by
  unfold itemsUntil
  refine .first (.loop fun found => ?_) fun found => .bind fun _ _ => .pure
  exact .bind fun _ _ => .ite (fun _ => .pure) fun _ => .bind fun more _ => .pure

instance commaList_reads (close : String) : Reads ordered [] (commaList close item) Silent := by
  have : Reads ordered [] (do
      let found ← item
      unless ← isMark close do expectMark ","
      return found) Silent :=
    .bind fun found _ => .bind fun _ _ => .whenNot <| .pure
  unfold commaList
  exact .last

instance separated_reads (mark : String) : Reads ordered [] (separated mark item) Silent := by
  unfold separated
  refine .bind fun found _ => .loop fun found => ?_
  exact .bind fun _ _ => .ite (fun _ => .bind fun more _ => .pure) fun _ => .pure

end Lists

instance withIn_reads [Carries text α] {seen : Found text} {tells : α → Prop}
    (reader : Reader text α) [Reads ordered seen reader tells] :
    Reads ordered seen (withIn reader) tells := by
  unfold withIn
  exact .within

instance withoutIn_reads [Carries text α] {seen : Found text} {tells : α → Prop}
    (reader : Reader text α) [Reads ordered seen reader tells] :
    Reads ordered seen (withoutIn reader) tells := by
  unfold withoutIn
  exact .within

instance identifier_reads : Reads ordered [] (identifier : Reader text (Word text)) Silent := by
  unfold identifier
  refine .bind fun state _ => ?_
  split
  · refine .bind fun offset _ => ?_
    refine .ite (fun _ => ?_) fun _ => ?_
    · refine .bind fun types _ => .when <| .bind fun context _ => .when <|
        .whenNot <| ?_
      exact .bind fun context _ => .when <| .bind fun _ _ => .pure
    · exact .bind fun context _ => .when <| .bind fun _ _ => .pure
  · exact .last

instance reference_reads : Reads ordered [] (reference : Reader text (Word text)) Silent := by
  unfold reference
  refine .bind fun state _ => ?_
  split
  · exact .ite (fun _ => .last) fun _ => .last
  · exact .last

instance bindingName_reads : Reads ordered [] (bindingName : Reader text (Word text)) Silent := by
  unfold bindingName
  exact .bind fun offset _ => .bind fun word _ => .when <| .pure

instance anyName_reads : Reads ordered [] (anyName : Reader text (Word text)) Silent := by
  unfold anyName
  refine .bind fun state _ => ?_
  split
  · exact .bind fun _ _ => .pure
  · exact .last

instance privateName_reads : Reads ordered [] (privateName : Reader text (Word text)) Silent := by
  unfold privateName
  exact .bind fun start _ => .bind fun state _ => .bind fun _ _ => .bind fun state _ =>
    .when <| .last

end Reader

namespace Operator

open Reader

instance wideMark_reads : Reads ordered [] (wideMark : Reader text (Option String)) Silent := by
  unfold wideMark
  refine .bind fun state _ => ?_
  split <;> exact .pure

instance advanceWide_reads : Reads ordered [] (advanceWide : Reader text Unit) Silent := by
  unfold advanceWide
  refine .get fun context state sound => ?_
  split
  · exact .jump sound (state.cursor.offset_le_advance _) (state.cursor.offset_le_advance _)
  · exact Reads.from_sound context state sound

instance binary?_reads :
    Reads ordered [] (binary? : Reader text (Option (String × Nat))) Silent := by
  unfold binary?
  refine .bind fun token _ => ?_
  split
  · exact .bind fun context _ => .pure
  · exact .pure
  · refine .bind fun mark _ => ?_
    split <;> exact .pure

instance isBinaryMark_reads : Reads ordered [] (isBinaryMark : Reader text Bool) Silent := by
  unfold isBinaryMark
  refine .bind fun mark _ => ?_
  split <;> exact .pure

instance assignment?_reads :
    Reads ordered [] (assignment? : Reader text (Option String)) Silent := by
  unfold assignment?
  refine .bind fun mark _ => ?_
  split <;> exact .pure

instance checkTarget_reads (node : Node text) : Reads ordered [] (checkTarget node) Silent := by
  unfold checkTarget
  exact .ite (fun _ => .pure) fun _ => .last

end Operator

end FieldUsage.Host
