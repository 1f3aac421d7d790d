import FieldUsage.Proofs.Host.Tokens

/-!
Templates in types. They are the ones in computed keys, and are listed as they stand; but what comes
after a type is often listed before it. So the readers of optional types also tell that they find
nothing where order matters, since no dialect has types there.
-/

namespace FieldUsage.Host

variable {text : List Char} {ordered : Prop}

namespace Node

variable (start : Nat) (form : Form text) (found more : Found text) (left right : Node text)

@[simp] theorem plain_form : (plain start form found).form = form := rfl
@[simp] theorem plain_templates : (plain start form found).templates = found := rfl
@[simp] theorem around_form : (around start form left found).form = form := rfl
@[simp] theorem around_templates :
    (around start form left found).templates = left.templates ++ found := rfl
@[simp] theorem joined_form : (joined form left right).form = form := rfl
@[simp] theorem joined_templates :
    (joined form left right).templates = left.templates ++ right.templates := rfl
@[simp] theorem arrow_form : (arrow start found more).form = .arrow := rfl
@[simp] theorem arrow_templates : (arrow start found more).templates = found ++ more := rfl
@[simp] theorem generic_form : (generic start found left).form = .arrow := rfl

/-- Type parameters are put between the templates of an arrow function, and none is lost. -/
@[simp] theorem countP_generic (p : Template text → Bool) :
    (generic start found left).templates.countP p = left.templates.countP p + found.countP p := by
  simp only [generic, arrow_templates, List.countP_append]
  rw [Nat.add_right_comm, ← List.countP_append, List.take_append_drop]

end Node

/-- A bare name has no templates in it. -/
@[simp] def Node.Plain (node : Node text) : Prop :=
  ∀ word, node.form = .name word → node.templates = []

/-- A grammar that reads every goal as its templates stand in the text. -/
class Goals (ordered : Prop) (grammar : Grammar text) : Prop where
  reads : ∀ goal, Reads ordered [] (grammar goal) Node.Plain

instance (priority := low) grammar_reads (grammar : Grammar text) (goal : Goal)
    [Goals ordered grammar] : Reads ordered [] (grammar goal) Node.Plain :=
  Goals.reads goal

@[simp] theorem getD_nil (found : Option (Found text)) : found.getD [] = carried text found := by
  cases found <;> rfl

namespace TypeGrammar

open Reader

/-- What is read only where there are types is nothing where order matters. -/
theorem ifTyped_reads {opens : Reader text Bool} {reader : Reader text (Found text)}
    [Reads ordered [] opens Silent] [Reads ordered [] reader Silent] :
    Reads ordered [] (do if (← typed) && (← opens) then reader else return [])
      fun found => ordered → found = [] := by
  refine .bind fun types told => .bind fun here _ => .ite (fun both => .last (t := ?_)) fun _ =>
    .pure
  have free : ¬ ordered := told (by simp_all)
  exact fun _ _ strict => absurd strict free

variable (grammar : Grammar text) [Goals ordered grammar]

instance foundIn_reads (goal : Goal) : Reads ordered [] (foundIn grammar goal) Silent := by
  unfold foundIn
  exact .bind fun node _ => .pure

instance freeType_reads : Reads ordered [] (freeType grammar) Silent := by
  unfold freeType
  exact .last

instance annotation_reads : Reads ordered [] ( annotation grammar) Silent := by
  unfold annotation
  exact .bind fun _ _ => .last

instance annotation?_reads :
    Reads ordered [] ( annotation? grammar) fun found => ordered → found = [] := by
  unfold annotation?
  exact ifTyped_reads

instance cutBracket_reads : Reads ordered [] (cutBracket : Reader text Unit) Silent := by
  unfold cutBracket
  constructor
  intro context state sound
  have cut : Sound ordered context
      { state with token := .mark "<", spelled := nofun, length := 1 } :=
    ⟨sound.budget, sound.untyped, sound.absent, fun _ _ _ => nofun, fun _ => rfl⟩
  exact .ok rfl ⟨cut, Nat.le_refl _⟩ (Nat.le_refl _) (.refl _) trivial

instance openBracket_reads : Reads ordered [] (openBracket : Reader text Unit) Silent := by
  unfold openBracket
  exact .bind fun _ _ => .ite (fun _ => .last) fun _ => .pure

instance arguments_reads : Reads ordered [] (arguments grammar) Silent := by
  unfold arguments
  exact .bind fun _ _ => .bind fun _ _ => .last

instance opensArguments_reads : Reads ordered [] (opensArguments : Reader text Bool) Silent := by
  unfold opensArguments
  exact .last

instance parameter_reads (callable : Bool) :
    Reads ordered [] (parameter grammar callable) Silent := by
  unfold parameter
  refine .first (.loop fun hasOut => ?_) fun _ => ?_
  · refine .bind fun start _ => .bind fun modifies _ => .bind fun next _ => .ite (fun _ => ?_)
      fun _ => .pure
    refine .bind fun isOut _ => .bind fun next _ => .ite (fun _ => .pure) fun _ => ?_
    refine .bind fun isIn _ => .bind fun isConst _ => .when <| ?_
    exact .bind fun isOut _ => .bind fun _ _ => .pure
  · refine .bind fun name _ => .bind fun bounded _ => .either fun bound _ _ => ?_
    exact .bind fun defaulted _ => .either fun default _ _ => .pure

instance parameters_reads (callable : Bool) :
    Reads ordered [] (parameters grammar callable) Silent := by
  unfold parameters
  exact .bind fun _ _ => .bind fun _ _ => .last

instance parameters?_reads (callable : Bool) :
    Reads ordered [] (parameters? grammar callable) fun found => ordered → found = [] := by
  unfold parameters?
  exact ifTyped_reads

instance entityName_reads (first : Reader text (Word text)) [Reads ordered [] first Silent] :
    Reads ordered [] (entityName first) Silent := by
  unfold entityName
  refine .bind fun _ _ => .loop fun _ => ?_
  refine .bind fun _ _ => .ite (fun _ => ?_) fun _ => .pure
  refine .bind fun _ _ => .ite (fun _ => .bind fun _ _ => .pure) fun _ => ?_
  exact .bind fun _ _ => .bind fun _ _ => .pure

instance returned_reads : Reads ordered [] (returned grammar) Silent := by
  unfold returned
  refine .bind fun next _ => .bind fun asserts _ => .ite (fun _ => ?_) fun _ => ?_
  · refine .bind fun _ _ => .bind fun _ _ => .bind fun is _ => .bind fun newline _ => ?_
    exact .ite (fun _ => .bind fun _ _ => .last) fun _ => .pure
  · refine .bind fun token _ => .ite (fun _ => ?_) fun _ => .last
    exact .bind fun _ _ => .bind fun _ _ => .last

instance returned?_reads :
    Reads ordered [] (returned? grammar) fun found => ordered → found = [] := by
  unfold returned?
  exact ifTyped_reads

instance signatureParameter_reads : Reads ordered [] (signatureParameter grammar) Silent := by
  unfold signatureParameter
  exact .bind fun rest _ => .bind fun name _ => .whenNot <| .bind fun type _ => .pure

instance signatureParameters_reads : Reads ordered [] (signatureParameters grammar) Silent := by
  unfold signatureParameters
  exact .bind fun _ _ => .last

instance functionType_reads : Reads ordered [] (functionType grammar) Silent := by
  unfold functionType
  exact .bind fun bounds _ => .bind fun names _ => .bind fun _ _ => .bind fun result _ => .pure

instance opensFunction_reads : Reads ordered [] (opensFunction : Reader text Bool) Silent := by
  unfold opensFunction
  exact .last

instance plainType_reads : Reads ordered [] (plainType grammar) Silent := by
  unfold plainType
  refine .bind fun _ _ => .ite (fun _ => .last) fun _ => ?_
  refine .bind fun _ _ => .bind fun _ _ => .ite (fun _ => .last) fun _ => ?_
  refine .bind fun _ _ => .ite (fun _ => .bind fun _ _ => .last) fun _ => ?_
  refine .bind fun _ _ => .bind fun _ _ => .ite (fun _ => ?_) fun _ => ?_
  · exact .bind fun _ _ => .bind fun _ _ => .last
  · have : Reads ordered [] (do
        let _ ← eatMark "&"
        separated "&" (foundIn grammar .prefixedType)) Silent :=
      .bind fun _ _ => .last
    exact .bind fun _ _ => .last

instance type_reads : Reads ordered [] (type grammar) Silent := by
  unfold type
  refine .bind fun subject _ => .bind fun context _ => .bind fun newline _ =>
    .bind fun extends_ _ =>
    .ite (fun _ => .pure) fun _ => ?_
  refine .bind fun _ _ => .bind fun bound _ => .bind fun _ _ => .bind fun yes _ => ?_
  exact .bind fun _ _ => .bind fun no _ => .pure

instance inferredBound_reads : Reads ordered [] (inferredBound grammar) Silent := by
  unfold inferredBound
  refine .bind fun _ _ => .ite (fun _ => ?_) fun _ => .pure
  refine .bind fun context _ => .first (.trial ?_) fun bound => ?_
  · exact .bind fun _ _ => .bind fun bound _ => .bind fun _ _ => .when .pure
  · exact .pure

instance memberKey_reads : Reads ordered [] (memberKey grammar) Silent := by
  unfold memberKey
  refine .bind fun token _ => ?_
  split
  iterate 3 exact .bind fun _ _ => .pure
  · exact .bind fun _ _ => .bind fun key _ => .bind fun _ _ => .pure
  · exact .bind fun _ _ => .bind fun _ _ => .bind fun _ _ => .pure
  · exact .last

instance opensIndex_reads : Reads ordered [] (opensIndex : Reader text Bool) Silent := by
  unfold opensIndex
  exact .last

instance indexSignature_reads : Reads ordered [] (indexSignature grammar) Silent := by
  unfold indexSignature
  refine .bind fun _ _ => .bind fun name _ => .bind fun key _ => .bind fun _ _ => ?_
  exact .bind fun value _ => .pure

instance accessor_reads : Reads ordered [] (accessor grammar) Silent := by
  unfold accessor
  refine .bind fun isGetter _ => .bind fun _ _ => .bind fun key _ => .ite (fun _ => ?_) fun _ => ?_
  · exact .bind fun _ _ => .bind fun _ _ => .bind fun value _ => .pure
  · refine .bind fun _ _ => .bind fun _ _ => .when <| .bind fun value _ => .pure

instance member_reads : Reads ordered [] (member grammar) Silent := by
  have signature : Reads ordered [] (do
      let bounds ← parameters? grammar
      let names ← signatureParameters grammar
      let result ← returned? grammar
      return bounds ++ names ++ result) Silent :=
    .bind fun bounds _ => .bind fun names _ => .bind fun result _ => .pure
  unfold member
  refine .bind fun _ _ => .ite (fun _ => .last) fun _ => ?_
  refine .bind fun _ _ => .bind fun _ _ => .bind fun _ _ => .ite (fun _ => .bind fun _ _ => .last)
    fun _ => ?_
  refine .bind fun _ _ => .bind fun _ _ => .when ?_
  refine .bind fun _ _ => .bind fun _ _ => .ite (fun _ => .last) fun _ => ?_
  refine .bind fun _ _ => .bind fun _ _ => ?_
  -- what the branches share behind them is named, so that its property is proved once
  extract_lets rest
  have (u : Unit) : Reads ordered [] (rest u) Silent :=
    .bind fun key _ => .bind fun _ _ => .bind fun _ _ => .either fun rest _ _ => .pure
  clear_value rest
  refine .ite (fun _ => .bind fun tried _ => ?_) fun _ => .last
  cases tried with
  | some found => exact .pure
  | none => exact .last

instance members_reads : Reads ordered [] (members grammar) Silent := by
  have : Reads ordered [] (do
      let found ← member grammar
      unless ← eatMark "," do expectSemicolon
      return found) Silent :=
    .bind fun found _ => .bind fun _ _ => .whenNot .pure
  unfold members
  exact .bind fun _ _ => .last

instance opensMapped_reads : Reads ordered [] (opensMapped : Reader text Bool) Silent := by
  unfold opensMapped
  exact .last

instance mapped_reads : Reads ordered [] (mapped grammar) Silent := by
  unfold mapped
  refine .bind fun _ _ => .bind fun signed _ => ?_
  extract_lets rest
  have (u : Unit) : Reads ordered [] (rest u) Silent := by
    refine .bind fun _ _ => .bind fun name _ => .bind fun _ _ => .bind fun keys _ =>
      .bind fun _ _ => .either fun renamed _ _ => .bind fun _ _ => .bind fun _ _ => ?_
    extract_lets value
    have (u : Unit) : Reads ordered (keys ++ renamed) (value u) Silent :=
      .bind fun value _ => .bind fun _ _ => .bind fun _ _ => .pure
    clear_value value
    exact .ite (fun _ => .bind fun _ _ => .bind fun _ _ => .last) fun _ => .bind fun _ _ => .last
  clear_value rest
  exact .ite (fun _ => .bind fun _ _ => .bind fun _ _ => .last) fun _ => .bind fun _ _ => .last

instance labelsElement_reads : Reads ordered [] (labelsElement : Reader text Bool) Silent := by
  unfold labelsElement
  exact .last

instance tuple_reads : Reads ordered [] (tuple grammar) Silent := by
  unfold tuple
  refine .bind fun _ _ => .first (.loop fun state => ?_) fun ⟨found, _⟩ => .bind fun _ _ => .pure
  obtain ⟨found, optional⟩ := state
  refine .bind fun _ _ => .ite (fun _ => .pure) fun _ => ?_
  refine .bind fun start _ => .bind fun rest _ => .bind fun labelled _ => ?_
  extract_lets unlabelled present element
  have (u : Unit) (missing : Bool) : Reads ordered found (element u missing) Silent := by
    refine .bind fun type _ => ?_
    extract_lets separator
    have (u : Unit) (missing : Bool) : Reads ordered (found ++ type) (separator u missing) Silent :=
      .when <| .bind fun _ _ => .whenNot .pure
    clear_value separator
    refine .ite (fun _ => .bind fun _ _ => .ite (fun _ => ?_) fun _ => ?_) fun _ => .last
    exacts [.last, .last]
  clear_value element
  refine .ite (fun _ => ?_) fun _ => .last
  exact .bind fun _ _ => .bind fun missing _ => .bind fun _ _ => .last

/-- The holes of a template literal type are types, and each of them is behind the one before. -/
instance templateType_reads : Reads ordered [] (templateType grammar) Silent := by
  unfold templateType
  refine .bind fun start _ => .first (.loop fun state => ?_) fun ⟨found, _⟩ => .pure
  obtain ⟨found, more⟩ := state
  refine .ite (fun _ => .pure) fun _ => .get fun context state sound => ?_
  extract_lets after
  have ahead (count more : Nat) :
      state.cursor.offset ≤ ((after.advance count).advance more).offset :=
    Nat.le_trans state.offset_le_tokenEnd
      (Nat.le_trans (after.offset_le_advance _) (Cursor.offset_le_advance _ _))
  split
  · exact .error rfl (.refl sound)
  · split
    · exact .jumpThen sound (ahead _ _) (ahead _ _) <| .bind fun type _ => .bind fun _ _ =>
        .whenNot .pure
    · exact .jumpThen sound (ahead _ _) (ahead _ _) .pure

instance imported_reads : Reads ordered [] (imported grammar) Silent := by
  unfold imported
  refine .bind fun _ _ => .bind fun _ _ => .bind fun token _ => .whenNotTwo ?_
  refine .bind fun _ _ => .bind fun _ _ => .bind fun _ _ => .either fun options _ _ => ?_
  refine .bind fun _ _ => .bind fun _ _ => .bind fun _ _ => .when <| .bind fun _ _ => ?_
  exact .either fun more _ _ => .pure

instance atom_reads : Reads ordered [] (atom grammar) Silent := by
  unfold atom
  refine .bind fun token _ => ?_
  split
  iterate 2 exact .bind fun _ _ => .pure
  · exact .last
  · exact .bind fun _ _ => .bind fun _ _ => .ite (fun _ => .bind fun _ _ => .pure) fun _ => .last
  · exact .bind fun _ _ => .ite (fun _ => .last) fun _ => .last
  · exact .last
  · exact .bind fun _ _ => .bind fun inner _ => .bind fun _ _ => .pure
  · refine .bind fun _ _ => .bind fun _ _ => .ite (fun _ => .last) fun _ => ?_
    refine .bind fun _ _ => .bind fun _ _ => .bind fun _ _ => ?_
    exact .ite (fun _ => .last) fun _ => .pure
  · exact .last
  · refine .ite (fun _ => ?_) fun _ => .ite (fun _ => .last) fun _ => ?_
    · refine .bind fun _ _ => .bind fun _ _ => .bind fun _ _ => ?_
      exact .ite (fun _ => .bind fun _ _ => .last) fun _ => .pure
    · refine .bind fun _ _ => .ite (fun _ => .bind fun _ _ => .pure) fun _ => ?_
      refine .bind fun _ _ => .bind fun _ _ => .bind fun _ _ => ?_
      exact .ite (fun _ => .last) fun _ => .pure
  · exact .last

instance bracketed_reads : Reads ordered [] (bracketed grammar) Silent := by
  unfold bracketed
  refine .bind fun found _ => .loop fun found => ?_
  refine .bind fun _ _ => .bind fun _ _ => .ite (fun _ => ?_) fun _ => .pure
  refine .bind fun _ _ => .bind fun _ _ => .ite (fun _ => .pure) fun _ => ?_
  exact .bind fun index _ => .bind fun _ _ => .pure

instance prefixed_reads : Reads ordered [] (prefixed grammar) Silent := by
  unfold prefixed
  refine .bind fun _ _ => .ite (fun _ => .bind fun _ _ => .last) fun _ => ?_
  refine .bind fun _ _ => .ite (fun _ => .bind fun _ _ => .last) fun _ => .last

end TypeGrammar

end FieldUsage.Host
