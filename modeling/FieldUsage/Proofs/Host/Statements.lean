import FieldUsage.Proofs.Host.Expressions

/-!
Templates in statements and modules. A `do` loop lists its test before its body; all other
statements list their parts as they stand. So the templates of a module are apart from each other,
and in order where there are no types, no class and no `do` loop.
-/

namespace FieldUsage.Host

variable {text : List Char} {ordered : Prop}

open Reader TypeGrammar

instance : Carries text (Statement.Variables text) := ⟨Statement.Variables.templates⟩
instance : Bare text Statement.VariableKind := {}
instance : Bare text (List Nat) := {}

@[simp] theorem carried_declared (declared : Statement.Variables text) :
    carried text declared = declared.templates := rfl

section Nested

variable (grammar : Grammar text) [Goals ordered grammar]

namespace Statement

instance variableItem_reads (inLoop : Bool) (seen : Variables text) :
    Reads ordered seen.templates (variableItem grammar inLoop seen) Silent := by
  unfold variableItem
  refine .bind fun start _ => .bind fun _ _ => .when <| .bind fun pattern _ => .bind fun _ _ => ?_
  refine .when <| .bind fun _ _ => .bind fun _ _ => .bind fun type _ => .bind fun _ _ => ?_
  refine .bind fun _ _ => ?_
  extract_lets -underBinder hasValue rest
  have (value : Found text) :
      Reads ordered (seen.templates ++ pattern.templates ++ type ++ value) (rest value) Silent :=
    .pure
  clear_value rest
  refine .ite (fun _ => .bind fun _ _ => .bind fun value _ => .last) fun _ => ?_
  refine .bind fun context _ => ?_
  extract_lets none
  have (u : Unit) : Reads ordered (seen.templates ++ pattern.templates ++ type) (none u) Silent :=
    .pureBind .last
  clear_value none
  refine .ite (fun _ => .ite (fun _ => .bind fun _ _ => .last) fun _ => .when .last) fun _ => .last

instance declaredVariables_reads (kind : VariableKind) (inLoop : Bool) :
    Reads ordered [] (declaredVariables grammar kind inLoop) Silent := by
  unfold declaredVariables
  refine .take [] (variableItem_reads grammar inLoop _) (fun first _ => .loop fun seen => ?_)
  refine .bind fun _ _ => .ite (fun _ => ?_) fun _ => .pure
  exact .take [] (variableItem_reads grammar inLoop seen) fun next _ => .pure

instance variableKind?_reads :
    Reads ordered [] (variableKind? : Reader text (Option VariableKind)) Silent := by
  unfold variableKind?
  refine .bind fun token _ => ?_
  split
  iterate 2 exact .pure
  · exact .bind fun next _ => .pure
  · exact .pure

instance opensResource_reads : Reads ordered [] (opensResource : Reader text Bool) Silent := by
  unfold opensResource
  refine .bind fun next _ => ?_
  split
  · exact .bind fun _ _ => .pure
  · exact .pure

instance eatResource_reads : Reads ordered [] (eatResource : Reader text Bool) Silent := by
  unfold eatResource
  refine .bind fun types _ => .ite (fun _ => .pure) fun _ => ?_
  refine .bind fun _ _ => .ite (fun _ => .bind fun _ _ => .pure) fun _ => ?_
  refine .bind fun _ _ => .bind fun _ _ => .either fun waits _ _ => ?_
  exact .whenTwo .pure

instance skipToSemicolon_reads : Reads ordered [] (skipToSemicolon grammar) Silent := by
  unfold skipToSemicolon
  refine .bind fun _ _ => .bind fun _ _ =>
    .first (.tryCatch (.bind fun _ _ => .pure) fun _ => .pure)
    fun _ => .loop fun _ => ?_
  refine .bind fun _ _ => .ite (fun _ => .pure) fun _ => ?_
  exact .bind fun _ _ => .bind fun _ _ => .pure

instance variableStatement_reads (kind : VariableKind) :
    Reads ordered [] (variableStatement grammar kind) Silent := by
  unfold variableStatement
  exact .bind fun found _ => .bind fun _ _ => .whenNot .pure

instance block_reads : Reads ordered [] (block grammar) Silent := by
  unfold block
  exact .bind fun _ _ => .last

instance test_reads : Reads ordered [] (test grammar) Silent := by
  unfold test
  exact .bind fun _ _ => .bind fun found _ => .bind fun _ _ => .pure

instance plain_reads : Reads ordered [] (plain grammar) Silent := by
  unfold plain
  exact .last

instance loopBody_reads : Reads ordered [] (loopBody grammar) Silent := by
  unfold loopBody
  exact .within

instance leave_reads (isBreak : Bool) :
    Reads ordered [] (leave isBreak : Reader text (Found text)) Silent := by
  unfold leave
  refine .bind fun start _ => .bind fun _ _ => .bind fun _ _ => ?_
  extract_lets -underBinder rest
  have (label : Option String) : Reads ordered [] (rest label) Silent :=
    .bind fun state _ => .bind fun context _ => .whenNot .pure
  clear_value rest
  refine .ite (fun _ => .pureBind .last) fun _ => ?_
  exact .bind fun label _ => .bind fun _ _ => .pureBind .last

instance countingHead_reads (first : Found text) :
    Reads ordered first (countingHead grammar first) Silent := by
  unfold countingHead
  refine .bind fun _ _ => .either fun test _ _ => .bind fun _ _ => .bind fun _ _ => ?_
  exact .either fun step _ _ => .pure

instance collectionHead_reads (first : Found text) :
    Reads ordered first (collectionHead grammar first) Silent := by
  unfold collectionHead
  exact .bind fun isOf _ => .bind fun _ _ => .bind fun inner _ => .pure

instance declaringHead_reads (kind : VariableKind) :
    Reads ordered [] (declaringHead grammar kind) Silent := by
  unfold declaringHead
  refine .bind fun found _ => .bind fun _ _ => .ite (fun _ => ?_) fun _ => ?_
  · split
    · refine .when <| .bind fun _ _ => .when .last
    · refine .first (.forEach fun start => .bind fun _ _ => .pure) fun _ => .last
    · exact .last
  · refine .bind fun _ _ => ?_
    exact .take [] (countingHead_reads grammar found.templates) fun head _ => .pure

instance loopHead_reads (waits : Bool) : Reads ordered [] (loopHead grammar waits) Silent := by
  unfold loopHead
  refine .bind fun kind _ => ?_
  cases kind with
  | some kind => exact .bind fun _ _ => .last
  | none =>
      refine .bind fun isResource _ => .ite (fun _ => .bind fun _ _ => .last) fun _ => ?_
      refine .bind fun _ _ => .ite (fun _ => .bind fun head _ => .pure) fun _ => ?_
      refine .bind fun isAsync _ => .bind fun first _ => .bind fun _ _ =>
        .ite (fun _ => ?_) fun _ => ?_
      · refine .bind fun _ _ => .when <| .bind fun isIn _ => ?_
        refine .take [] (Expression.assignmentTarget_reads first) ?_
        rintro target rfl
        exact .bind fun _ _ => .when .last
      · refine .bind fun _ _ => ?_
        exact .take [] (countingHead_reads grammar first.templates) fun head _ => .pure

instance forLoop_reads : Reads ordered [] (forLoop grammar) Silent := by
  unfold forLoop
  refine .bind fun _ _ => .bind fun wait _ => .bind fun waits _ => .bind fun _ _ => ?_
  refine .first inferInstance fun ⟨head, isOf⟩ => .bind fun _ _ => .bind fun body _ => ?_
  exact .when .pure

/-- The test of a `do` loop is listed before its body. -/
instance doLoop_reads : Reads ordered [] (doLoop grammar) Silent := by
  unfold doLoop
  refine .bind fun _ told => .bind fun body _ => .bind fun _ _ => .bind fun test _ =>
    .bind fun _ _ => ?_
  have free : ¬ ordered := told (by decide)
  exact .pure (.reordered (absurd · free))

instance switch_reads : Reads ordered [] (switch grammar) Silent := by
  unfold switch
  refine .bind fun _ _ => .bind fun subject _ => .bind fun _ _ =>
    .first (.within (h := ?_)) fun cases =>
    .bind fun _ _ => .pure
  refine .first (.loop fun state => ?_) fun ⟨found, _⟩ => .pure
  obtain ⟨found, defaulted⟩ := state
  refine .bind fun isDefault _ => .bind fun _ _ => .ite (fun _ => ?_) fun _ => .pure
  refine .bind fun _ _ => .when <| .either fun value _ _ => .bind fun _ _ => ?_
  refine .first (.loop fun inner => ?_) fun inner => .pure
  refine .bind fun _ _ => .bind fun _ _ => .bind fun _ _ => .ite (fun _ => .pure) fun _ => ?_
  exact .bind fun more _ => .pure

instance catchClause_reads : Reads ordered [] (catchClause grammar) Silent := by
  unfold catchClause
  refine .bind fun _ _ => ?_
  extract_lets rest
  have (binding : Found text) : Reads ordered binding (rest binding) Silent :=
    .bind fun body _ => .pure
  clear_value rest
  refine .ite (fun _ => ?_) fun _ => .pureBind .last
  exact .bind fun pattern _ => .bind fun type _ => .bind fun _ _ => .pureBind .last

instance tryStatement_reads : Reads ordered [] (tryStatement grammar) Silent := by
  unfold tryStatement
  refine .bind fun _ _ => .bind fun body _ => .bind fun offset _ => .bind fun catches _ => ?_
  refine .either fun handler _ _ => .bind fun finishes _ => .either fun cleanup _ _ => ?_
  exact .whenNot .pure

instance labelled_reads : Reads ordered [] (labelled grammar) Silent := by
  unfold labelled
  refine .bind fun start _ => .bind fun label _ => .bind fun _ _ => .bind fun state _ => ?_
  refine .first .modify fun _ => .bind fun isFunction _ => .bind fun offset _ =>
    .bind fun found _ => ?_
  exact .when <| .when <| .first .modify fun _ => .pure

instance expressionStatement_reads : Reads ordered [] (expressionStatement grammar) Silent := by
  unfold expressionStatement
  refine .bind fun value _ => .bind fun _ _ => .ite (fun _ => .pure) fun _ => ?_
  refine .bind fun _ _ => .ite (fun _ => ?_) fun _ => .last
  refine .bind fun _ _ => .bind fun _ _ => .bind fun context _ => ?_
  exact .take [] (Expression.binaryRest_reads grammar _ _ _) fun whole _ => .pure

instance functionDeclaration_reads (async : Bool) :
    Reads ordered [] (functionDeclaration grammar async) Silent := by
  unfold functionDeclaration
  exact .bind fun _ _ => .last

instance opensAsyncFunction_reads :
    Reads ordered [] (opensAsyncFunction : Reader text Bool) Silent := by
  unfold opensAsyncFunction
  exact .bind fun next _ => .bind fun _ _ => .pure

instance opensDeclared_reads : Reads ordered [] (opensDeclared : Reader text Bool) Silent := by
  unfold opensDeclared
  refine .bind fun types _ => .bind fun _ _ => .ite (fun _ => .bind fun next _ => ?_) fun _ => .pure
  split <;> exact .pure

instance classDeclaration_reads (marked : Found text) :
    Reads ordered marked (classDeclaration grammar marked) Silent := by
  unfold classDeclaration
  refine .bind fun types _ => .either fun isAbstract _ _ => .bind fun _ told => ?_
  have free : ¬ ordered := told (by decide)
  exact .last (h := Class.tail_reads grammar free marked true isAbstract)

instance keywordStatement?_reads (declarations : Bool) :
    Reads ordered [] (keywordStatement? grammar declarations) Silent := by
  unfold keywordStatement?
  refine .bind fun start _ => .bind fun next _ => .bind fun token _ => ?_
  split
  iterate 2 exact .bind fun _ _ => .pure
  · exact .bind fun _ _ => .bind fun _ _ => .pure
  iterate 2 exact .bind fun found _ => .pure
  iterate 2 exact .whenNot <| .bind fun found _ => .pure
  · refine .bind fun _ _ => .bind fun test _ => .bind fun yes _ => .bind fun _ _ => ?_
    exact .either fun no _ _ => .pure
  · refine .bind fun _ _ => .bind fun _ _ => ?_
    extract_lets rest
    have (value : Found text) : Reads ordered value (rest value) Silent :=
      .bind fun context _ => .whenNot .pure
    clear_value rest
    refine .ite (fun _ => .pureBind .last) fun _ => ?_
    exact .bind fun value _ => .bind fun _ _ => .pureBind .last
  · exact .bind fun found _ => .pure
  · refine .bind fun _ _ => .bind fun _ _ => .when <| .bind fun value _ => ?_
    exact .bind fun _ _ => .pure
  · exact .bind fun found _ => .pure
  iterate 2
    refine .bind fun _ _ => .bind fun catches _ => .first (.tryCatch ?_ fun _ => .pure) fun _ =>
      .pure
    exact .either fun handler _ _ => .bind fun finishes _ => .either fun cleanup _ _ => .pure
  · refine .bind fun _ _ => .bind fun _ _ => .bind fun object _ => ?_
    exact .bind fun body _ => .pure
  · exact .bind fun _ _ => .bind fun test _ => .bind fun body _ => .pure
  · exact .ite (fun _ => .pure) fun _ => .last
  · exact .last
  · exact .pure

instance declaration?_reads (declarations : Bool) :
    Reads ordered [] (declaration? grammar declarations) Silent := by
  unfold declaration?
  refine .bind fun _ _ => .bind fun _ _ => .bind fun _ _ => .ite (fun _ => ?_) fun _ => ?_
  · exact .bind fun _ _ => .bind fun _ _ => .bind fun found _ => .pure
  refine .bind fun kind _ => ?_
  extract_lets -underBinder other
  have (u : Unit) : Reads ordered [] (other u) Silent := by
    refine .bind fun _ _ => .ite (fun _ => .bind fun _ _ => .bind fun found _ => .pure) fun _ => ?_
    refine .bind fun _ _ => .ite (fun _ => .bind fun _ _ => .bind fun found _ => .pure) fun _ => ?_
    exact .last
  clear_value other
  cases kind with
  | some kind =>
      exact .ite (fun _ => .bind fun _ _ => .bind fun found _ => .pure) fun _ => .last
  | none => exact .last

instance opensClass_reads : Reads ordered [] (opensClass : Reader text Bool) Silent := by
  unfold opensClass
  exact .bind fun next _ => .bind fun _ _ => .bind fun _ _ => .bind fun _ _ => .pure

instance decorated_reads (marked : Found text) :
    Reads ordered marked (decorated grammar marked) Silent := by
  unfold decorated
  refine .bind fun _ _ => .bind fun _ _ => .bind fun _ _ => .ite (fun _ => ?_) fun _ => ?_
  · exact .bind fun _ _ => .last
  · exact .bind fun _ _ => .ite (fun _ => .last) fun _ => .last

instance statement_reads (declarations : Bool) :
    Reads ordered [] (statement grammar declarations) Silent := by
  unfold statement
  refine .bind fun token _ => ?_
  split
  · exact .last
  · exact .bind fun _ _ => .pure
  · exact .bind fun marked _ => .last
  · refine .bind fun keyword _ => ?_
    cases keyword with
    | some found => exact .pure
    | none =>
        refine .bind fun declared _ => ?_
        cases declared with
        | some found => exact .pure
        | none =>
            extract_lets other
            have (u : Unit) : Reads ordered [] (other u) Silent :=
              .bind fun _ _ => .ite (fun _ => .last) fun _ => .last
            clear_value other
            refine .ite (fun _ => .bind fun _ _ => ?_) fun _ => .last
            exact .ite (fun _ => .last) fun _ => .last
  · exact .last

end Statement

namespace Module

instance source_reads : Reads ordered [] (source : Reader text Unit) Silent := by
  unfold source
  refine .bind fun token _ => ?_
  split <;> exact .last

instance attributes_reads : Reads ordered [] (attributes grammar) Silent := by
  unfold attributes
  refine .bind fun _ _ => .bind fun _ _ => .bind fun _ _ => .ite (fun _ => ?_) fun _ => .pure
  exact .bind fun _ _ => .bind fun found _ => .pure

instance fromModule_reads : Reads ordered [] (fromModule grammar) Silent := by
  unfold fromModule
  exact .bind fun _ _ => .bind fun _ _ => .bind fun found _ => .bind fun _ _ => .pure

instance externalName_reads :
    Reads ordered [] (externalName : Reader text (Option String)) Silent := by
  unfold externalName
  refine .bind fun token _ => ?_
  split
  iterate 2 exact .bind fun _ _ => .pure
  exact .last

instance marksType_reads : Reads ordered [] (marksType : Reader text Bool) Silent := by
  unfold marksType
  exact .bind fun _ _ => .bind fun _ _ => .ite (fun _ => .last) fun _ => .pure

instance importName_reads (allTypes : Bool) :
    Reads ordered [] (importName allTypes : Reader text (Found text)) Silent := by
  unfold importName
  refine .bind fun start _ => .bind fun _ _ => ?_
  extract_lets -underBinder name
  have (u : Unit) : Reads ordered [] (name u) Silent := by
    refine .bind fun start _ => .bind fun word _ => .bind fun _ _ => ?_
    exact .ite (fun _ => .bind fun _ _ => .pure) fun _ => .when .pure
  clear_value name
  exact .ite (fun _ => .when <| .bind fun _ _ => .last) fun _ => .last

instance importAll_reads : Reads ordered [] (importAll : Reader text Unit) Silent := by
  unfold importAll
  exact .bind fun _ _ => .bind fun _ _ => .bind fun _ _ => .pure

instance importEquals_reads :
    Reads ordered [] (importEquals : Reader text (Found text)) Silent := by
  unfold importEquals
  refine .bind fun _ _ => .bind fun _ _ => .bind fun _ _ => ?_
  extract_lets rest
  have (u : Unit) : Reads ordered [] (rest u) Silent := .bind fun _ _ => .pure
  clear_value rest
  refine .ite (fun _ => ?_) fun _ => .bind fun _ _ => .last
  exact .bind fun _ _ => .bind fun _ _ => .bind fun _ _ => .bind fun _ _ => .last

instance importsTypes_reads : Reads ordered [] (importsTypes : Reader text Bool) Silent := by
  unfold importsTypes
  exact .bind fun _ _ => .bind fun _ _ => .ite (fun _ => .last) fun _ => .pure

instance importsPhase_reads : Reads ordered [] (importsPhase : Reader text Bool) Silent := by
  unfold importsPhase
  refine .bind fun _ _ => .ite (fun _ => .bind fun _ _ => .pure) fun _ => ?_
  exact .bind fun _ _ => .ite (fun _ => .last) fun _ => .pure

instance importItem_reads : Reads ordered [] (importItem grammar) Silent := by
  unfold importItem
  refine .bind fun token _ => ?_
  split
  · exact .bind fun _ _ => .bind fun found _ => .bind fun _ _ => .pure
  · refine .bind fun allTypes _ => .bind fun _ _ => ?_
    extract_lets -underBinder rest
    have (u : Unit) : Reads ordered [] (rest u) Silent := by
      refine .bind fun _ _ => ?_
      extract_lets -underBinder names
      have (u : Unit) : Reads ordered [] (names u) Silent := by
        refine .bind fun _ _ => .ite (fun _ => .bind fun _ _ => .last) fun _ => ?_
        exact .bind fun _ _ => .bind fun _ _ => .last
      clear_value names
      refine .ite (fun _ => .bind fun start _ => .bind fun word _ => .when ?_) fun _ => .last
      refine .bind fun _ _ => .bind fun _ _ => .ite (fun _ => .last) fun _ => ?_
      refine .bind fun _ _ => .ite (fun _ => .bind fun _ _ => ?_) fun _ => .last
      exact .ite (fun _ => .last) fun _ => .last
    clear_value rest
    exact .when .last

instance exportName_reads : Reads ordered [] (exportName : Reader text (Option Nat)) Silent := by
  unfold exportName
  refine .bind fun _ _ => .when <| .bind fun start _ => .bind fun name _ => .bind fun _ _ => ?_
  cases name <;> exact .when .pure

instance exportNames_reads : Reads ordered [] (exportNames grammar) Silent := by
  unfold exportNames
  refine .bind fun _ _ => .first (.loop fun faults => ?_) fun faults => ?_
  · refine .bind fun _ _ => .ite (fun _ => .pure) fun _ => .bind fun fault _ => ?_
    exact .bind fun _ _ => .whenNot .pure
  · refine .bind fun _ _ => .bind fun _ _ => .ite (fun _ => .last) fun _ => ?_
    refine .first (.forEach fun fault => .bind fun _ _ => .pure) fun _ => ?_
    exact .bind fun _ _ => .pure

instance moreDecorators_reads (marked : Found text) (before : Bool) :
    Reads ordered marked (moreDecorators grammar marked before) Silent := by
  unfold moreDecorators
  exact .bind fun start _ => .bind fun _ _ => .when <| .bind fun more _ => .pure

instance exportDefault_reads (marked : Found text) (before : Bool) :
    Reads ordered marked (exportDefault grammar marked before) Silent := by
  unfold exportDefault
  refine .take [] (moreDecorators_reads grammar marked before) fun marked _ => ?_
  refine .bind fun next harmless => .bind fun _ told => .ite (fun here => ?_) fun _ => ?_
  · have free : ¬ ordered := told here (by decide)
    exact .last (h := Class.tail_reads grammar free marked false false)
  refine .bind fun types told => .bind fun _ _ => .ite (fun both => ?_) fun _ => ?_
  · have free : ¬ ordered := told (by simp_all)
    refine .bind fun _ _ => .bind fun _ _ => ?_
    exact .last (h := Class.tail_reads grammar free marked false true)
  refine .bind fun _ _ => .ite (fun _ => .last) fun _ => .bind fun _ _ =>
    .ite (fun _ => ?_) fun _ => ?_
  · exact .bind fun _ _ => .bind fun _ _ => .last
  refine .bind fun _ _ => .bind fun _ _ => .bind fun _ _ => .ite (fun _ => ?_) fun _ => ?_
  · exact .bind fun _ _ => .last
  · exact .bind fun value _ => .bind fun _ _ => .pure

instance exportDeclaration_reads (marked : Found text) (before : Bool) :
    Reads ordered marked (exportDeclaration grammar marked before) Silent := by
  unfold exportDeclaration
  refine .take [] (moreDecorators_reads grammar marked before) fun marked _ => ?_
  refine .bind fun _ _ => .ite (fun _ => .last) fun _ => ?_
  refine .bind fun _ _ => .ite (fun _ => .last) fun _ => ?_
  refine .take [] (Declaration.declaration?_reads grammar marked) fun declared _ => ?_
  cases declared with
  | some found => exact .pure
  | none =>
      refine .bind fun declared _ => ?_
      cases declared with
      | some found => exact .pure
      | none => exact .last

instance exportItem_reads (marked : Found text) (before : Bool) :
    Reads ordered marked (exportItem grammar marked before) Silent := by
  unfold exportItem
  refine .bind fun types _ => .bind fun next _ => .bind fun _ _ => .ite (fun _ => ?_) fun _ => ?_
  · exact .bind fun _ _ => .bind fun _ _ => .bind fun _ _ => .when <| .bind fun _ _ => .last
  refine .bind fun _ _ => .ite (fun _ => ?_) fun _ => ?_
  · exact .bind fun value _ => .bind fun _ _ => .pure
  refine .bind fun _ _ => .ite (fun _ => ?_) fun _ => ?_
  · exact .bind fun _ _ => .bind fun _ _ => .bind fun _ _ => .bind fun _ _ => .pure
  refine .bind fun _ _ => .ite (fun _ => .last) fun _ => .bind fun _ _ => .when ?_
  refine .bind fun _ _ => .ite (fun _ => ?_) fun _ => .bind fun _ _ => ?_
  · exact .bind fun _ _ => .when .last
  · exact .ite (fun _ => .last) fun _ => .last

instance item_reads : Reads ordered [] (item grammar) Silent := by
  unfold item
  refine .bind fun next _ => .bind fun _ _ => .ite (fun _ => .bind fun _ _ => .last) fun _ => ?_
  refine .bind fun _ _ => .ite (fun _ => .last) fun _ => ?_
  refine .bind fun _ _ => .ite (fun _ => .bind fun marked _ => ?_) fun _ => .last
  refine .bind fun _ _ => .ite (fun _ => .last) fun _ => ?_
  exact .bind fun _ _ => .ite (fun _ => .last) fun _ => .last

instance node_reads (reader : Reader text (Found text)) [Reads ordered [] reader Silent] :
    Reads ordered [] (node reader) Node.Plain := by
  unfold node
  exact .bind fun start _ => .bind fun found _ => .pure

/-- One level of the grammar lists templates as they stand, if the goals inside it do. -/
theorem read_goals : Goals ordered (read grammar) := by
  constructor
  intro goal
  cases goal <;> (unfold read; infer_instance)

end Module

end Nested

namespace Module

instance grammar_goals (depth : Nat) : Goals ordered (grammar depth : Grammar text) := by
  induction depth with
  | zero =>
      constructor
      intro goal
      unfold grammar
      exact .last
  | succ depth ih => exact read_goals (grammar depth)

instance items_reads : Reads ordered [] (items : Reader text (Found text)) Silent := by
  unfold items
  refine .loop fun found => .bind fun _ _ => .ite (fun _ => .pure) fun _ => ?_
  exact .bind fun more _ => .pure

/-- Templates are listed in the order they stand in only for certain if there are no types, no
classes and no `do` loops. -/
def Orderly (dialect : Dialect) (text : List Char) : Prop :=
  dialect.types = false ∧ ∀ word ∈ reorderingWords, ¬ Occurs text word

/-- The templates of a module are apart, and in order if the module is orderly. -/
theorem templates_clear {dialect : Dialect} {found : Found text}
    (read : templates dialect text = .ok found) :
    found.Pairwise (Template.Clear (Orderly dialect text)) := by
  unfold templates at read
  extract_lets first context start at read
  have sound : Sound (Orderly dialect text) context (first.readFrom false start) :=
    ⟨Nat.succ_pos _, And.left, And.right, fun orderly word member read =>
      orderly.2 word member ⟨_, read⟩, length_lexeme_backquote _⟩
  have outcome := items_reads.from_sound context _ sound [] ⟨nofun, .nil⟩
  cases run : items context (first.readFrom false start) with
  | error fault state =>
      rw [run] at read
      cases read
  | ok value state =>
      rw [run] at outcome
      simp only [run] at read
      split at read
      · cases read
      · obtain rfl := Except.ok.inj read
        exact outcome.2.1.clear

end Module

end FieldUsage.Host
