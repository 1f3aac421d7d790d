import FieldUsage.Proofs.Host.Literals

/-!
Templates in expressions. Those of the operands stand one behind the other, and so do those of a
call and its arguments. Only where types are read does an expression list some of them out of order.
-/

namespace FieldUsage.Host

variable {text : List Char} {ordered : Prop}

open Reader TypeGrammar

namespace Expression

instance : Carries text (Piece text) := ⟨fun piece => piece.node.templates⟩
instance : Carries text (Pieces text) := ⟨fun all => all.pieces.flatMap (·.node.templates)⟩

@[simp] theorem carried_piece (piece : Piece text) :
    carried text piece = piece.node.templates := rfl
@[simp] theorem carried_pieces (all : Pieces text) :
    carried text all = all.pieces.flatMap (·.node.templates) := rfl

variable (grammar : Grammar text) [Goals ordered grammar]

instance arguments_reads : Reads ordered [] (arguments grammar) Silent := by
  unfold arguments
  refine .bind fun _ _ => .first (.loop fun state => ?_) fun ⟨found, count⟩ =>
    .bind fun _ _ => .pure
  obtain ⟨found, count⟩ := state
  refine .bind fun _ _ => .ite (fun _ => .pure) fun _ => .bind fun item _ => .bind fun _ _ => ?_
  exact .whenNot .pure

/-- Operators join what was read before them with what comes behind. -/
instance binaryRest_reads (bound : Nat) (left : Node text) (least : Nat) :
    Reads ordered left.templates (binaryRest grammar bound left least)
      fun whole => left.Plain → whole.Plain := by
  induction bound generalizing left least with
  | zero => exact .pure (t := id)
  | succ bound ih =>
      unfold binaryRest
      refine .bind fun types _ => .bind fun newline _ => .bind fun casts _ => .ite (fun _ => ?_)
        fun _ => ?_
      · refine .bind fun isCast _ => .bind fun _ _ => .bind fun isConst _ => .ite (fun _ => ?_)
          fun _ => .bind fun type _ => ?_
        · exact .bind fun _ _ => .last (t := fun _ told _ => told (by simp))
        · exact .last (t := fun _ told _ => told (by cases isCast <;> simp))
      · refine .bind fun operator _ => ?_
        split
        · exact .pure (t := id)
        · refine .ite (fun _ => .pure (t := id)) fun _ => .bind fun start _ => .bind fun _ _ => ?_
          refine .when <| .bind fun operand _ =>
            .take left.templates (ih operand _) fun right _ => ?_
          refine .first (.forEach fun side => .when .pure) fun _ => ?_
          exact .last (t := fun _ told _ => told (by simp))

instance binaryFirst_reads : Reads ordered [] (binaryFirst grammar) Node.Plain := by
  unfold binaryFirst
  refine .tryCatch (Goals.reads _) fun fault => .bind fun operator _ => ?_
  split
  · exact .bind fun start _ => .bind fun _ _ => .pure
  · exact .last

instance binary_reads : Reads ordered [] (binary grammar) Node.Plain := by
  unfold binary
  refine .bind fun left plain => .ite (fun _ => .pure (t := plain)) fun _ => ?_
  exact .bind fun context _ => .last (t := fun _ told => told plain)

instance branches_reads (test : Node text) :
    Reads ordered test.templates (branches grammar test) Node.Plain := by
  unfold branches
  exact .bind fun yes _ => .bind fun _ _ => .bind fun no _ => .pure

instance conditional_reads : Reads ordered [] (conditional grammar) Node.Plain := by
  unfold conditional
  refine .bind fun test plain => .ite (fun _ => .pure (t := plain)) fun _ => ?_
  exact .bind fun _ _ => .ite (fun _ => .last) fun _ => .pure (t := plain)

instance assignmentTarget_reads (left : Node text) :
    Reads ordered left.templates (assignmentTarget left) (· = left) := by
  unfold assignmentTarget
  split
  iterate 2 exact .bind fun _ _ => .pure
  exact .bind fun _ _ => .whenNot .pure

instance assignmentRest_reads (left : Node text) :
    Reads ordered left.templates (assignmentRest grammar left)
      fun whole => left.Plain → whole.Plain := by
  unfold assignmentRest
  refine .bind fun mark _ => ?_
  split
  · exact .pure (t := id)
  · extract_lets rest
    have : Reads ordered left.templates (rest left) fun whole => left.Plain → whole.Plain := by
      refine .bind fun _ _ => .bind fun value _ => .ite (fun _ => ?_) fun _ => .pure
      split <;> exact .pure
    clear_value rest
    refine .ite (fun _ => .take [] (assignmentTarget_reads left) ?_) fun _ => ?_
    · rintro _ rfl
      exact .last
    · exact .whenNot <| .whenNot <| .pureBind .last

instance yielded_reads : Reads ordered [] (yielded grammar) Node.Plain := by
  unfold yielded
  refine .bind fun start _ => .bind fun _ _ => .bind fun context _ =>
    .when <| .bind fun token _ => ?_
  extract_lets rest
  have (ends : Bool) : Reads ordered [] (rest ends) Node.Plain := by
    refine .bind fun newline _ => .ite (fun _ => .pure) fun _ => ?_
    exact .bind fun _ _ => .bind fun value _ => .pure
  clear_value rest
  split <;> exact .pureBind .last

instance assignmentBase_reads : Reads ordered [] (assignmentBase grammar) Node.Plain := by
  unfold assignmentBase
  refine .bind fun context _ => .bind fun yields _ => .ite (fun _ => .last) fun _ => ?_
  refine .bind fun start _ => .bind fun token _ => ?_
  extract_lets rest
  have (mayBeArrow : Bool) : Reads ordered [] (rest mayBeArrow) Node.Plain := by
    refine .first .modify fun _ => .bind fun left plain => ?_
    split
    iterate 5 exact .pure (t := plain)
    exact .last (t := fun _ told => told plain)
  clear_value rest
  split <;> exact .pureBind .last

instance surelyTypeParameters_reads :
    Reads ordered [] (surelyTypeParameters : Reader text Bool) Silent := by
  unfold surelyTypeParameters
  exact .last

/-- Type parameters are listed behind what is read after them, which is possible only where types
are read. -/
theorem genericArrow_reads (free : ¬ ordered) :
    Reads ordered [] (genericArrow grammar) Node.Plain := by
  unfold genericArrow
  refine .bind fun start _ => .bind fun bounds _ => .bind fun arrow _ => .whenNot ?_
  exact .pure (.reordered (absurd · free))

instance assignment_reads : Reads ordered [] (assignment grammar) Node.Plain := by
  unfold assignment
  refine .bind fun types told => .bind fun opens _ => ?_
  extract_lets base trial
  have (u : Unit) : Reads ordered [] (base u) Node.Plain := assignmentBase_reads grammar
  refine .ite (fun both => .bind fun markup _ => ?_) fun _ => .last
  have := genericArrow_reads grammar (told (by simp_all))
  have : Reads ordered [] trial Node.Plain := .within
  clear_value base trial
  extract_lets generic
  have (u : Unit) : Reads ordered [] (generic u) Node.Plain := by
    refine .bind fun next _ => .bind fun sure _ => .ite (fun _ => .bind fun tried told => ?_)
      fun _ => .last
    cases tried with
    | some node => exact .pure (t := told node rfl)
    | none => exact .last
  clear_value generic
  refine .ite (fun _ => .bind fun tried told => ?_) fun _ => .last
  cases tried with
  | some node => exact .pure (t := told node rfl)
  | none => exact .last

instance expression_reads : Reads ordered [] (expression grammar) Node.Plain := by
  unfold expression
  refine .bind fun first plain => .bind fun _ _ => .ite (fun _ => ?_) fun _ => .pure (t := plain)
  refine .loopKeeping Node.Plain (fun left plain => ?_) plain
  refine .bind fun _ _ => .ite (fun _ => .bind fun right _ => .pure) fun _ => .pure

instance memberName_reads : Reads ordered [] (memberName : Reader text Unit) Silent := by
  unfold memberName
  exact .bind fun _ _ => .either fun _ _ _ => .pure

omit [Goals ordered grammar] in
theorem memberForm_ne_name (object : Node text) {form : Form text}
    (other : ∀ word, form ≠ .name word) (word : Word text) :
    memberForm object form ≠ .name word := by
  unfold memberForm
  split
  · nofun
  · exact other word

/-- Behind `?.` the arguments of a call are listed before its types. -/
instance optionalRest_reads (object : Node text) :
    Reads ordered object.templates (optionalRest grammar object) Node.Plain := by
  unfold optionalRest
  refine .bind fun _ _ => .bind fun _ _ => .ite (fun _ => ?_) fun _ => ?_
  · exact .bind fun index _ => .bind fun _ _ => .pure
  refine .bind fun _ _ => .ite (fun _ => .first inferInstance fun ⟨found, _⟩ => .pure) fun _ => ?_
  refine .bind fun types told => .bind fun _ _ => .ite (fun both => ?_) fun _ => .bind fun _ _ =>
    .pure
  have free : ¬ ordered := told (by simp_all)
  exact .bind fun types _ => .first inferInstance fun ⟨found, _⟩ =>
    .pure (.reordered (absurd · free))

/-- An arrow function lists its type parameters behind its body. -/
theorem asyncGenericArrow_reads (free : ¬ ordered) (start : Nat) :
    Reads ordered [] (asyncGenericArrow grammar start) Node.Plain := by
  unfold asyncGenericArrow
  refine .bind fun bounds _ => .bind fun names _ => .bind fun result _ => .bind fun _ _ => ?_
  refine .when <| .bind fun _ _ => .first inferInstance fun ⟨body, _⟩ => ?_
  exact .pure (.reordered (absurd · free))

instance appliedTypes_reads (noCall : Bool) :
    Reads ordered [] (appliedTypes grammar noCall) Silent := by
  unfold appliedTypes
  refine .bind fun types _ => .bind fun _ _ => .bind fun _ _ => .bind fun state _ => .when .pure

/-- Type arguments are listed behind the arguments of the call that follows them. -/
theorem typeApplication_reads (free : ¬ ordered) (noCall : Bool) {object : Node text}
    (plain : object.Plain) (types : Found text) :
    Reads ordered (object.templates ++ types) (typeApplication grammar noCall object types)
      Node.Plain := by
  have tagged := Literal.taggedTemplate_reads grammar plain types (absurd · free)
  unfold typeApplication
  refine .bind fun _ _ => .ite (fun _ => .first inferInstance fun ⟨found, _⟩ => ?_) fun _ => ?_
  · refine .pure (.reordered (absurd · free)) ?_
    simp [memberForm_ne_name]
  · exact .bind fun token _ => .ite (fun _ => .last) fun _ => .pure

/-- What follows an expression is listed behind it, but its type arguments last. -/
theorem subscript_reads (noCall noComputed : Bool) {object : Node text} (plain : object.Plain) :
    Reads ordered object.templates (subscript grammar noCall noComputed object)
      fun result => ∀ next, result = some next → next.Plain := by
  unfold subscript
  refine .ite (fun _ => .pure) fun _ => .bind fun types told => ?_
  extract_lets rest applied
  have tagged : Reads ordered object.templates (Literal.taggedTemplate grammar object [])
      Node.Plain := by
    simpa using Literal.taggedTemplate_reads grammar plain [] fun _ => rfl
  have (u : Unit) : Reads ordered object.templates (rest u)
      fun result => ∀ next, result = some next → next.Plain := by
    refine .bind fun token _ => ?_
    split
    · refine .bind fun _ _ => .ite (fun _ => .pure) fun _ => ?_
      exact .take [] (optionalRest_reads grammar object) fun node plain => .pure (t := by simpa)
    · exact .bind fun _ _ => .bind fun _ _ => .pure (t := by simp [memberForm_ne_name])
    · refine .ite (fun _ => .pure) fun _ => .bind fun _ _ => .bind fun index _ => ?_
      exact .bind fun _ _ => .pure (t := by simp [memberForm_ne_name])
    · refine .ite (fun _ => .pure) fun _ => .first inferInstance fun ⟨found, _⟩ => ?_
      exact .pure (t := by simp [memberForm_ne_name])
    · exact .take [] tagged fun node plain => .pure (t := by simpa)
    · exact .pure
  clear_value rest
  refine .ite (fun here => ?_) fun _ => .last (t := fun _ => id)
  have free : ¬ ordered := told here
  have := asyncGenericArrow_reads grammar free
  have (u : Unit) : Reads ordered object.templates (applied u)
      fun result => ∀ next, result = some next → next.Plain := by
    refine .bind fun tried _ => ?_
    cases tried with
    | some types =>
        exact .take [] (typeApplication_reads grammar free noCall plain types) fun node plain =>
          .pure (t := by simpa)
    | none => exact .last (t := fun _ => id)
  clear_value applied
  refine .bind fun _ _ => .bind fun _ _ => .ite (fun _ => .bind fun _ _ => .pure) fun _ => ?_
  refine .bind fun _ _ => .ite (fun _ => ?_) fun _ => .last (t := fun _ => id)
  refine .ite (fun _ => .bind fun tried told => ?_) fun _ => .last (t := fun _ => id)
  cases tried with
  | some arrow => exact .pure (t := by simpa using told)
  | none => exact .last (t := fun _ => id)

theorem subscripts_reads (noCall noComputed : Bool) {object : Node text} (plain : object.Plain) :
    Reads ordered object.templates (subscripts grammar noCall noComputed object) Node.Plain := by
  unfold subscripts
  exact .loopKeeping Node.Plain (fun _ => subscript_reads grammar noCall noComputed) plain

instance decorator_reads : Reads ordered [] (decorator grammar) Node.Plain := by
  unfold decorator
  refine .bind fun _ _ => .bind fun start _ => .bind fun _ _ => ?_
  extract_lets call
  have calls (subject : Node text) (plain : subject.Plain) :
      Reads ordered subject.templates (call subject) Node.Plain := by
    refine .bind fun _ _ => .ite (fun _ => ?_) fun _ => .pure (t := plain)
    exact .first inferInstance fun ⟨found, _⟩ => .pure
  clear_value call
  refine .ite (fun _ => .bind fun inner _ => .bind fun _ _ => .pureBind ?_) fun _ => ?_
  · exact .last (h := calls _ (by simp))
  · refine .bind fun types _ => .bind fun _ _ => .either fun word _ _ => ?_
    exact .take [] (subscripts_reads grammar false true (by simp)) fun subject plain =>
      .last (h := calls subject plain)

instance piece_reads : Reads ordered [] (piece grammar) Silent := by
  unfold piece
  refine .bind fun start _ => .first .modify fun _ => .bind fun modified _ =>
    .bind fun spread _ => ?_
  extract_lets finish assigned name rest
  have (inner : Node text) : Reads ordered inner.templates (finish inner) Silent := by
    refine .bind fun types _ => .bind fun next _ => .bind fun _ _ => .bind fun _ _ => ?_
    extract_lets whole optional
    have (inner : Node text) : Reads ordered inner.templates (whole inner) Silent := by
      refine .when <| .bind fun _ _ => .ite (fun _ => ?_) fun _ => .pure
      exact .bind fun _ _ => .bind fun type _ => .bind fun default _ => .pure
    clear_value whole
    have (u : Unit) : Reads ordered inner.templates (optional u) Silent :=
      .bind fun _ _ => .pureBind .last
    clear_value optional
    refine .ite (fun _ => ?_) fun _ => .ite (fun _ => .bind fun _ _ => ?_) fun _ => .pureBind .last
    · split
      · exact .last
      · exact .bind fun _ _ => .last
    · exact .take [] (branches_reads grammar inner) fun inner _ => .last
  clear_value finish
  have (node : Node text) : Reads ordered node.templates (assigned node) Silent := by
    refine .ite (fun _ => .pureBind .last) fun _ => ?_
    exact .take [] (assignmentRest_reads grammar node) fun inner _ => .last
  clear_value assigned
  have (u : Unit) : Reads ordered [] (name u) Silent := by
    refine .bind fun start _ => .first .modify fun _ => .bind fun context _ => .bind fun _ _ => ?_
    exact .either fun node _ _ => .last
  clear_value name
  have (named : Bool) : Reads ordered [] (rest named) Silent := by
    refine .bind fun types _ => .ite (fun _ => .when .last) fun _ => ?_
    exact .bind fun _ _ => .bind fun inner _ => .last
  clear_value rest
  refine .ite (fun _ => .bind fun next _ => .pureBind .last) fun _ => .bind fun token _ => ?_
  split <;> exact .pureBind .last

instance pieces_reads : Reads ordered [] (pieces grammar) Silent := by
  unfold pieces
  refine .bind fun _ _ => .first (.within (h := .loop fun all => ?_)) fun all => .bind fun _ _ =>
    .pure
  refine .bind fun _ _ => .ite (fun _ => .pure) fun _ => .bind fun next _ => .bind fun _ _ => ?_
  refine .ite (fun _ => .pure) fun _ => .bind fun offset _ => .bind fun _ _ => .bind fun _ _ => ?_
  exact .ite (fun _ => .pure) fun _ => .pure

instance go_reads (all : Pieces text) (rest : List (Piece text)) :
    Reads ordered [] (pieceParameters.go all rest) Silent := by
  induction rest with
  | nil => exact .pure
  | cons piece rest ih =>
      unfold pieceParameters.go
      extract_lets more check
      have (u : Unit) : Reads ordered [] (more u) Silent := ih
      clear_value more
      have (u : Unit) : Reads ordered [] (check u) Silent := .whenNot .last
      clear_value check
      refine .ite (fun _ => .ite (fun _ => .bind fun _ _ => .last) fun _ => ?_) fun _ => .last
      exact .bind fun _ _ => .when .last

instance pieceParameters_reads (all : Pieces text) :
    Reads ordered (carried text all) (pieceParameters all) Silent := by
  unfold pieceParameters
  exact .bind fun _ _ => .pure

instance pieceExpression_reads (start : Nat) (async : Bool) (all : Pieces text) :
    Reads ordered (carried text all) (pieceExpression start async all) Node.Plain := by
  unfold pieceExpression
  refine .first (.forEach fun piece => .when .pure) fun _ => ?_
  refine .first (.forEach fun piece => .bind fun _ _ => .pure) fun _ => ?_
  refine .ite (fun _ => .pure) fun _ => ?_
  split
  · exact .last
  · exact .first (.forEach fun piece => .when .pure) fun _ => .pure

instance parenthesized_reads (start : Nat) (mayBeArrow async : Bool) :
    Reads ordered [] (parenthesized grammar start mayBeArrow async) Node.Plain := by
  unfold parenthesized
  refine .bind fun all _ => .bind fun types told => .bind fun colon _ => ?_
  extract_lets follows arrow whole rest
  -- where a colon may belong to a conditional, an arrow function is only tried; otherwise what
  -- follows the pieces decides whether they are its parameters
  have arrows : Reads ordered (carried text all) arrow Node.Plain := by
    refine .bind fun result none => .bind fun newline _ => .when <| .bind fun _ _ => ?_
    refine .take result (pieceParameters_reads all) (fun value _ => ?_)
      (.reordered fun strict => ?_)
    · obtain ⟨names, simple⟩ := value
      refine .first inferInstance fun ⟨body, _⟩ => .bind fun _ _ => .whenNot ?_
      exact .pure (.reordered fun strict => by simp [none strict])
    · simp [none strict]
  have wholes (result : Option (Found text)) (none : ordered → carried text result = []) :
      Reads ordered (carried text all ++ carried text result) (whole result) Node.Plain := by
    refine .bind fun _ _ => .ite (fun _ => ?_) fun _ => .last
    refine .bind fun _ _ => .bind fun _ _ => .when <| .bind fun _ _ => ?_
    refine .take (carried text result) (pieceParameters_reads all) (fun value _ => ?_)
      (.reordered fun strict => ?_)
    · obtain ⟨names, simple⟩ := value
      refine .first inferInstance fun ⟨body, isBlock⟩ => .bind fun _ _ => .ite (fun _ => ?_)
        fun _ => .pure (.reordered fun strict => by simp [none strict])
      refine .bind fun _ _ => .bind fun _ _ => .bind fun context _ => ?_
      exact .last (.reordered fun strict => by simp [none strict]) fun _ told => told (by simp)
    · simp [none strict]
  clear_value arrow whole
  have (u : Unit) : Reads ordered (carried text all) (rest u) Node.Plain := by
    refine .bind fun context _ => .ite (fun both => .first (.trial ?_) fun result => ?_) fun _ =>
      .pureBind ?_
    · exact .bind fun result _ => .bind fun _ _ => .whenNot .pure
    · have free : ¬ ordered := told (by simp_all [follows])
      exact .last (h := wholes result (absurd · free))
    · exact .last (h := wholes none (by simp))
  clear_value rest
  refine .bind fun context _ => .ite (fun both => ?_) fun _ => .last
  exact .attemptElse arrows (fun node plain => .pure (t := plain)) .last

instance bareArrow_reads (start : Nat) (word : Word text) (async : Bool) :
    Reads ordered [] (bareArrow grammar start word async) Node.Plain := by
  unfold bareArrow
  exact .when <| .bind fun _ _ => .first inferInstance fun ⟨body, _⟩ => .pure

instance named_reads (mayBeArrow : Bool) :
    Reads ordered [] (named grammar mayBeArrow) Node.Plain := by
  unfold named
  refine .bind fun start _ => .bind fun plainAsync _ => .bind fun word _ => .bind fun newline _ =>
    ?_
  extract_lets rest
  have (u : Unit) : Reads ordered [] (rest u) Node.Plain :=
    .bind fun _ _ => .ite (fun _ => .last) fun _ => .pure
  clear_value rest
  refine .ite (fun _ => .bind fun _ _ => .ite (fun _ => .last) fun _ => ?_) fun _ => .last
  refine .bind fun token _ => ?_
  split
  · refine .bind fun _ _ => .ite (fun _ => ?_) fun _ => .last
    exact .bind fun parameter _ => .last
  · exact .last

instance primary_reads : Reads ordered [] (primary grammar) Node.Plain := by
  unfold primary
  refine .bind fun start _ => .bind fun state _ => .bind fun token harmless => ?_
  split
  iterate 2 exact .bind fun _ _ => .pure
  iterate 6 exact .last
  · refine .bind fun marked _ => .bind fun _ told => ?_
    have free : ¬ ordered := told (by decide)
    exact .take [] (Class.tail_reads grammar free marked false false) fun found _ => .pure
  · exact .bind fun _ _ => .bind fun _ _ => .pure
  iterate 4 exact .bind fun _ _ => .pure
  · exact .bind fun _ _ => .bind fun found _ => .pure
  · have free : ¬ ordered := harmless.not_ordered (by decide)
    refine .bind fun _ _ => ?_
    exact .take [] (Class.tail_reads grammar free [] false false) fun found _ => .pure
  · refine .bind fun next _ => .ite (fun _ => ?_) fun _ => .last
    exact .bind fun _ _ => .bind fun _ _ => .bind fun found _ => .pure
  · exact .last

instance importExpression_reads (noCall : Bool) :
    Reads ordered [] (importExpression grammar noCall) Node.Plain := by
  unfold importExpression
  refine .bind fun start _ => .bind fun _ _ => .bind fun _ _ => ?_
  extract_lets -underBinder call
  have (u : Unit) : Reads ordered [] (call u) Node.Plain := by
    refine .when <| .bind fun _ _ => .whenNot <| .first inferInstance fun ⟨found, _⟩ => ?_
    exact .last (h := subscripts_reads grammar noCall false (by simp))
  clear_value call
  refine .ite (fun _ => .bind fun _ _ => .ite (fun _ => ?_) fun _ => ?_) fun _ => .last
  · exact .last (h := subscripts_reads grammar noCall false (by simp))
  · exact .bind fun _ _ => .whenNot <| .bind fun _ _ => .last

instance superExpression_reads (noCall : Bool) :
    Reads ordered [] (superExpression grammar noCall) Node.Plain := by
  unfold superExpression
  refine .bind fun start _ => .bind fun _ _ => .bind fun _ _ => .bind fun context _ => .whenNot ?_
  refine .bind fun follows _ => .whenNot ?_
  exact .last (h := subscripts_reads grammar noCall false (by simp))

instance constructionTypes_reads :
    Reads ordered [] (constructionTypes grammar) fun found => ordered → found = [] := by
  have : Reads ordered [] (do
      let types ← attempt do
        let types ← TypeGrammar.arguments grammar
        unless ← isMark "(" do unexpected
        return types
      return types.getD []) Silent := by
    refine .first (.trial ?_) fun found => .pure
    exact .bind fun found _ => .bind fun _ _ => .whenNot .pure
  unfold constructionTypes
  exact ifTyped_reads

instance member_reads (behindNew : Bool) :
    Reads ordered [] (member grammar behindNew) Node.Plain := by
  unfold member
  refine .bind fun start _ => .bind fun _ _ => .ite (fun _ => ?_) fun _ => ?_
  · refine .bind fun _ _ => .ite (fun _ => ?_) fun _ => ?_
    · refine .bind fun _ _ => .bind fun context _ => .whenNot ?_
      exact .last (h := subscripts_reads grammar true false (by simp))
    · refine .bind fun callee plain => .ite (fun _ => .pure (t := plain)) fun _ => .when ?_
      refine .bind fun types none => .bind fun _ _ => .ite (fun _ => ?_) fun _ => .pure
      refine .bind fun _ _ => .ite (fun _ => .first inferInstance fun ⟨found, _⟩ => ?_) fun _ =>
        .pure
      refine .last (.reordered fun strict => ?_)
        (h := subscripts_reads grammar true false (by simp))
      simp [none strict]
  · refine .bind fun _ _ => .ite (fun _ => .last) fun _ => ?_
    refine .bind fun _ _ => .ite (fun _ => .last) fun _ => ?_
    refine .bind fun object plain => .ite (fun _ => .pure (t := plain)) fun _ => ?_
    exact .last (h := subscripts_reads grammar true false plain)

instance leftHandSide_reads : Reads ordered [] (leftHandSide grammar) Node.Plain := by
  unfold leftHandSide
  refine .bind fun _ _ => .ite (fun _ => .last) fun _ => ?_
  refine .bind fun _ _ => .ite (fun _ => .last) fun _ => .bind fun callee plain => ?_
  split
  iterate 2 exact .pure (t := plain)
  exact .last (h := subscripts_reads grammar false false plain)

instance markup_reads : Reads ordered [] (markup grammar) Node.Plain := by
  unfold markup
  refine .bind fun start _ => .bind fun found _ => .bind fun _ _ => .bind fun _ _ => ?_
  exact .whenTwo .pure

instance awaited_reads : Reads ordered [] (awaited grammar) Node.Plain := by
  unfold awaited
  refine .bind fun start _ => .bind fun _ _ => .whenNot <| .bind fun word _ => .bind fun _ _ => ?_
  refine .when <| .bind fun context _ => .bind fun token _ => ?_
  extract_lets -underBinder rest
  have (ends : Bool) : Reads ordered [] (rest ends) Node.Plain := by
    refine .bind fun _ _ => .ite (fun _ => .bind fun _ _ => .pure) fun _ => ?_
    exact .when <| .when <| .bind fun value _ => .pure
  clear_value rest
  split <;> exact .pureBind .last

instance operand_reads : Reads ordered [] (operand grammar) Node.Plain := by
  unfold operand
  refine .bind fun start _ => .tryCatch (.last) fun fault => ?_
  exact .bind fun _ _ => .pure

instance unary_reads : Reads ordered [] (unary grammar) Node.Plain := by
  unfold unary
  refine .bind fun start _ => .bind fun markupHere _ => .bind fun _ _ => .bind fun types told =>
    .ite (fun both => ?_) fun _ => ?_
  · have free : ¬ ordered := told (by simp_all)
    refine .bind fun _ _ => .bind fun _ _ => .ite (fun _ => ?_) fun _ => ?_
    · exact .bind fun _ _ => .bind fun value _ => .pure
    · refine .bind fun type _ => .bind fun _ _ => .bind fun value _ => ?_
      exact .pure (.reordered (absurd · free))
  refine .bind fun _ _ => .ite (fun _ => .last) fun _ => .bind fun _ _ =>
    .ite (fun _ => ?_) fun _ => ?_
  · exact .bind fun _ _ => .bind fun value _ => .bind fun _ _ => .pure
  refine .bind fun _ _ => .bind fun _ _ => .ite (fun _ => ?_) fun _ => ?_
  · exact .bind fun _ _ => .bind fun value _ => .pure
  refine .bind fun _ _ => .ite (fun _ => .last) fun _ => .bind fun value plain => ?_
  refine .bind fun _ _ => .ite (fun _ => .pure (t := plain)) fun _ => .bind fun _ _ => ?_
  exact .ite (fun _ => .bind fun _ _ => .bind fun _ _ => .pure) fun _ => .pure (t := plain)

end Expression

end FieldUsage.Host
