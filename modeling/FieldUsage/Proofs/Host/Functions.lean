import FieldUsage.Proofs.Host.Types

/-!
Templates in binding patterns, functions, classes and the declarations of types. The parts of a
function are listed in another order than they stand in where they have types, and those of a class
always; none of this happens where order matters, since there are no types and no classes.
-/

namespace FieldUsage.Host

variable {text : List Char} {ordered : Prop}

open Reader TypeGrammar

instance : Carries text (Key text) := ⟨Key.templates⟩
instance : Carries text (Parameters text) := ⟨Parameters.templates⟩
instance : Carries text (Function.Callable text) := ⟨Function.Callable.templates⟩
instance : Carries text (Class.Member text) := ⟨Class.Member.templates⟩
instance : Bare text Class.Modifiers := {}

@[simp] theorem carried_key (key : Key text) : carried text key = key.templates := rfl
@[simp] theorem carried_parameters (parameters : Parameters text) :
    carried text parameters = parameters.templates := rfl
@[simp] theorem carried_callable (function : Function.Callable text) :
    carried text function = function.templates := rfl
@[simp] theorem carried_member (member : Class.Member text) :
    carried text member = member.templates := rfl

variable (grammar : Grammar text) [Goals ordered grammar]

namespace Key

instance key_reads : Reads ordered [] (key grammar) Silent := by
  unfold key
  refine .bind fun start _ => .bind fun token _ => ?_
  split
  iterate 3 exact .bind fun _ _ => .pure
  · exact .bind fun _ _ => .bind fun inner _ => .bind fun _ _ => .pure
  · exact .last

instance classKey_reads : Reads ordered [] (classKey grammar) Silent := by
  unfold classKey
  refine .bind fun start _ => .bind fun _ _ => .ite (fun _ => ?_) fun _ => .last
  exact .bind fun word _ => .when .pure

end Key

namespace Binding

instance default?_reads : Reads ordered [] (default? grammar) Silent := by
  unfold default?
  exact .bind fun _ _ => .ite (fun _ => .last) fun _ => .pure

instance element_reads : Reads ordered [] (element grammar) Silent := by
  unfold element
  exact .bind fun pattern _ => .bind fun default _ => .pure

instance rest_reads : Reads ordered [] (rest grammar) Silent := by
  unfold rest
  refine .bind fun _ _ => .bind fun pattern _ => .bind fun offset _ => .bind fun _ _ => ?_
  exact .when .pure

instance array_reads : Reads ordered [] (array grammar) Silent := by
  have : Reads ordered [] (do
      if ← eatMark "," then return []
      let found ← if ← isMark "..." then rest grammar else element grammar
      unless ← isMark "]" do expectMark ","
      return found) Silent := by
    refine .bind fun _ _ => .ite (fun _ => .pure) fun _ => .bind fun _ _ => ?_
    exact .either fun found _ _ => .bind fun _ _ => .whenNot .pure
  unfold array
  exact .bind fun _ _ => .last

instance property_reads : Reads ordered [] (property grammar) Silent := by
  unfold property
  refine .bind fun _ _ => .ite (fun _ => ?_) fun _ => ?_
  · exact .bind fun _ _ => .bind fun _ _ => .whenTwo .last
  · refine .bind fun key _ => .bind fun _ _ => .ite (fun _ => .bind fun value _ => .pure) fun _ =>
      ?_
    refine .whenNot <| .last

instance pattern_reads : Reads ordered [] (pattern grammar) Node.Plain := by
  unfold pattern
  refine .bind fun start _ => .bind fun token _ => ?_
  split
  · exact .bind fun found _ => .pure
  · exact .bind fun _ _ => .bind fun found _ => .pure
  · exact .bind fun word _ => .pure
  · exact .last

end Binding

namespace Function

instance eatModifier_reads (words : List String) :
    Reads ordered [] (eatModifier words : Reader text Bool) Silent := by
  unfold eatModifier
  refine .bind fun _ _ => .ite (fun _ => .bind fun next _ => ?_) fun _ => .pure
  split
  iterate 3 exact .bind fun _ _ => .pure
  exact .pure

/-- Nothing but types makes a parameter a property. -/
instance modifiers_reads : Reads ordered [] (modifiers : Reader text Bool) Silent := by
  unfold modifiers
  refine .bind fun types _ => .ite (fun _ => .pure) fun _ => ?_
  exact .bind fun _ _ => .bind fun _ _ => .bind fun _ _ => .pure

instance decorators_reads : Reads ordered [] (decorators grammar) Silent := by
  unfold decorators
  refine .loop fun found => ?_
  exact .bind fun _ _ => .ite (fun _ => .bind fun node _ => .pure) fun _ => .pure

instance parameter_reads (constructs : Bool) :
    Reads ordered [] (parameter grammar constructs) Silent := by
  unfold parameter
  refine .bind fun start _ => .bind fun modified _ => .when <| .bind fun pattern _ => ?_
  refine .when <| .bind fun types _ => .either fun optional _ _ => .bind fun type _ => ?_
  exact .bind fun isDefault _ => .when <| .bind fun default _ => .pure

instance restParameter_reads : Reads ordered [] (restParameter grammar) Silent := by
  unfold restParameter
  refine .bind fun _ _ => .bind fun pattern _ => .bind fun offset _ => .bind fun _ _ => ?_
  extract_lets rest
  have (u : Unit) : Reads ordered pattern.templates (rest u) Silent :=
    .bind fun type _ => .bind fun _ _ => .when <| .bind fun default _ => .pure
  clear_value rest
  refine .ite (fun _ => .bind fun types _ => .ite (fun _ => ?_) fun _ => .last) fun _ => .last
  exact .bind fun _ _ => .bind fun _ _ => .last

instance parameters_reads (constructs : Bool) :
    Reads ordered [] (parameters grammar constructs) Silent := by
  unfold parameters
  refine .bind fun _ _ => .first (.within (h := .loop fun seen => ?_)) fun all => .bind fun _ _ =>
    .pure
  refine .bind fun _ _ => .ite (fun _ => .pure) fun _ => .bind fun _ _ => .bind fun marked _ => ?_
  refine .bind fun start _ => .bind fun isRest _ => ?_
  extract_lets comma
  have : ∀ value, Reads ordered (seen.templates ++ marked ++ carried text value) (comma value)
      Silent := by
    intro ⟨found, simple, implemented⟩
    refine .bind fun _ _ => ?_
    extract_lets whole
    have (u : Unit) : Reads ordered (seen.templates ++ marked ++ found) (whole u) Silent := .pure
    clear_value whole
    refine .ite (fun _ => .last) fun _ => .bind fun place _ => .bind fun _ _ => .bind fun _ _ => ?_
    exact .when .last
  clear_value comma
  exact .ite (fun _ => .bind fun found _ => .pureBind .last) fun _ => .bind fun found _ => .last

instance untilBrace_reads (goal : Goal) : Reads ordered [] (untilBrace grammar goal) Silent := by
  unfold untilBrace
  refine .first (.loop fun found => ?_) fun found => .bind fun _ _ => .whenNotTwo .pure
  refine .bind fun _ _ => .bind fun _ _ => .ite (fun _ => .pure) fun _ => ?_
  exact .bind fun more _ => .pure

instance statementsUntilBrace_reads : Reads ordered [] (statementsUntilBrace grammar) Silent := by
  unfold statementsUntilBrace
  exact .last

instance isDirective_reads : Reads ordered [] (isDirective : Reader text Bool) Silent := by
  unfold isDirective
  refine .bind fun token _ => ?_
  split
  · exact .bind fun next _ => .pure
  · exact .pure

instance directives_reads : Reads ordered [] (directives : Reader text (Option Nat)) Silent := by
  unfold directives
  refine .loop fun strict => .bind fun directive _ => .ite (fun _ => ?_) fun _ => .pure
  refine .bind fun start _ => .bind fun state _ => .bind fun _ _ => .bind fun _ _ => .pure

instance inside_inner (async generator arrow : Bool) : Inner (inside async generator arrow) :=
  ⟨fun _ => rfl, fun _ => rfl⟩

omit [Goals ordered grammar] in
instance withoutLabels_reads {α : Type} [Carries text α] {tells : α → Prop}
    (reader : Reader text α) [Reads ordered [] reader tells] :
    Reads ordered [] (withoutLabels reader) tells := by
  unfold withoutLabels
  refine .bind fun state _ => .first .modify fun _ => .bind fun value told => ?_
  exact .first .modify fun _ => .pure (t := told)

instance body_reads (simple : Bool) : Reads ordered [] (body grammar simple) Silent := by
  unfold body
  refine .bind fun _ _ => .bind fun strict _ => .bind fun found _ => ?_
  exact .whenNot .pure

/-- The parameters of a function are listed first, then the decorators in front of it. -/
theorem callable_reads (async generator : Bool) {marked : Found text}
    (unmarked : ordered → marked = []) (constructs : Bool) :
    Reads ordered marked (callable grammar async generator marked constructs) Silent := by
  unfold callable
  refine .bind fun bounds noBounds => .bind fun names _ => .bind fun typePlace _ => ?_
  refine .bind fun types _ => .bind fun colon _ => .bind fun result noResult => ?_
  refine .bind fun start _ => .bind fun types _ => .bind fun brace _ => ?_
  extract_lets rest
  have (hasBody : Bool) :
      Reads ordered (marked ++ bounds ++ names.templates ++ result) (rest hasBody) Silent := by
    refine .bind fun context _ => .when <| .whenNot <| .either fun inner _ _ =>
      .pure (.reordered ?_)
    intro strict
    simp [unmarked strict, noBounds strict, noResult strict]
  clear_value rest
  refine .ite (fun _ => .bind fun _ _ => .ite (fun _ => ?_) fun _ => ?_) fun _ => ?_
  iterate 3 exact .bind fun hasBody _ => .last

instance callable_reads_unmarked (async generator constructs : Bool) :
    Reads ordered [] (callable grammar async generator [] constructs) Silent :=
  callable_reads grammar async generator (fun _ => rfl) constructs

instance arrowBody_reads (async simple : Bool) :
    Reads ordered [] (arrowBody grammar async simple) Silent := by
  unfold arrowBody
  refine .bind fun _ _ => .ite (fun _ => .bind fun found _ => .pure) fun _ => ?_
  exact .bind fun value _ => .pure

instance named_reads (async nameRequired : Bool) :
    Reads ordered [] (named grammar async nameRequired) Silent := by
  unfold named
  refine .bind fun generator _ => .bind fun _ _ => .when <| .bind fun function _ => .pure

end Function

namespace Class

instance modifier?_reads (words : List String) :
    Reads ordered [] (modifier? words : Reader text (Option String)) Silent := by
  unfold modifier?
  refine .bind fun token _ => ?_
  split
  · exact .bind fun next _ => .pure
  · exact .pure

instance eatModifier_reads (words : List String) :
    Reads ordered [] (eatModifier words : Reader text Bool) Silent := by
  unfold eatModifier
  refine .bind fun found _ => ?_
  split
  · exact .bind fun _ _ => .pure
  · exact .pure

instance add_reads (found : Modifiers) (word : String) :
    Reads ordered [] (found.add word : Reader text Modifiers) Silent := by
  unfold Modifiers.add
  refine .bind fun start _ => ?_
  split
  iterate 2 exact .bind fun context _ => .when .pure
  iterate 2 exact .when .pure
  exact .pure

instance modifiers_reads : Reads ordered [] (modifiers : Reader text Modifiers) Silent := by
  unfold modifiers
  refine .bind fun types _ => .ite (fun _ => .bind fun isStatic _ => .pure) fun _ => ?_
  refine .bind fun _ _ => .bind fun _ _ => .either fun _ _ _ => .bind fun _ _ =>
    .loop fun found => ?_
  refine .bind fun word _ => ?_
  cases word with
  | some word => exact .bind fun found _ => .bind fun _ _ => .pure
  | none => exact .pure

omit [Goals ordered grammar] in
instance insideClass_reads {α : Type} [Carries text α] {seen : Found text} {tells : α → Prop}
    (reader : Reader text α) [Reads ordered seen reader tells] :
    Reads ordered seen (insideClass reader) tells := by
  unfold insideClass
  exact .within

instance staticBlock_reads : Reads ordered [] (staticBlock grammar) Silent := by
  unfold staticBlock
  exact .bind fun _ _ => .last

instance checkModifiers_reads (modifiers : Modifiers) (key : Key text) :
    Reads ordered [] (checkModifiers modifiers key) Silent := by
  unfold checkModifiers
  exact .ite (fun _ => .last) fun _ => .pure

/-- The decorators of a method are listed after its key and parameters. -/
theorem method_reads (free : ¬ ordered) (marked : Found text) (modifiers : Modifiers)
    (key : Key text) (async generator : Bool) :
    Reads ordered (marked ++ key.templates)
      (method grammar marked modifiers key async generator) Silent := by
  unfold method
  refine .bind fun _ _ => .when <| .bind fun types _ => .when <| .when <| .when <| ?_
  refine .bind fun _ _ => .whenTwo ?_
  refine .take key.templates (Function.callable_reads grammar async generator (absurd · free) _)
    (fun function _ => .when <| .when .pure) (.reordered (absurd · free) fun p => ?_)
  split <;> simp +arith

/-- A getter or setter without decorators in front of it is listed as it stands. -/
theorem accessor_reads (marked : Found text) (unmarked : ordered → marked = [])
    (modifiers : Modifiers) (isGetter : Bool) :
    Reads ordered marked (accessor grammar marked modifiers isGetter) Silent := by
  unfold accessor
  refine .bind fun key _ => .bind fun _ _ => .when <| .when ?_
  refine .take key.templates (Function.callable_reads grammar false false unmarked false)
    (fun function _ => .when .pure) (.reordered fun strict => ?_)
  simp [unmarked strict]

/-- The decorators of a field are listed last, and its value before its type. -/
theorem field_reads (free : ¬ ordered) (marked : Found text) (modifiers : Modifiers)
    (key : Key text) (isOptional : Bool) :
    Reads ordered (marked ++ key.templates)
      (field grammar marked modifiers key isOptional) Silent := by
  unfold field
  refine .bind fun _ _ => .when <| .bind fun _ _ => .bind fun _ _ => .whenNot ?_
  refine .bind fun types _ => .when <| .bind fun type _ => .bind fun _ _ => .when ?_
  refine .bind fun _ _ => .either fun value _ _ => .bind fun _ _ => .whenNotTwo ?_
  exact .pure (.reordered (absurd · free))

theorem member_reads (free : ¬ ordered) : Reads ordered [] (member grammar) Silent := by
  have method := method_reads grammar free
  have field := field_reads grammar free
  have accessor (marked : Found text) := accessor_reads grammar marked (absurd · free)
  unfold member
  refine .bind fun marked _ => .bind fun modifiers _ => .bind fun _ _ =>
    .ite (fun _ => ?_) fun _ => ?_
  · exact .whenTwo <| .bind fun found _ => .pure
  refine .bind fun _ _ => .bind fun _ _ => .bind fun _ _ => .ite (fun _ => ?_) fun _ => ?_
  · exact .bind fun found _ => .bind fun _ _ => .pure
  refine .bind fun _ _ => .ite (fun _ => .bind fun key _ => .last) fun _ => ?_
  refine .bind fun next _ => .bind fun _ _ => .ite (fun _ => ?_) fun _ => ?_
  · exact .bind fun _ _ => .bind fun generator _ => .bind fun key _ => .last
  refine .bind fun _ _ => .ite (fun _ => .bind fun isGetter _ => .bind fun _ _ => .last) fun _ => ?_
  refine .bind fun key _ => .bind fun types _ => .either fun isOptional _ _ => ?_
  exact .bind fun _ _ => .ite (fun _ => .last) fun _ => .last

theorem body_reads (free : ¬ ordered) : Reads ordered [] (body grammar) Silent := by
  have := member_reads grammar free
  unfold body
  refine .bind fun _ _ => .first (.loop fun state => ?_) ?_
  case refine_2 =>
    rintro ⟨found, constructed⟩
    exact .bind fun _ _ => .pure
  obtain ⟨found, constructed⟩ := state
  refine .bind fun _ _ => .ite (fun _ => .pure) fun _ => ?_
  refine .bind fun _ _ => .ite (fun _ => .pure) fun _ => ?_
  exact .bind fun start _ => .bind fun member _ => .bind fun context _ => .when .pure

instance heritage_reads : Reads ordered [] (heritage grammar) Silent := by
  have : Reads ordered [] (do
      entityName anyName
      if ← opensArguments then arguments grammar else return []) Silent :=
    .bind fun _ _ => .bind fun _ _ => .ite (fun _ => .last) fun _ => .pure
  unfold heritage
  exact .bind fun _ _ => .ite (fun _ => .last) fun _ => .pure

/-- The body of a class is listed before what it extends. -/
theorem tail_reads (free : ¬ ordered) (marked : Found text) (nameRequired isAbstract : Bool) :
    Reads ordered marked (tail grammar marked nameRequired isAbstract) Silent := by
  have := body_reads grammar free
  unfold tail
  refine .bind fun types _ => .either fun isClause _ _ => .bind fun _ _ => ?_
  extract_lets rest name
  have (u : Unit) : Reads ordered marked (rest u) Silent := by
    refine .bind fun bounds _ => .bind fun isDerived _ => .bind fun _ _ => ?_
    extract_lets inner
    have : ∀ value,
        Reads ordered (marked ++ bounds ++ carried text value) (inner value) Silent := by
      intro ⟨base, baseTypes⟩
      refine .bind fun _ _ => .bind fun _ _ => .either fun interfaces _ _ => ?_
      exact .bind fun members _ => .pure (.reordered (absurd · free))
    clear_value inner
    refine .ite (fun _ => ?_) fun _ => .pureBind .last
    refine .bind fun base _ => .bind fun _ _ => .bind fun _ _ => .either fun types _ _ => ?_
    exact .pureBind .last
  clear_value rest
  have (u : Unit) : Reads ordered marked (name u) Silent :=
    .bind fun start _ => .bind fun word _ => .bind fun _ _ => .when .last
  clear_value name
  exact .ite (fun _ => .bind fun _ _ => .when .last) fun _ => .last

end Class

namespace Declaration

instance interface_reads : Reads ordered [] (interface grammar) Silent := by
  unfold interface
  refine .bind fun start _ => .bind fun word _ => .when <| .bind fun bounds _ => ?_
  exact .bind fun _ _ => .either fun base _ _ => .bind fun inner _ => .pure

instance typeAlias_reads : Reads ordered [] (typeAlias grammar) Silent := by
  unfold typeAlias
  refine .bind fun _ _ => .bind fun bounds _ => .bind fun _ _ => .bind fun type _ => ?_
  exact .bind fun _ _ => .pure

instance enumKey_reads : Reads ordered [] (enumKey grammar) Silent := by
  unfold enumKey
  refine .bind fun start _ => .bind fun token _ => ?_
  split
  iterate 2 exact .last
  · exact .bind fun _ _ => .last
  · exact .bind fun _ _ => .bind fun key _ => .whenNot .last
  · exact .last

instance enumMember_reads : Reads ordered [] (enumMember grammar) Silent := by
  unfold enumMember
  refine .bind fun _ _ => .bind fun _ _ => .either fun value _ _ => .bind fun _ _ =>
    .bind fun _ _ => ?_
  refine .ite (fun _ => .pure) fun _ => ?_
  exact .bind fun _ _ => .bind fun _ _ => .bind fun _ _ => .pure

instance enumeration_reads : Reads ordered [] (enumeration grammar) Silent := by
  unfold enumeration
  exact .bind fun _ _ => .bind fun _ _ => .last

instance itemBlock_reads : Reads ordered [] (itemBlock grammar) Silent := by
  unfold itemBlock
  exact .bind fun _ _ => .last

instance namespaceBody_reads : Reads ordered [] (namespaceBody grammar) Silent := by
  unfold namespaceBody
  exact .bind fun _ _ => .last

instance ambientModule_reads : Reads ordered [] (ambientModule grammar) Silent := by
  unfold ambientModule
  refine .bind fun token _ => ?_
  split
  · refine .bind fun _ _ => .bind fun _ _ => .ite (fun _ => .last) fun _ => ?_
    exact .bind fun _ _ => .pure
  · exact .last

instance wordFollows_reads : Reads ordered [] (wordFollows : Reader text Bool) Silent := by
  unfold wordFollows
  refine .bind fun next _ => ?_
  split <;> exact .pure

instance nameFollows_reads : Reads ordered [] (nameFollows : Reader text Bool) Silent := by
  unfold nameFollows
  refine .bind fun next _ => ?_
  split <;> exact .pure

/-- Nothing is declared this way where order matters, since there are no types. -/
instance declaration?_reads (marked : Found text) :
    Reads ordered marked (declaration? grammar marked) Silent := by
  unfold declaration?
  refine .bind fun types told => .ite (fun _ => .pure) fun untyped => .bind fun next _ => ?_
  have free : ¬ ordered := told (by simpa using untyped)
  have := Class.tail_reads grammar free
  refine .bind fun token _ => ?_
  split
  · refine .bind fun context _ => .either fun follows _ _ => .bind fun _ _ => ?_
    exact .ite (fun _ => .bind fun _ _ => .bind fun found _ => .pure) fun _ => .pure
  · refine .bind fun _ _ => ?_
    exact .ite (fun _ => .bind fun _ _ => .bind fun found _ => .pure) fun _ => .pure
  · refine .bind fun context _ => .either fun follows _ _ => .bind fun _ _ => ?_
    exact .ite (fun _ => .bind fun _ _ => .bind fun found _ => .pure) fun _ => .pure
  iterate 2
    refine .bind fun _ _ => ?_
    exact .ite (fun _ => .bind fun _ _ => .bind fun found _ => .pure) fun _ => .pure
  · exact .ite (fun _ => .bind fun _ _ => .bind fun found _ => .pure) fun _ => .pure
  · refine .ite (fun _ => .bind fun _ _ => .bind fun _ _ => ?_) fun _ => .pure
    exact .take [] (this marked true true) fun found _ => .pure
  · exact .pure

end Declaration

end FieldUsage.Host
