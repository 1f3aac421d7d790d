import FieldUsage.Proofs.GraphQL.Definition
import FieldUsage.Proofs.GraphQL.Name

/-!
Writing type definitions and reading them again. Tokens are written with a blank behind each, and
the tokens of a definition are those of its grammar without anything optional. What is written in
this way is read back as it was.
-/

namespace FieldUsage.GraphQL

namespace Token

/-- How a token is written. -/
def spelling : Token → List Char
  | .name text => text.toList
  | .mark char => [char]
  | .spread => ['.', '.', '.']
  | .number => ['0']
  | .string => ['"', '"']

/-- A token that the grammar has: a name that is one, and one of the marks. -/
def IsWritable : Token → Prop
  | .name text => IsName text
  | .mark char => char ∈ marks
  | .spread | .number | .string => True

def write (tokens : List Token) : List Char :=
  tokens.flatMap fun token => token.spelling ++ [' ']

/-- The first token of a text that begins with no quote and no point. -/
theorem first?_cons {c : Char} (quote : c ≠ '"') (point : c ≠ '.') (rest : List Char) :
    first? (c :: rest) =
      if startsName c then
        some (.name (String.ofList ((c :: rest).takeWhile continuesName)),
          (c :: rest).dropWhile continuesName)
      else if marks.contains c then some (.mark c, rest)
      else if c.isDigit || c == '-' then (number? (c :: rest)).map fun rest => (.number, rest)
      else none := by
  unfold first?
  split
  case h_1 same => exact absurd (List.cons.inj same).1 quote
  case h_2 same => exact absurd (List.cons.inj same).1 quote
  case h_3 same => exact absurd (List.cons.inj same).1 point
  case h_4 same =>
    obtain ⟨rfl, rfl⟩ := List.cons.inj same
    rfl
  case h_5 same => cases same

theorem first?_name {text : String} (name : IsName text) (rest : List Char) :
    first? (text.toList ++ ' ' :: rest) = some (.name text, ' ' :: rest) := by
  have continues := name.continuesName
  have taken : (text.toList ++ ' ' :: rest).takeWhile continuesName = text.toList := by
    rw [List.takeWhile_append_of_pos continues, List.takeWhile_cons_of_neg (by decide),
      List.append_nil]
  have left : (text.toList ++ ' ' :: rest).dropWhile continuesName = ' ' :: rest := by
    rw [List.dropWhile_append_of_pos continues, List.dropWhile_cons_of_neg (by decide)]
  have same : String.ofList text.toList = text := String.ofList_toList
  unfold IsName at name
  cases shape : text.toList with
  | nil =>
      rw [shape] at name
      cases name
  | cons first more =>
      rw [shape] at name taken left same continues
      have starts : startsName first = true := (Bool.and_eq_true _ _ ▸ name).1
      have quote : first ≠ '"' := ne_of_continuesName (continues first List.mem_cons_self) rfl
      have point : first ≠ '.' := ne_of_continuesName (continues first List.mem_cons_self) rfl
      rw [List.cons_append] at taken left ⊢
      rw [first?_cons quote point, if_pos starts, taken, left, same]

theorem first?_mark {char : Char} (mark : char ∈ marks) (rest : List Char) :
    first? (char :: rest) = some (.mark char, rest) := by
  have all : marks.all (fun c => decide (c ≠ '"' ∧ c ≠ '.' ∧ startsName c = false)) = true := by
    decide
  have plain := of_decide_eq_true (List.all_eq_true.1 all char mark)
  rw [first?_cons plain.1 plain.2.1, plain.2.2, if_neg (by decide),
    if_pos (List.contains_iff_mem.2 mark)]

/-- A written token is read back from the beginning of a text. -/
theorem first?_spelling {token : Token} (writable : token.IsWritable) (rest : List Char) :
    first? (token.spelling ++ ' ' :: rest) = some (token, ' ' :: rest) := by
  cases token with
  | name text => exact first?_name writable rest
  | mark char => exact first?_mark writable (' ' :: rest)
  | spread | number | string => rfl

/-- No token begins with something that is passed over. -/
theorem head_spelling {token : Token} (writable : token.IsWritable) :
    ∃ c rest, token.spelling = c :: rest ∧ isIgnored c = false ∧ c ≠ ',' ∧ c ≠ '#' := by
  cases token with
  | name text =>
      cases shape : text.toList with
      | nil => exact absurd shape (IsName.toList_ne_nil writable)
      | cons first rest =>
          have member : first ∈ text.toList := by simp [shape]
          have differs {c : Char} (other : continuesName c = false) : first ≠ c :=
            ne_of_continuesName (IsName.continuesName writable first member) other
          have solid : isIgnored first = false := by
            simp [isIgnored, differs (c := ' ') rfl, differs (c := '\t') rfl,
              differs (c := '\r') rfl, differs (c := '\n') rfl, differs (c := '\ufeff') rfl]
          exact ⟨first, rest, shape, solid, differs rfl, differs rfl⟩
  | mark char =>
      have all : marks.all (fun c => decide (isIgnored c = false ∧ c ≠ ',' ∧ c ≠ '#')) = true := by
        decide
      have plain := of_decide_eq_true (List.all_eq_true.1 all char writable)
      exact ⟨char, [], rfl, plain⟩
  | spread => exact ⟨'.', _, rfl, by decide⟩
  | number => exact ⟨'0', _, rfl, by decide⟩
  | string => exact ⟨'"', _, rfl, by decide⟩

end Token

/-- Tokens without commas between them. -/
def lexemes (tokens : List Token) : List Lexeme :=
  tokens.map fun token => { token, afterComma := false }

namespace Token

/-- Written tokens are read back, all of them. -/
theorem tokensFrom_write {tokens : List Token} (writable : ∀ token ∈ tokens, token.IsWritable)
    {bound : Nat} (enough : (write tokens).length ≤ bound) :
    tokensFrom bound false (write tokens) = some (lexemes tokens) := by
  induction tokens generalizing bound with
  | nil => cases bound <;> rfl
  | cons token rest ih =>
      obtain ⟨here, there⟩ := List.forall_mem_cons.1 writable
      obtain ⟨c, more, shape, solid, comma, comment⟩ := head_spelling here
      have text : write (token :: rest) = c :: (more ++ ' ' :: write rest) := by
        rw [write, List.flatMap_cons, shape]
        simp [write]
      rw [text, List.length_cons, List.length_append, List.length_cons] at enough
      have found : first? (c :: (more ++ ' ' :: write rest)) = some (token, ' ' :: write rest) := by
        rw [← first?_spelling here, shape, List.cons_append]
      -- one step for the token and one for the blank behind it
      obtain ⟨left, rfl⟩ : ∃ left, bound = left + 2 := ⟨bound - 2, by omega⟩
      have passed : tokensFrom (left + 1) false (' ' :: write rest) = some (lexemes rest) :=
        ih there (by omega)
      rw [text, tokensFrom, solid, if_neg (by decide), if_neg comma, if_neg comment, found]
      simp only [Option.bind_eq_bind, Option.bind_some, passed]
      rfl

/-- The tokens of a text that was written from tokens. -/
theorem tokens_write {tokens : List Token} (writable : ∀ token ∈ tokens, token.IsWritable) :
    Token.tokens (write tokens) = some (lexemes tokens) :=
  tokensFrom_write writable (Nat.le_refl _)

end Token

namespace TypeExpr

def tokens : TypeExpr → List Token
  | .named name => [.name name]
  | .list item => .mark '[' :: item.tokens ++ [.mark ']']
  | .nonNull inner => inner.tokens ++ [.mark '!']

/-- How many lists a type has inside each other. -/
def listDepth : TypeExpr → Nat
  | .named _ => 0
  | .list item => item.listDepth + 1
  | .nonNull inner => inner.listDepth

/-- A type that can be written: its name is one, and nothing is marked twice as never null. -/
def IsWritable : TypeExpr → Prop
  | .named name => IsName name
  | .list item => item.IsWritable
  | .nonNull inner => inner.isNonNull = false ∧ inner.IsWritable

instance decidableIsWritable : (type : TypeExpr) → Decidable type.IsWritable
  | .named name => inferInstanceAs (Decidable (IsName name))
  | .list item => decidableIsWritable item
  | .nonNull inner =>
      have := decidableIsWritable inner
      inferInstanceAs (Decidable (inner.isNonNull = false ∧ inner.IsWritable))

theorem tokens_writable {type : TypeExpr} (writable : type.IsWritable) :
    ∀ token ∈ type.tokens, token.IsWritable := by
  have marks : '[' ∈ Token.marks ∧ ']' ∈ Token.marks ∧ '!' ∈ Token.marks := by decide
  induction type with
  | named name =>
      intro token member
      obtain rfl := List.mem_singleton.1 member
      exact writable
  | list item ih =>
      intro token member
      rcases List.mem_cons.1 member with rfl | member
      · exact marks.1
      · rcases List.mem_append.1 member with member | member
        · exact ih writable token member
        · obtain rfl := List.mem_singleton.1 member
          exact marks.2.1
  | nonNull inner ih =>
      intro token member
      rcases List.mem_append.1 member with member | member
      · exact ih writable.2 token member
      · obtain rfl := List.mem_singleton.1 member
        exact marks.2.2

end TypeExpr

def FieldDef.tokens (field : FieldDef) : List Token :=
  .name field.name :: .mark ':' :: field.type.tokens

structure FieldDef.IsWritable (field : FieldDef) : Prop where
  name : IsName field.name
  type : field.type.IsWritable
  /-- Lists inside each other are read up to a limit. -/
  shallow : field.type.listDepth ≤ Parser.nestingLimit

/-- The keyword that defines a kind of type. -/
def TypeKind.keyword : TypeKind → String
  | .scalar => "scalar"
  | .object => "type"
  | .interface => "interface"
  | .union => "union"
  | .enum => "enum"
  | .inputObject => "input"

/-- The tokens of a type definition. Without fields there are no braces either. -/
def typeTokens (kind : TypeKind) (name : String) (fields : List FieldDef) : List Token :=
  .name kind.keyword :: .name name ::
    if fields.isEmpty then []
    else .mark '{' :: fields.flatMap FieldDef.tokens ++ [.mark '}']

def rootTokens (root : OperationKind × String) : List Token :=
  [.name root.1.keyword, .mark ':', .name root.2]

def schemaTokens (roots : List (OperationKind × String)) : List Token :=
  .name "schema" :: .mark '{' :: roots.flatMap rootTokens ++ [.mark '}']

namespace Definition

/-- The tokens of a definition of a type or of the schema. -/
def tokens : Definition → List Token
  | .type false kind name fields => typeTokens kind name fields
  | .schema false roots => schemaTokens roots
  | _ => []

/-- A definition that can be written: a type with fields only where it may have them, or a schema
that names a root. -/
def IsWritable : Definition → Prop
  | .type false kind name fields =>
      IsName name ∧ (kind.hasFields = false → fields = []) ∧ ∀ field ∈ fields, field.IsWritable
  | .schema false roots => roots ≠ [] ∧ ∀ root ∈ roots, IsName root.2
  | _ => False

end Definition

/-! Reading the tokens of a definition. -/

namespace Parser

variable {α β : Type}

@[simp] theorem peek_run (tokens : List Token) :
    peek.run (lexemes tokens) = some (tokens.head?, lexemes tokens) := by
  cases tokens <;> rfl

@[simp] theorem skip_run (token : Token) (rest : List Token) :
    skip.run (lexemes (token :: rest)) = some ((), lexemes rest) := rfl

@[simp] theorem isMark_run (char : Char) (tokens : List Token) :
    (isMark char).run (lexemes tokens) =
      some (tokens.head? == some (.mark char), lexemes tokens) := by
  simp [isMark]

theorem eat_run (char : Char) (tokens : List Token) :
    (eat char).run (lexemes tokens) =
      if tokens.head? = some (.mark char) then some (true, lexemes tokens.tail)
      else some (false, lexemes tokens) := by
  cases tokens with
  | nil => simp [eat]
  | cons token rest => by_cases h : token = .mark char <;> simp [eat, h]

@[simp] theorem expect_run (char : Char) (rest : List Token) :
    (expect char).run (lexemes (.mark char :: rest)) = some ((), lexemes rest) := by
  simp [expect, eat_run]

@[simp] theorem name_run (text : String) (rest : List Token) :
    name.run (lexemes (.name text :: rest)) = some (text, lexemes rest) := by
  simp [name]

@[simp] theorem isName_run (text : String) (rest : List Token) :
    isName.run (lexemes (.name text :: rest)) = some (true, lexemes (.name text :: rest)) := by
  simp [isName]

@[simp] theorem lexemes_length (tokens : List Token) : (lexemes tokens).length = tokens.length :=
  List.length_map _

theorem length_le_length_flatMap {tokensOf : β → List Token} {items : List β}
    (solid : ∀ one ∈ items, tokensOf one ≠ []) :
    items.length ≤ (items.flatMap tokensOf).length := by
  induction items with
  | nil => exact Nat.zero_le _
  | cons one others ih =>
      obtain ⟨here, there⟩ := List.forall_mem_cons.1 solid
      have positive := List.length_pos_iff.2 here
      have remaining := ih there
      simp only [List.flatMap_cons, List.length_cons, List.length_append]
      omega

section Repetition

variable {condition : Reader Bool} {item : Reader α} {tokensOf : β → List Token} {valueOf : β → α}
  (follows : List Token → Prop) {items : List β} {rest : List Token}

/-- Items one after the other, up to where the condition no longer holds. What follows an item is
another item or the rest, and a reader of items may look at it. -/
theorem whileNext_run
    (each : ∀ one ∈ items, ∀ more, follows more →
      condition.run (lexemes (tokensOf one ++ more)) = some (true, lexemes (tokensOf one ++ more)) ∧
        item.run (lexemes (tokensOf one ++ more)) = some (valueOf one, lexemes more))
    (between : ∀ one ∈ items, ∀ more, follows (tokensOf one ++ more)) (after : follows rest)
    (stop : condition.run (lexemes rest) = some (false, lexemes rest)) {bound : Nat}
    (enough : items.length < bound) :
    (whileNext condition item bound).run (lexemes (items.flatMap tokensOf ++ rest)) =
      some (items.map valueOf, lexemes rest) := by
  induction items generalizing bound with
  | nil =>
      obtain ⟨left, rfl⟩ : ∃ left, bound = left + 1 := ⟨bound - 1, by simp at enough; omega⟩
      simp [whileNext, stop]
  | cons one others ih =>
      obtain ⟨left, rfl⟩ : ∃ left, bound = left + 1 := ⟨bound - 1, by simp at enough; omega⟩
      rw [List.forall_mem_cons] at each between
      have next : follows (others.flatMap tokensOf ++ rest) := by
        cases others with
        | nil => exact after
        | cons other more =>
            rw [List.flatMap_cons, List.append_assoc]
            exact between.2 other List.mem_cons_self _
      obtain ⟨holds, read⟩ := each.1 _ next
      have remaining : (whileNext condition item left).run _ = _ :=
        ih each.2 between.2 (by simpa using enough)
      rw [List.flatMap_cons, List.append_assoc]
      simp [whileNext, holds, read, remaining]

/-- Items that are written one after the other are read back if the condition holds before each of
them and not behind the last one. -/
theorem many_run
    (each : ∀ one ∈ items, ∀ more, follows more →
      condition.run (lexemes (tokensOf one ++ more)) = some (true, lexemes (tokensOf one ++ more)) ∧
        item.run (lexemes (tokensOf one ++ more)) = some (valueOf one, lexemes more))
    (between : ∀ one ∈ items, ∀ more, follows (tokensOf one ++ more)) (after : follows rest)
    (stop : condition.run (lexemes rest) = some (false, lexemes rest))
    (solid : ∀ one ∈ items, tokensOf one ≠ []) :
    (many condition item).run (lexemes (items.flatMap tokensOf ++ rest)) =
      some (items.map valueOf, lexemes rest) := by
  have enough := length_le_length_flatMap solid
  have bounded : items.length < (lexemes (items.flatMap tokensOf ++ rest)).length + 1 := by
    rw [lexemes_length, List.length_append]
    omega
  have read := whileNext_run follows each between after stop bounded
  unfold many
  simpa using read

theorem someUntil_run {close : Char}
    (each : ∀ one ∈ items, ∀ more, follows more →
      condition.run (lexemes (tokensOf one ++ more)) = some (true, lexemes (tokensOf one ++ more)) ∧
        item.run (lexemes (tokensOf one ++ more)) = some (valueOf one, lexemes more))
    (between : ∀ one ∈ items, ∀ more, follows (tokensOf one ++ more))
    (after : follows (.mark close :: rest))
    (stop : condition.run (lexemes (.mark close :: rest)) =
      some (false, lexemes (.mark close :: rest)))
    (solid : ∀ one ∈ items, tokensOf one ≠ []) (inhabited : items ≠ []) :
    (someUntil close condition item).run
        (lexemes (items.flatMap tokensOf ++ .mark close :: rest)) =
      some (items.map valueOf, lexemes rest) := by
  have read := many_run follows each between after stop solid
  simp [someUntil, read, inhabited]

end Repetition

/-- No directives. -/
theorem directives_run {tokens : List Token} (none : tokens.head? ≠ some (.mark '@')) (depth : Nat)
    (constant : Bool) :
    (directives depth constant).run (lexemes tokens) = some (false, lexemes tokens) := by
  simp [directives, many, whileNext, none]

theorem directives_run_brace (rest : List Token) (depth : Nat) (constant : Bool) :
    (directives depth constant).run (lexemes (.mark '{' :: rest)) =
      some (false, lexemes (.mark '{' :: rest)) :=
  directives_run (by simp) depth constant

/-- What a type, with or without a mark behind it, is read as. -/
theorem typeExpr_run {type : TypeExpr} (writable : type.IsWritable) {depth : Nat}
    (shallow : type.listDepth ≤ depth) {rest : List Token}
    (unmarked : rest.head? ≠ some (.mark '!')) :
    (typeExpr depth).run (lexemes (type.tokens ++ rest)) = some (type, lexemes rest) ∧
      (type.isNonNull = false →
        (typeExpr depth).run (lexemes (type.tokens ++ .mark '!' :: rest)) =
          some (.nonNull type, lexemes rest)) := by
  induction type generalizing depth rest with
  | named name =>
      have here (item : Reader TypeExpr) (more : List Token) :
          (typeWith item).run (lexemes (.name name :: more)) =
            if more.head? = some (.mark '!') then
              some (.nonNull (.named name), lexemes more.tail)
            else some (.named name, lexemes more) := by
        by_cases h : more.head? = some (.mark '!') <;> simp [typeWith, eat_run, h]
      cases depth <;> simp [TypeExpr.tokens, typeExpr, here, unmarked]
  | list item ih =>
      obtain ⟨left, rfl⟩ : ∃ left, depth = left + 1 :=
        ⟨depth - 1, by simp [TypeExpr.listDepth] at shallow; omega⟩
      have inside (more : List Token) :
          (typeExpr left).run (lexemes (item.tokens ++ .mark ']' :: more)) =
            some (item, lexemes (.mark ']' :: more)) :=
        (ih writable (by simpa [TypeExpr.listDepth] using shallow) (by simp)).1
      have here (more : List Token) :
          (typeExpr (left + 1)).run (lexemes (TypeExpr.tokens (.list item) ++ more)) =
            if more.head? = some (.mark '!') then
              some (.nonNull (.list item), lexemes more.tail)
            else some (.list item, lexemes more) := by
        by_cases h : more.head? = some (.mark '!') <;>
          simp [TypeExpr.tokens, typeExpr, typeWith, inside, eat_run, h]
      simp [here, unmarked]
  | nonNull inner ih =>
      obtain ⟨bare, writable⟩ := writable
      refine ⟨?_, nofun⟩
      rw [TypeExpr.tokens, List.append_assoc]
      exact (ih writable shallow unmarked).2 bare

/-- What may follow a field: none of the marks that would still belong to it. -/
structure EndsField (rest : List Token) : Prop where
  unmarked : rest.head? ≠ some (.mark '!')
  undirected : rest.head? ≠ some (.mark '@')
  unassigned : rest.head? ≠ some (.mark '=')

/-- A field is read back from its tokens. -/
theorem fieldDef_run {field : FieldDef} (writable : field.IsWritable) {rest : List Token}
    (ends : EndsField rest) :
    fieldDef.run (lexemes (field.tokens ++ rest)) = some (field, lexemes rest) := by
  have type := (typeExpr_run writable.type writable.shallow ends.unmarked).1
  have marked := directives_run ends.undirected nestingLimit true
  simp [FieldDef.tokens, fieldDef, description?, eat_run, type, marked]

theorem inputValue_run {field : FieldDef} (writable : field.IsWritable) {rest : List Token}
    (ends : EndsField rest) :
    inputValue.run (lexemes (field.tokens ++ rest)) = some (field, lexemes rest) := by
  have type := (typeExpr_run writable.type writable.shallow ends.unmarked).1
  have marked := directives_run ends.undirected nestingLimit true
  simp [FieldDef.tokens, inputValue, description?, eat_run, type, marked, ends.unassigned]

/-- A block of fields, whether they are read as fields or as inputs. -/
theorem block?_run {item : Reader FieldDef}
    (each : ∀ field : FieldDef, field.IsWritable → ∀ rest, EndsField rest →
      item.run (lexemes (field.tokens ++ rest)) = some (field, lexemes rest))
    {fields : List FieldDef} (writable : ∀ field ∈ fields, field.IsWritable)
    (inhabited : fields ≠ []) (rest : List Token) :
    (block? isDescribed item).run
        (lexemes (.mark '{' :: fields.flatMap FieldDef.tokens ++ .mark '}' :: rest)) =
      some (some fields, lexemes rest) := by
  have read : (someUntil '}' isDescribed item).run
      (lexemes (fields.flatMap FieldDef.tokens ++ .mark '}' :: rest)) =
        some (fields.map id, lexemes rest) := by
    refine someUntil_run EndsField ?_ ?_ ?_ ?_ ?_ inhabited
    · intro field member more ends
      exact ⟨by simp [FieldDef.tokens, isDescribed], each field (writable field member) more ends⟩
    · intro field _ more
      constructor <;> simp [FieldDef.tokens]
    · constructor <;> simp
    · simp [isDescribed]
    · simp [FieldDef.tokens]
  simp [block?, eat_run, read]

/-- What may follow a definition: the end, or another definition. -/
def EndsDefinition (rest : List Token) : Prop :=
  ∀ token, rest.head? = some token → ∃ word, token = .name word ∧ word ≠ "implements"

theorem EndsDefinition.notMark {rest : List Token} (ends : EndsDefinition rest) (char : Char) :
    rest.head? ≠ some (.mark char) := by
  intro next
  obtain ⟨word, impossible, -⟩ := ends _ next
  cases impossible

theorem EndsDefinition.notImplements {rest : List Token} (ends : EndsDefinition rest) :
    rest.head? ≠ some (.name "implements") := by
  intro next
  obtain ⟨word, same, other⟩ := ends _ next
  exact other (Token.name.inj same).symm

/-- A type definition is read back from its tokens. -/
theorem typeDef_run {kind : TypeKind} {title : String} {fields : List FieldDef}
    (fit : kind.hasFields = false → fields = [])
    (writable : ∀ field ∈ fields, field.IsWritable) {rest : List Token}
    (ends : EndsDefinition rest) :
    (typeDef false kind).run (lexemes ((typeTokens kind title fields).tail ++ rest)) =
      some (.type false kind title fields, lexemes rest) := by
  by_cases empty : fields = []
  · subst empty
    have unmarked := directives_run (ends.notMark '@') nestingLimit true
    cases kind <;>
      simp [typeTokens, typeDef, implements?, block?, eat_run, unmarked, ends.notMark,
        ends.notImplements]
  · have tail : (typeTokens kind title fields).tail ++ rest =
        .name title :: .mark '{' :: fields.flatMap FieldDef.tokens ++ .mark '}' :: rest := by
      simp [typeTokens, empty]
    have output := block?_run (fun _ writable _ => fieldDef_run writable) writable empty rest
    have input := block?_run (fun _ writable _ => inputValue_run writable) writable empty rest
    rw [tail]
    cases kind with
    | object | interface | inputObject =>
        simp only [List.cons_append] at output input ⊢
        simp [typeDef, implements?, directives_run_brace, output, input]
    | scalar | union | enum => exact absurd (fit rfl) empty

theorem rootType_run (root : OperationKind × String) (rest : List Token) :
    rootType.run (lexemes (rootTokens root ++ rest)) = some (some root, lexemes rest) := by
  obtain ⟨kind, title⟩ := root
  have keyword : OperationKind.ofKeyword? kind.keyword = some kind := by cases kind <;> rfl
  simp [rootType, rootTokens, keyword]

/-- A schema definition is read back from its tokens. -/
theorem schemaDef_run {roots : List (OperationKind × String)} (inhabited : roots ≠ [])
    (rest : List Token) :
    (schemaDef false).run (lexemes ((schemaTokens roots).tail ++ rest)) =
      some (.schema false roots, lexemes rest) := by
  have read : (someUntil '}' isName rootType).run
      (lexemes (roots.flatMap rootTokens ++ .mark '}' :: rest)) =
        some (roots.map some, lexemes rest) := by
    refine someUntil_run (fun _ => True) ?_ ?_ trivial ?_ ?_ inhabited
    · intro root _ more _
      exact ⟨by simp [rootTokens], rootType_run root more⟩
    · intro root _ more
      trivial
    · simp [isName]
    · simp [rootTokens]
  simp [schemaTokens, schemaDef, block?, eat_run, directives_run_brace, read]

/-- A definition is read back from its tokens. -/
theorem definition_run {found : Definition} (writable : found.IsWritable) {rest : List Token}
    (ends : EndsDefinition rest) :
    definition.run (lexemes (found.tokens ++ rest)) = some (found, lexemes rest) := by
  match found, writable with
  | .type false kind title fields, ⟨_, fit, fields_writable⟩ =>
      have read : (typeDef false kind).run (lexemes ((typeTokens kind title fields).tail ++ rest)) =
          some (.type false kind title fields, lexemes rest) :=
        typeDef_run fit fields_writable ends
      have shape : Definition.tokens (.type false kind title fields) ++ rest =
          .name kind.keyword :: ((typeTokens kind title fields).tail ++ rest) := rfl
      rw [shape]
      cases kind <;>
        simp [definition, TypeKind.keyword, OperationKind.ofKeyword?, OperationKind.all,
          OperationKind.keyword, systemDef, typeKeyword?, read]
  | .schema false roots, ⟨inhabited, _⟩ =>
      have read := schemaDef_run inhabited rest
      have shape : Definition.tokens (.schema false roots) ++ rest =
          .name "schema" :: ((schemaTokens roots).tail ++ rest) := rfl
      rw [shape]
      simp [definition, OperationKind.ofKeyword?, OperationKind.all, OperationKind.keyword,
        systemDef, read]

theorem head_tokens {found : Definition} (writable : found.IsWritable) :
    ∃ word rest, found.tokens = .name word :: rest ∧ word ≠ "implements" := by
  match found, writable with
  | .type false kind title fields, _ =>
      exact ⟨kind.keyword, _, rfl, by cases kind <;> decide⟩
  | .schema false roots, _ => exact ⟨"schema", _, rfl, by decide⟩

/-- A document is read back from the tokens of its definitions. -/
theorem document_run {found : Document} (writable : ∀ one ∈ found, one.IsWritable)
    (inhabited : found ≠ []) :
    document.run (lexemes (found.flatMap Definition.tokens)) = some (found, []) := by
  have read : (many (return !(← get).isEmpty) definition).run
      (lexemes (found.flatMap Definition.tokens ++ [])) = some (found.map id, lexemes []) := by
    refine many_run EndsDefinition ?_ ?_ nofun rfl ?_
    · intro one member more ends
      obtain ⟨word, rest, shape, -⟩ := head_tokens (writable one member)
      refine ⟨?_, definition_run (writable one member) ends⟩
      rw [shape]
      rfl
    · intro one member more token next
      obtain ⟨word, rest, shape, other⟩ := head_tokens (writable one member)
      rw [shape] at next
      obtain rfl : .name word = token := by simpa using next
      exact ⟨word, rfl, other⟩
    · intro one member empty
      obtain ⟨word, rest, shape, -⟩ := head_tokens (writable one member)
      rw [shape] at empty
      cases empty
  rw [List.append_nil, List.map_id] at read
  unfold document
  rw [StateT.run_bind, read]
  simp [inhabited, lexemes]

end Parser

theorem FieldDef.tokens_writable {field : FieldDef} (writable : field.IsWritable) :
    ∀ token ∈ field.tokens, token.IsWritable := by
  have colon : ':' ∈ Token.marks := by decide
  exact List.forall_mem_cons.2 ⟨writable.name,
    List.forall_mem_cons.2 ⟨colon, TypeExpr.tokens_writable writable.type⟩⟩

/-- Pieces between braces. -/
theorem block_writable {α : Type} {tokensOf : α → List Token} {items : List α}
    (each : ∀ one ∈ items, ∀ token ∈ tokensOf one, token.IsWritable) :
    ∀ token ∈ .mark '{' :: items.flatMap tokensOf ++ [.mark '}'], token.IsWritable := by
  have braces : '{' ∈ Token.marks ∧ '}' ∈ Token.marks := by decide
  intro token member
  rcases List.mem_append.1 member with member | member
  · rcases List.mem_cons.1 member with rfl | member
    · exact braces.1
    · obtain ⟨one, among, member⟩ := List.mem_flatMap.1 member
      exact each one among token member
  · obtain rfl := List.mem_singleton.1 member
    exact braces.2

theorem Definition.tokens_writable {definition : Definition} (writable : definition.IsWritable) :
    ∀ token ∈ definition.tokens, token.IsWritable := by
  match definition, writable with
  | .type false kind title fields, ⟨name, _, fields_writable⟩ =>
      have keyword : IsName kind.keyword := by cases kind <;> decide
      refine List.forall_mem_cons.2 ⟨keyword, List.forall_mem_cons.2 ⟨name, ?_⟩⟩
      split
      · simp
      · exact block_writable fun field member =>
          FieldDef.tokens_writable (fields_writable field member)
  | .schema false roots, ⟨_, names⟩ =>
      have word : IsName "schema" := by decide
      refine List.forall_mem_cons.2 ⟨word, block_writable fun root member => ?_⟩
      have keyword : IsName root.1.keyword := by cases root.1 <;> decide
      have colon : ':' ∈ Token.marks := by decide
      simp only [rootTokens, List.forall_mem_cons, List.not_mem_nil, false_imp_iff, implies_true,
        and_true]
      exact ⟨keyword, colon, names root member⟩

def Document.write (document : Document) : List Char :=
  Token.write (document.flatMap Definition.tokens)

/-- Definitions that can be written are read back as they were. -/
theorem Document.parse?_write {document : Document} (writable : ∀ one ∈ document, one.IsWritable)
    (inhabited : document ≠ []) : parse? document.write = some document := by
  have tokens : ∀ token ∈ document.flatMap Definition.tokens, token.IsWritable := by
    intro token member
    obtain ⟨one, among, member⟩ := List.mem_flatMap.1 member
    exact Definition.tokens_writable (writable one among) token member
  unfold parse? write
  simp [Token.tokens_write tokens, Parser.document_run writable inhabited]

end FieldUsage.GraphQL
