import FieldUsage.Json.Parser

/-!
Writing values in JSON notation and reading them again. A value without numbers, in whose strings no
character has to be escaped, is written without blanks. It is read back as it was if it is not
nested deeper than the reader allows, and else it is refused.
-/

namespace FieldUsage.Json

/-- A string between quotes, as it stands. -/
def quote (text : String) : List Char :=
  '"' :: text.toList ++ ['"']

mutual

def write : Json → List Char
  | .null => ['n', 'u', 'l', 'l']
  | .boolean true => ['t', 'r', 'u', 'e']
  | .boolean false => ['f', 'a', 'l', 's', 'e']
  | .number value => value.text.toList
  | .string text => quote text
  | .array [] => ['[', ']']
  | .array (first :: rest) => '[' :: first.write ++ writeItems rest
  | .object [] => ['{', '}']
  | .object ((key, value) :: rest) =>
      '{' :: quote key ++ ':' :: value.write ++ writeMembers rest

/-- The items after the first one, and the end of their array. -/
def writeItems : List Json → List Char
  | [] => [']']
  | item :: rest => ',' :: item.write ++ writeItems rest

/-- The members after the first one, and the end of their object. -/
def writeMembers : List (String × Json) → List Char
  | [] => ['}']
  | (key, value) :: rest => ',' :: quote key ++ ':' :: value.write ++ writeMembers rest

end

def writeMember (member : String × Json) : List Char :=
  quote member.1 ++ ':' :: member.2.write

section Lists

variable {α : Type} (writeOne : α → List Char) (close : Char)

/-- The items of a list after the first one, and the mark that closes it. -/
def writeMore : List α → List Char
  | [] => [close]
  | one :: rest => ',' :: (writeOne one ++ writeMore rest)

/-- The items of a list, and the mark that closes it. -/
def writeAll : List α → List Char
  | [] => [close]
  | first :: rest => writeOne first ++ writeMore writeOne close rest

theorem length_lt_writeMore (items : List α) :
    items.length < (writeMore writeOne close items).length := by
  induction items with
  | nil => simp [writeMore]
  | cons first rest ih =>
      simp only [writeMore, List.length_cons, List.length_append]
      omega

theorem length_one_lt_writeMore {items : List α} {one : α} (member : one ∈ items) :
    (writeOne one).length + items.length < (writeMore writeOne close items).length := by
  induction items with
  | nil => cases member
  | cons first rest ih =>
      have others := length_lt_writeMore writeOne close rest
      simp only [writeMore, List.length_cons, List.length_append]
      rcases List.mem_cons.1 member with rfl | member
      · omega
      · have := ih member
        omega

/-- A text of items has room for their number, and for each of them besides. -/
theorem length_le_writeAll (items : List α) :
    items.length ≤ (writeAll writeOne close items).length := by
  cases items with
  | nil => exact Nat.zero_le _
  | cons first rest =>
      have := length_lt_writeMore writeOne close rest
      simp only [writeAll, List.length_cons, List.length_append]
      omega

theorem length_one_le_writeAll {items : List α} {one : α} (member : one ∈ items) :
    (writeOne one).length + items.length ≤ (writeAll writeOne close items).length := by
  cases items with
  | nil => cases member
  | cons first rest =>
      simp only [writeAll, List.length_cons, List.length_append]
      rcases List.mem_cons.1 member with rfl | member
      · have := length_lt_writeMore writeOne close rest
        omega
      · have := length_one_lt_writeMore writeOne close member
        omega

end Lists

theorem writeItems_eq (items : List Json) : writeItems items = writeMore write ']' items := by
  induction items with
  | nil => rw [writeItems, writeMore]
  | cons item rest ih => rw [writeItems, writeMore, ih, List.cons_append]

theorem writeMembers_eq (members : List (String × Json)) :
    writeMembers members = writeMore writeMember '}' members := by
  induction members with
  | nil => rw [writeMembers, writeMore]
  | cons member rest ih =>
      rw [writeMembers, writeMore, ih]
      simp [writeMember]

theorem write_array (items : List Json) :
    write (.array items) = '[' :: writeAll write ']' items := by
  cases items with
  | nil => rw [write, writeAll]
  | cons first rest => rw [write, writeAll, writeItems_eq, List.cons_append]

theorem write_object (members : List (String × Json)) :
    write (.object members) = '{' :: writeAll writeMember '}' members := by
  cases members with
  | nil => rw [write, writeAll]
  | cons first rest =>
      rw [write, writeAll, writeMembers_eq]
      simp [writeMember]

/-- A character that stands for itself between quotes. -/
def isPlain (c : Char) : Bool :=
  c != '"' && c != '\\' && decide (0x20 ≤ c.toNat)

/-- A text that is written between quotes as it stands. -/
def PlainText (text : String) : Prop := text.toList.all isPlain = true

instance (text : String) : Decidable (PlainText text) :=
  inferInstanceAs (Decidable (_ = true))

/-- All characters are plain but quotes, backslashes and controls. -/
theorem isPlain_iff {c : Char} : isPlain c = true ↔ c ≠ '"' ∧ c ≠ '\\' ∧ 0x20 ≤ c.toNat := by
  simp [isPlain, and_assoc]

mutual

/-- A value without numbers and escapes. -/
def Plain : Json → Prop
  | .null | .boolean _ => True
  | .number _ => False
  | .string text => PlainText text
  | .array items => PlainItems items
  | .object members => PlainMembers members

def PlainItems : List Json → Prop
  | [] => True
  | item :: rest => item.Plain ∧ PlainItems rest

def PlainMembers : List (String × Json) → Prop
  | [] => True
  | (key, value) :: rest => PlainText key ∧ value.Plain ∧ PlainMembers rest

end

theorem plainItems_of_forall {items : List Json} (each : ∀ item ∈ items, item.Plain) :
    PlainItems items := by
  induction items with
  | nil => rw [PlainItems]; trivial
  | cons first rest ih =>
      rw [PlainItems]
      obtain ⟨here, there⟩ := List.forall_mem_cons.1 each
      exact ⟨here, ih there⟩

namespace Parser

variable {α : Type}

@[simp] theorem peek_run (text : List Char) : peek.run text = some (text.head?, text) := rfl

@[simp] theorem next_run (c : Char) (rest : List Char) :
    next.run (c :: rest) = some (c, rest) := rfl

@[simp] theorem spaces_run (text : List Char) :
    spaces.run text = some ((), text.dropWhile isSpace) := rfl

theorem eat_run (char : Char) (text : List Char) :
    (eat char).run text =
      if text.head? = some char then some (true, text.tail) else some (false, text) := by
  cases text with
  | nil => simp [eat]
  | cons c rest => by_cases h : c = char <;> simp [eat, h]

theorem forM_eat_run (word rest : List Char) :
    (word.forM fun char => do unless ← eat char do failure : Reader Unit).run (word ++ rest) =
      some ((), rest) := by
  induction word with
  | nil => rfl
  | cons c more ih => simpa [eat_run] using ih

theorem expect_run (text : String) (rest : List Char) :
    (expect text).run (text.toList ++ rest) = some ((), rest) :=
  forM_eat_run text.toList rest

theorem stringRest_run {chars : List Char}
    (plain : chars.all isPlain = true) {bound : Nat}
    (enough : chars.length < bound) (rest : List Char) :
    (stringRest bound).run (chars ++ '"' :: rest) = some (chars, rest) := by
  induction chars generalizing bound with
  | nil =>
      obtain ⟨left, rfl⟩ : ∃ left, bound = left + 1 := ⟨bound - 1, by simp at enough; omega⟩
      simp [stringRest, eat_run]
  | cons c more ih =>
      obtain ⟨left, rfl⟩ : ∃ left, bound = left + 1 := ⟨bound - 1, by simp at enough; omega⟩
      rw [List.all_cons, Bool.and_eq_true] at plain
      obtain ⟨quote, escape, printable⟩ := isPlain_iff.1 plain.1
      have read : character.run (c :: (more ++ '"' :: rest)) = some (c, more ++ '"' :: rest) := by
        unfold character
        rw [StateT.run_bind, next_run]
        simp only [Option.bind_eq_bind, Option.bind_some]
        rw [if_neg (by omega)]
        rfl
      have remaining : (stringRest left).run _ = _ := ih plain.2 (by simpa using enough)
      simp [stringRest, eat_run, quote, read, remaining]

/-- A plain text is read back from between its quotes. -/
theorem string_run {text : String} (plain : PlainText text) {bound : Nat}
    (enough : (quote text).length ≤ bound) (rest : List Char) :
    (string bound).run (quote text ++ rest) = some (text, rest) := by
  have opened : (expect "\"").run ('"' :: (text.toList ++ '"' :: rest)) =
      some ((), text.toList ++ '"' :: rest) := expect_run "\"" _
  have short : text.toList.length < bound := by
    simp only [quote, List.cons_append, List.length_cons, List.length_append] at enough
    omega
  have read := stringRest_run plain short rest
  simp [string, quote, opened, read]

/-! Items with commas between them. -/

/-- A text begins with a character that is no blank and that is not the closing mark. -/
def Opens (close : Char) (text : List Char) : Prop :=
  ∃ c rest, text = c :: rest ∧ isSpace c = false ∧ c ≠ close

theorem Opens.dropWhile_append {close : Char} {text : List Char} (opens : Opens close text)
    (more : List Char) : (text ++ more).dropWhile isSpace = text ++ more := by
  obtain ⟨c, rest, rfl, solid, -⟩ := opens
  rw [List.cons_append, List.dropWhile_cons_of_neg (by simp [solid])]

section Separated

variable {item : Reader α} {writeOne : α → List Char} {fits : α → Prop} [DecidablePred fits]
  {close : Char}

/-- Items are read up to the first one that is refused, and then all of them are refused. -/
theorem separated_run {first : α} {others : List α}
    (each : ∀ one ∈ first :: others, Opens close (writeOne one) ∧
      ∀ more, item.run (writeOne one ++ more) = if fits one then some (one, more) else none)
    (mark : isSpace close = false) (comma : close ≠ ',') {bound : Nat}
    (enough : others.length < bound) (rest : List Char) :
    (separated item close bound).run (writeOne first ++ (writeMore writeOne close others ++ rest)) =
      if ∀ one ∈ first :: others, fits one then some (first :: others, rest) else none := by
  induction others generalizing first bound with
  | nil =>
      obtain ⟨left, rfl⟩ : ∃ left, bound = left + 1 := ⟨bound - 1, by simp at enough; omega⟩
      obtain ⟨opens, read⟩ := each first List.mem_cons_self
      have behind : (close :: rest).dropWhile isSpace = close :: rest :=
        List.dropWhile_cons_of_neg (by simp [mark])
      by_cases fit : fits first
      · simp [separated, writeMore, opens.dropWhile_append, read, fit, behind, eat_run, comma]
      · simp [separated, writeMore, opens.dropWhile_append, read, fit]
  | cons second more ih =>
      obtain ⟨left, rfl⟩ : ∃ left, bound = left + 1 := ⟨bound - 1, by simp at enough; omega⟩
      obtain ⟨opens, read⟩ := each first List.mem_cons_self
      have remaining : (separated item close left).run _ = _ :=
        ih (fun one member => each one (List.mem_cons_of_mem _ member)) (by simpa using enough)
      -- behind the first item there is a comma, and then the text of the others
      have behind (text : List Char) : (',' :: text).dropWhile isSpace = ',' :: text :=
        List.dropWhile_cons_of_neg (by decide)
      by_cases fit : fits first
      · by_cases others : ∀ one ∈ second :: more, fits one
        · rw [if_pos others] at remaining
          rw [if_pos (List.forall_mem_cons.2 ⟨fit, others⟩)]
          simp [separated, writeMore, opens.dropWhile_append, read, fit, behind, eat_run, remaining]
        · rw [if_neg others] at remaining
          rw [if_neg fun all => others (List.forall_mem_cons.1 all).2]
          simp [separated, writeMore, opens.dropWhile_append, read, fit, behind, eat_run, remaining]
      · simp [separated, writeMore, opens.dropWhile_append, read, fit]

/-- Items are read back from between their marks, if each of them is. -/
theorem enclosed_run {items : List α}
    (each : ∀ one ∈ items, Opens close (writeOne one) ∧
      ∀ more, item.run (writeOne one ++ more) = if fits one then some (one, more) else none)
    (mark : isSpace close = false) (comma : close ≠ ',') {bound : Nat}
    (enough : items.length ≤ bound) (openMark : Char) (rest : List Char) :
    (enclosed item close bound).run (openMark :: (writeAll writeOne close items ++ rest)) =
      if ∀ one ∈ items, fits one then some (items, rest) else none := by
  cases items with
  | nil =>
      have behind : (close :: rest).dropWhile isSpace = close :: rest :=
        List.dropWhile_cons_of_neg (by simp [mark])
      simp [enclosed, writeAll, behind, eat_run]
  | cons first others =>
      have opens := (each first List.mem_cons_self).1
      have read := separated_run each mark comma enough rest
      have unclosed (more : List Char) : (writeOne first ++ more).head? ≠ some close := by
        obtain ⟨c, rest, shape, -, other⟩ := opens
        simp [shape, other]
      simp only [enclosed, writeAll, List.append_assoc, StateT.run_bind, next_run, spaces_run,
        opens.dropWhile_append, eat_run, if_neg (unclosed _), Option.bind_eq_bind, Option.bind_some,
        Bool.false_eq_true, if_false, read]

end Separated

end Parser

/-! Whole values. -/

theorem opens_write {value : Json} (plain : value.Plain) : Parser.Opens ']' value.write := by
  cases value with
  | null => exact ⟨'n', _, rfl, by decide⟩
  | boolean value => cases value <;> exact ⟨_, _, rfl, by decide⟩
  | number =>
      rw [Plain] at plain
      exact plain.elim
  | string text => exact ⟨'"', text.toList ++ ['"'], by rw [write]; rfl, by decide⟩
  | array items => exact ⟨'[', _, write_array items, by decide⟩
  | object members => exact ⟨'{', _, write_object members, by decide⟩

theorem itemsDepth_le_iff {items : List Json} {depth : Nat} :
    itemsDepth items ≤ depth ↔ ∀ item ∈ items, item.depth ≤ depth := by
  induction items with
  | nil => simp [itemsDepth]
  | cons first rest ih => rw [itemsDepth, Nat.max_le, List.forall_mem_cons, ih]

theorem membersDepth_le_iff {members : List (String × Json)} {depth : Nat} :
    membersDepth members ≤ depth ↔ ∀ one ∈ members, one.2.depth ≤ depth := by
  induction members with
  | nil => simp [membersDepth]
  | cons first rest ih => rw [membersDepth, Nat.max_le, List.forall_mem_cons, ih]

theorem depth_lt_of_item {items : List Json} {item : Json} (member : item ∈ items) :
    item.depth < (Json.array items).depth := by
  rw [Json.depth]
  exact Nat.lt_succ_of_le (itemsDepth_le_iff.1 (Nat.le_refl _) item member)

theorem depth_lt_of_member {members : List (String × Json)} (key : String) {value : Json}
    (member : (key, value) ∈ members) : value.depth < (Json.object members).depth := by
  rw [Json.depth]
  exact Nat.lt_succ_of_le (membersDepth_le_iff.1 (Nat.le_refl _) _ member)

/-- A value is read back from what is written of it, unless it is nested too deep. -/
def Reads (value : Json) : Prop :=
  ∀ {depth bound : Nat}, value.write.length ≤ bound → ∀ rest,
    (Parser.value depth bound).run (value.write ++ rest) =
      if value.depth ≤ depth then some (value, rest) else none

/-- A value that is no array and no object is read in the same way at every depth. -/
theorem reads_of_word {value : Json} (flat : value.depth = 0)
    (atEvery : ∀ (inner : Parser.Reader Json) (bound : Nat) (rest : List Char),
      value.write.length ≤ bound →
        (Parser.valueWith inner bound).run (value.write ++ rest) = some (value, rest))
    (opens : ∃ c more, value.write = c :: more ∧ c ≠ '[' ∧ c ≠ '{') : value.Reads := by
  intro depth bound enough rest
  rw [flat, if_pos (Nat.zero_le _)]
  cases depth with
  | zero =>
      obtain ⟨c, more, shape, array, object⟩ := opens
      have read := atEvery failure bound rest enough
      rw [shape, List.cons_append] at read ⊢
      simp [Parser.value, array, object, read]
  | succ depth => exact atEvery _ bound rest enough

theorem reads_string {text : String} (plain : PlainText text) : (Json.string text).Reads := by
  refine reads_of_word (by simp [Json.depth]) (fun inner bound rest enough => ?_)
    ⟨'"', _, by rw [write, quote]; rfl, by decide⟩
  rw [write] at enough ⊢
  have read := Parser.string_run plain enough rest
  have opens : (quote text ++ rest).head? = some '"' := rfl
  simp [Parser.valueWith, opens, read]

theorem reads_null : Json.null.Reads := by
  refine reads_of_word (by simp [Json.depth]) (fun inner bound rest _ => ?_)
    ⟨'n', _, by rw [write], by decide⟩
  have read := Parser.expect_run "null" rest
  simp_all [Parser.valueWith, write]

theorem reads_boolean (value : Bool) : (Json.boolean value).Reads := by
  cases value with
  | false =>
      refine reads_of_word (by simp [Json.depth]) (fun inner bound rest _ => ?_)
        ⟨'f', _, by rw [write], by decide⟩
      have read := Parser.expect_run "false" rest
      simp_all [Parser.valueWith, write]
  | true =>
      refine reads_of_word (by simp [Json.depth]) (fun inner bound rest _ => ?_)
        ⟨'t', _, by rw [write], by decide⟩
      have read := Parser.expect_run "true" rest
      simp_all [Parser.valueWith, write]

/-- An array is read back if its items are. -/
theorem reads_array {items : List Json} (each : ∀ item ∈ items, item.Plain ∧ item.Reads) :
    (Json.array items).Reads := by
  intro depth bound enough rest
  rw [write_array] at enough ⊢
  rw [Json.depth]
  cases depth with
  | zero =>
      rw [if_neg (by omega)]
      rfl
  | succ left =>
      simp only [Nat.add_le_add_iff_right, itemsDepth_le_iff]
      rw [List.length_cons] at enough
      have read : ∀ item ∈ items, Parser.Opens ']' item.write ∧ ∀ more,
          (Parser.value left bound).run (item.write ++ more) =
            if item.depth ≤ left then some (item, more) else none := by
        intro item member
        have short := length_one_le_writeAll write ']' member
        exact ⟨opens_write (each item member).1, (each item member).2 (by omega)⟩
      have few := length_le_writeAll write ']' items
      have found := Parser.enclosed_run read (by decide) (by decide)
        (show items.length ≤ bound by omega) '[' rest
      by_cases all : ∀ item ∈ items, item.depth ≤ left
      · rw [if_pos all] at found ⊢
        simp [Parser.value, Parser.valueWith, found]
      · rw [if_neg all] at found ⊢
        simp [Parser.value, Parser.valueWith, found]

theorem member_run {one : String × Json} (key : PlainText one.1) (plain : one.2.Plain)
    (reads : one.2.Reads) {depth bound : Nat} (enough : (writeMember one).length ≤ bound)
    (rest : List Char) :
    (Parser.member (Parser.value depth bound) bound).run (writeMember one ++ rest) =
      if one.2.depth ≤ depth then some (one, rest) else none := by
  obtain ⟨name, value⟩ := one
  simp only [writeMember, List.length_append, List.length_cons] at enough
  have readKey := Parser.string_run key (show (quote name).length ≤ bound by omega)
    (':' :: (value.write ++ rest))
  have readColon : (Parser.expect ":").run (':' :: (value.write ++ rest)) =
      some ((), value.write ++ rest) := Parser.expect_run ":" _
  have readValue : (Parser.value depth bound).run (value.write ++ rest) = _ :=
    reads (show value.write.length ≤ bound by omega) rest
  have solid := (opens_write plain).dropWhile_append rest
  have colon : (':' :: (value.write ++ rest)).dropWhile Parser.isSpace =
      ':' :: (value.write ++ rest) := List.dropWhile_cons_of_neg (by decide)
  by_cases shallow : value.depth ≤ depth
  · rw [if_pos shallow] at readValue ⊢
    simp [Parser.member, writeMember, readKey, colon, readColon, solid, readValue]
  · rw [if_neg shallow] at readValue ⊢
    simp [Parser.member, writeMember, readKey, colon, readColon, solid, readValue]

/-- An object is read back if its members are. -/
theorem reads_object {members : List (String × Json)}
    (each : ∀ one ∈ members, PlainText one.1 ∧ one.2.Plain ∧ one.2.Reads) :
    (Json.object members).Reads := by
  intro depth bound enough rest
  rw [write_object] at enough ⊢
  rw [Json.depth]
  cases depth with
  | zero =>
      rw [if_neg (by omega)]
      rfl
  | succ left =>
      simp only [Nat.add_le_add_iff_right, membersDepth_le_iff]
      rw [List.length_cons] at enough
      have read : ∀ one ∈ members, Parser.Opens '}' (writeMember one) ∧ ∀ more,
          (Parser.member (Parser.value left bound) bound).run (writeMember one ++ more) =
            if one.2.depth ≤ left then some (one, more) else none := by
        intro one member
        have short := length_one_le_writeAll writeMember '}' member
        obtain ⟨key, plain, reads⟩ := each one member
        exact ⟨⟨'"', _, rfl, by decide⟩, member_run key plain reads (by omega)⟩
      have few := length_le_writeAll writeMember '}' members
      have found := Parser.enclosed_run read (by decide) (by decide)
        (show members.length ≤ bound by omega) '{' rest
      by_cases all : ∀ one ∈ members, one.2.depth ≤ left
      · rw [if_pos all] at found ⊢
        simp [Parser.value, Parser.valueWith, found]
      · rw [if_neg all] at found ⊢
        simp [Parser.value, Parser.valueWith, found]

-- The cases follow the values, with one statement for the items and one for the members inside.
mutual

/-- Every plain value is read back. The induction is over the value, with its items and members. -/
theorem reads_of_plain : ∀ value : Json, value.Plain → value.Reads
  | .null, _ => reads_null
  | .boolean value, _ => reads_boolean value
  | .number _, plain => by
      rw [Plain] at plain
      exact plain.elim
  | .string _, plain => reads_string (by rwa [Plain] at plain)
  | .array items, plain => reads_array (reads_of_plainItems items (by rwa [Plain] at plain))
  | .object members, plain =>
      reads_object (reads_of_plainMembers members (by rwa [Plain] at plain))

theorem reads_of_plainItems :
    ∀ items : List Json, PlainItems items → ∀ item ∈ items, item.Plain ∧ item.Reads
  | [], _ => by simp
  | first :: rest, plain => by
      rw [PlainItems] at plain
      exact List.forall_mem_cons.2
        ⟨⟨plain.1, reads_of_plain first plain.1⟩, reads_of_plainItems rest plain.2⟩

theorem reads_of_plainMembers :
    ∀ members : List (String × Json), PlainMembers members →
      ∀ one ∈ members, PlainText one.1 ∧ one.2.Plain ∧ one.2.Reads
  | [], _ => by simp
  | (key, value) :: rest, plain => by
      rw [PlainMembers] at plain
      exact List.forall_mem_cons.2 ⟨⟨plain.1, plain.2.1, reads_of_plain value plain.2.1⟩,
        reads_of_plainMembers rest plain.2.2⟩

end

/-- What is written of a value is that value, unless it is nested deeper than the reader allows:
then it is nothing. -/
theorem parse?_write {value : Json} (plain : value.Plain) :
    parse? value.write = if value.depth ≤ Parser.nestingLimit then some value else none := by
  have read : (Parser.value Parser.nestingLimit (value.write.length + 1)).run value.write =
      if value.depth ≤ Parser.nestingLimit then some (value, []) else none := by
    simpa using reads_of_plain value plain (Nat.le_succ _) []
  have solid := (opens_write plain).dropWhile_append []
  rw [List.append_nil] at solid
  by_cases shallow : value.depth ≤ Parser.nestingLimit
  · rw [if_pos shallow] at read ⊢
    simp [parse?, solid, read]
  · rw [if_neg shallow] at read ⊢
    simp [parse?, solid, read]

end FieldUsage.Json
