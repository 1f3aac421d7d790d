import FieldUsage.Proofs.GraphQL.Name
import FieldUsage.Proofs.Path
import FieldUsage.Proofs.Traversal
import FieldUsage.Usage

/-!
Reading printed usages back. What stands behind a path is a number, in one format followed by a name
of the grammar or by what stands for none, and in none of these is there a mark that separates the
parts. So the last mark on a line is the one that was printed, whatever the path contains, and as a
path that stands on one line does not end it, the lines are those of the usages.
-/

namespace FieldUsage

open GraphQL (IsName)

namespace Text

/-- The text before the last occurrence of a mark and the text behind it, if the mark occurs. -/
def splitAtLastMark (mark : List Char) : List Char → Option (List Char × List Char)
  | [] => none
  | c :: rest =>
      match splitAtLastMark mark rest with
      | some (before, after) => some (c :: before, after)
      | none =>
          if startsWith mark (c :: rest) then some ([], (c :: rest).drop mark.length) else none

def number? (digits : List Char) : Option Nat :=
  if !digits.isEmpty && digits.all Char.isDigit then some (Nat.ofDigitChars 10 digits 0) else none

/-- Reads a text line by line. Each line, the last one included, is ended by a line feed. -/
def readLines? {α : Type} (read : List Char → Option α) (text : String) : Option (List α) :=
  let pieces := splitAtEvery '\n' text.toList
  if pieces.getLast? = some [] then pieces.dropLast.mapM read else none

variable {mark text before after : List Char}

/-- A text is not cut only if the mark is nowhere in it. -/
theorem splitAtLastMark_eq_none_iff (given : mark ≠ []) :
    splitAtLastMark mark text = none ↔ ¬mark <:+: text := by
  induction text with
  | nil => simp [splitAtLastMark, given]
  | cons c rest ih =>
      rw [splitAtLastMark, List.infix_cons_iff, ← startsWith_iff]
      cases later : splitAtLastMark mark rest with
      | none => simp [ih.1 later]
      | some found =>
          have inside : mark <:+: rest := by
            by_contra absent
            rw [ih.2 absent] at later
            cases later
          simp [inside]

theorem splitAtLastMark_append (given : mark ≠ []) (last : ¬mark <:+: (mark ++ after).tail)
    (before : List Char) : splitAtLastMark mark (before ++ (mark ++ after)) = some (before, after) := by
  induction before with
  | nil =>
      obtain ⟨first, more, rfl⟩ := List.exists_cons_of_ne_nil given
      have here : startsWith (first :: more) (first :: (more ++ after)) = true :=
        (startsWith_iff _ _).2 (List.prefix_append (first :: more) after)
      have none := (splitAtLastMark_eq_none_iff given).2 last
      rw [List.cons_append, List.tail_cons] at none
      rw [List.nil_append, List.cons_append, splitAtLastMark, none]
      simp [here]
  | cons c rest ih => rw [List.cons_append, splitAtLastMark, ih]

/-- A text is cut at an occurrence behind whose beginning there is no further one. -/
theorem splitAtLastMark_eq_some_iff (given : mark ≠ []) :
    splitAtLastMark mark text = some (before, after) ↔
      text = before ++ (mark ++ after) ∧ ¬mark <:+: (mark ++ after).tail := by
  constructor
  · intro found
    induction text generalizing before with
    | nil => cases found
    | cons c rest ih =>
        rw [splitAtLastMark] at found
        split at found
        case h_1 earlier later inside =>
          cases found
          obtain ⟨shape, last⟩ := ih inside
          exact ⟨congrArg (c :: ·) shape, last⟩
        case h_2 absent =>
          rw [splitAtLastMark_eq_none_iff given] at absent
          split at found
          case isTrue starts =>
            cases found
            obtain ⟨behind, shape⟩ := (startsWith_iff _ _).1 starts
            have cut : (c :: rest).drop mark.length = behind := by
              rw [← shape, List.drop_left]
            rw [cut, shape]
            exact ⟨rfl, absent⟩
          case isFalse => cases found
  · rintro ⟨rfl, last⟩
    exact splitAtLastMark_append given last before

/-- A mark does not begin again where its first character is missing. -/
theorem splitAtLastMark_of_notMem {first : Char} {more behind : List Char} (absent : first ∉ behind)
    (shape : behind = more ++ after) (before : List Char) :
    splitAtLastMark (first :: more) (before ++ first :: behind) = some (before, after) := by
  subst shape
  apply (splitAtLastMark_eq_some_iff (List.cons_ne_nil first more)).2
  refine ⟨rfl, fun again => ?_⟩
  exact absent (again.subset List.mem_cons_self)

/-- Lines are read one by one. -/
theorem readLines?_flatMap {α β : Type} {read : List Char → Option β} {text : String}
    {items : List α} {line : α → List Char} {value : α → β}
    (lines : text.toList = items.flatMap fun item => line item ++ ['\n'])
    (single : ∀ item ∈ items, '\n' ∉ line item)
    (back : ∀ item ∈ items, read (line item) = some (value item)) :
    readLines? read text = some (items.map value) := by
  have pieces : splitAtEvery '\n' text.toList = items.map line ++ [[]] := by
    rw [lines]
    clear lines back
    induction items with
    | nil => rfl
    | cons item rest ih =>
        obtain ⟨here, others⟩ := List.forall_mem_cons.1 single
        rw [List.flatMap_cons, List.append_assoc, List.singleton_append, splitAtEvery_append,
          splitAtEvery_of_notMem here, ih others]
        rfl
  unfold readLines?
  dsimp only
  rw [pieces, List.getLast?_concat, if_pos rfl, List.dropLast_concat, mapM_eq_some_iff,
    List.map_map, List.map_map, List.map_inj_left]
  exact back

/-- Numbers are written in digits only. -/
theorem notMem_toDigits {c : Char} (other : c.isDigit = false) (n : Nat) :
    c ∉ Nat.toDigits 10 n := by
  intro member
  rw [Nat.isDigit_of_mem_toDigits (by decide) (by decide) member] at other
  cases other

/-- Numbers are read back from their digits. -/
theorem number?_toDigits (n : Nat) : number? (Nat.toDigits 10 n) = some n := by
  have given : (Nat.toDigits 10 n).isEmpty = false :=
    List.isEmpty_eq_false_iff.2 Nat.toDigits_ne_nil
  have digits : (Nat.toDigits 10 n).all Char.isDigit = true :=
    List.all_eq_true.2 fun c member => Nat.isDigit_of_mem_toDigits (by decide) (by decide) member
  simp [number?, given, digits]

end Text

namespace Usage

/-- A usage that can be told from its printed form: its path stands on one line, and its operation
has a name of the grammar, if it has one. -/
structure Readable (usage : Usage) : Prop where
  path : '\n' ∉ usage.path.toList
  operation : ∀ name, usage.operation = some name → IsName name

/-- Reads a usage from a line: the name is behind the last blank, the number behind the last colon
before it. -/
def ofLine? (line : List Char) : Option Usage := do
  let (place, name) ← Text.splitAtLastMark [' '] line
  let (path, digits) ← Text.splitAtLastMark [':'] place
  let operation := String.ofList name
  return {
    path := String.ofList path
    line := ← Text.number? digits
    operation := if operation = anonymous then none else some operation }

/-- Reads a path and the number of a line from a link: the number is behind the last `#L`. -/
def ofAnchor? (anchor : List Char) : Option (Path × Nat) := do
  let (path, digits) ← Text.splitAtLastMark ['#', 'L'] anchor
  return (String.ofList path, ← Text.number? digits)

theorem toList_display_line (usage : Usage) :
    (usage.display .line).toList =
      (usage.path.toList ++ ':' :: Nat.toDigits 10 usage.line) ++
        ' ' :: (usage.operation.getD anonymous).toList := by
  simp [display]

theorem toList_display_anchor (usage : Usage) :
    (usage.display .anchor).toList =
      usage.path.toList ++ '#' :: 'L' :: Nat.toDigits 10 usage.line := by
  simp [display]

/-- What is printed are lines, each of which is ended by a line feed. -/
theorem toList_render (usages : List Usage) (format : OutputFormat) :
    (render usages format).toList =
      usages.flatMap fun usage => (usage.display format).toList ++ ['\n'] := by
  simp [render, String.toList_join, List.flatMap_map]

namespace Readable

variable {usage : Usage} (readable : usage.Readable)
include readable

/-- Neither a name nor what stands for none contains a mark. -/
theorem notMem_operation {c : Char} (other : GraphQL.Token.continuesName c = false)
    (absent : c ∉ anonymous.toList) : c ∉ (usage.operation.getD anonymous).toList := by
  cases named : usage.operation with
  | none => exact absent
  | some name => exact (readable.operation name named).notMem other

theorem notMem_display (format : OutputFormat) : '\n' ∉ (usage.display format).toList := by
  have digits := Text.notMem_toDigits (c := '\n') rfl usage.line
  cases format with
  | line =>
      have name := readable.notMem_operation (c := '\n') rfl (by decide)
      simp [toList_display_line, readable.path, digits, name]
  | anchor => simp [toList_display_anchor, readable.path, digits]

/-- A usage is read back from its line. No mark is in the name or in the digits, so the last ones on
the line are those that were printed. -/
theorem ofLine?_display : ofLine? (usage.display .line).toList = some usage := by
  have name := readable.notMem_operation (c := ' ') rfl (by decide)
  have digits := Text.notMem_toDigits (c := ':') rfl usage.line
  have operation : (if usage.operation.getD anonymous = anonymous then none
      else some (usage.operation.getD anonymous)) = usage.operation := by
    cases named : usage.operation with
    | none => rfl
    | some name =>
        have other : name ≠ anonymous := by
          rintro rfl
          exact absurd (readable.operation _ named) (by decide)
        simp [other]
  rw [toList_display_line, ofLine?, Text.splitAtLastMark_of_notMem name (List.nil_append _).symm]
  dsimp only [Option.bind_eq_bind, Option.bind_some]
  rw [Text.splitAtLastMark_of_notMem digits (List.nil_append _).symm]
  simp [Text.number?_toDigits, operation]

end Readable

/-- A path and the number of a line are read back from a link. -/
theorem ofAnchor?_display (usage : Usage) :
    ofAnchor? (usage.display .anchor).toList = some (usage.path, usage.line) := by
  have digits : '#' ∉ 'L' :: Nat.toDigits 10 usage.line :=
    List.not_mem_cons_of_ne_of_not_mem (by decide) (Text.notMem_toDigits rfl usage.line)
  rw [toList_display_anchor, ofAnchor?,
    Text.splitAtLastMark_of_notMem digits List.singleton_append.symm]
  simp [Text.number?_toDigits]

/-- Every usage ends one line. -/
theorem count_render {usages : List Usage} (readable : ∀ usage ∈ usages, usage.Readable)
    (format : OutputFormat) : (render usages format).toList.count '\n' = usages.length := by
  rw [toList_render]
  induction usages with
  | nil => rfl
  | cons usage rest ih =>
      obtain ⟨here, others⟩ := List.forall_mem_cons.1 readable
      have single := List.count_eq_zero.2 (here.notMem_display format)
      simp [single, ih others]

/-- All usages are read back from what is printed of them line by line. -/
theorem readLines?_render_line {usages : List Usage}
    (readable : ∀ usage ∈ usages, usage.Readable) :
    Text.readLines? ofLine? (render usages .line) = some usages := by
  have read : Text.readLines? ofLine? (render usages .line) = some (usages.map id) :=
    Text.readLines?_flatMap (toList_render usages .line)
      (fun usage member => (readable usage member).notMem_display .line)
      (fun usage member => (readable usage member).ofLine?_display)
  rwa [List.map_id] at read

/-- What is printed can be read back: usages from lines, and paths with line numbers from links,
whatever blanks, colons and marks of links the paths contain. So usages are printed alike as lines
only if they are the same; and there are as many line feeds as usages. -/
theorem render_decodes {usages : List Usage} (readable : ∀ usage ∈ usages, usage.Readable) :
    Text.readLines? ofLine? (render usages .line) = some usages ∧
    Text.readLines? ofAnchor? (render usages .anchor) =
      some (usages.map fun usage => (usage.path, usage.line)) ∧
    (∀ others : List Usage, (∀ usage ∈ others, usage.Readable) →
      render others .line = render usages .line → others = usages) ∧
    ∀ format, (render usages format).toList.count '\n' = usages.length := by
  refine ⟨readLines?_render_line readable, ?_, ?_, count_render readable⟩
  · exact Text.readLines?_flatMap (toList_render usages .anchor)
      (fun usage member => (readable usage member).notMem_display .anchor)
      (fun usage _ => ofAnchor?_display usage)
  · intro others readable' same
    have read := readLines?_render_line readable'
    rw [same, readLines?_render_line readable] at read
    exact (Option.some.inj read).symm

/-- A path that looks like a printed usage itself, and an empty one. -/
def awkwardUsages : List Usage :=
  [{ path := "a b:1 c#L2", line := 10, operation := some "Q" },
    { path := "", line := 3, operation := none }]

theorem render_decodes_awkwardUsages :
    (∀ usage ∈ awkwardUsages, usage.Readable) ∧
    render awkwardUsages .line = "a b:1 c#L2:10 Q\n:3 <anonymous>\n" ∧
    Text.readLines? ofLine? "a b:1 c#L2:10 Q\n:3 <anonymous>\n" = some awkwardUsages ∧
    render awkwardUsages .anchor = "a b:1 c#L2#L10\n#L3\n" ∧
    Text.readLines? ofAnchor? "a b:1 c#L2#L10\n#L3\n" = some [("a b:1 c#L2", 10), ("", 3)] := by
  have readable : ∀ usage ∈ awkwardUsages, usage.Readable := by
    intro usage member
    simp only [awkwardUsages, List.mem_cons, List.not_mem_nil, or_false] at member
    rcases member with rfl | rfl
    · exact ⟨by decide, by rintro name ⟨⟩; decide⟩
    · exact ⟨by decide, nofun⟩
  have line : render awkwardUsages .line = "a b:1 c#L2:10 Q\n:3 <anonymous>\n" := by
    decide +kernel
  have anchor : render awkwardUsages .anchor = "a b:1 c#L2#L10\n#L3\n" := by decide +kernel
  obtain ⟨fromLines, fromAnchors, -⟩ := render_decodes readable
  exact ⟨readable, line, line ▸ fromLines, anchor, anchor ▸ fromAnchors⟩

end Usage

end FieldUsage
