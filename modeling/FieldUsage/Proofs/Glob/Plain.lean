import FieldUsage.Proofs.File.Contents
import FieldUsage.Proofs.Glob.Expand

/-!
Directories in front of a pattern. The text of a directory is read as part of the pattern that is
joined to it. Where it has no wildcards it stands for itself: reading the pattern fails as it does
behind any other such directory, and looking for paths arrives in the directory and goes on there
with the pattern alone.
-/

namespace FieldUsage.Glob

open FieldUsage.Path (Component)

/-! Reading a pattern behind ordinary characters. -/

/-- A character that stands for itself in a pattern. -/
def isOrdinary (c : Char) : Bool := c != '?' && c != '*' && c != '['

/-- What is wrong with a text, wherever it was found. -/
def fault? {α : Type} : Except PatternError α → Option PatternFault
  | .ok _ => none
  | .error error => some error.fault

theorem fault?_bind_pure {α β : Type} (read : Except PatternError α) (f : α → β) :
    fault? (read >>= fun found => pure (f found)) = fault? read := by
  cases read <;> rfl

theorem fault?_bind {α β : Type} {read read' : Except PatternError α}
    (same : read.mapError (·.fault) = read'.mapError (·.fault))
    {next next' : α → Except PatternError β}
    (onwards : ∀ found, fault? (next found) = fault? (next' found)) :
    fault? (read >>= next) = fault? (read' >>= next') := by
  cases read with
  | error error =>
      cases read' with
      | error error' => exact congrArg some (Except.error.inj same)
      | ok found => cases same
  | ok found =>
      cases read' with
      | error error => cases same
      | ok found' =>
          obtain rfl := Except.ok.inj same
          exact onwards found

theorem parts_ordinary {c : Char} (ordinary : isOrdinary c = true) (place : Nat)
    (before : Option Char) (rest : List Char) :
    parts place before 0 (c :: rest) =
      (do return .char c :: (← parts (place + 1) (some c) 0 rest)) := by
  simp only [isOrdinary, Bool.and_eq_true, bne_iff_ne] at ordinary
  obtain ⟨⟨noMark, noStar⟩, noBracket⟩ := ordinary
  rw [parts] <;> assumption

/-- A text without wildcards is a pattern of its characters. -/
theorem parts_of_ordinary {text : List Char} (ordinary : ∀ c ∈ text, isOrdinary c = true)
    (place : Nat) (before : Option Char) :
    parts place before 0 text = .ok (text.map .char) := by
  induction text generalizing place before with
  | nil => rfl
  | cons c rest ih =>
      obtain ⟨here, others⟩ := List.forall_mem_cons.1 ordinary
      rw [parts_ordinary here, ih others]
      rfl

theorem mapError_stars (place place' count : Nat) (before : Option Char) (after : List Char) :
    (stars place count before after).mapError (·.fault) =
      (stars place' count before after).mapError (·.fault) := by
  unfold stars
  split
  · rfl
  · split
    · rfl
    · split
      · rfl
      · cases after with
        | nil => rfl
        | cons c rest =>
            dsimp only
            split <;> rfl

/-- What is wrong with a text does not depend on the place at which it starts. -/
theorem fault?_parts (place place' : Nat) (before : Option Char) (skip : Nat) (text : List Char) :
    fault? (parts place before skip text) = fault? (parts place' before skip text) := by
  induction text generalizing place place' before skip with
  | nil => rfl
  | cons c rest ih =>
      cases skip with
      | succ skip => exact ih _ _ _ _
      | zero =>
          unfold parts
          dsimp only
          split
          case h_1 => rw [fault?_bind_pure, fault?_bind_pure, ih]
          case h_2 =>
            -- the place decides which stars are dropped, but not whether they are accepted
            apply fault?_bind (mapError_stars _ _ _ _ _)
            intro found
            rw [fault?_bind_pure, fault?_bind_pure, ih]
          case h_3 =>
            split
            case h_1 => rw [fault?_bind_pure, fault?_bind_pure, ih]
            case h_2 => rfl
          case h_4 => rw [fault?_bind_pure, fault?_bind_pure, ih]

/-- A plain text in front of a pattern changes only the place at which a fault is found. -/
theorem fault?_parts_append {text : List Char} (ordinary : ∀ c ∈ text, isOrdinary c = true)
    (place place' : Nat) (before : Option Char) (rest : List Char) :
    fault? (parts place before 0 (text ++ separator :: rest)) =
      fault? (parts place' (some separator) 0 rest) := by
  induction text generalizing place before with
  | nil =>
      rw [List.nil_append, parts_ordinary (by decide), fault?_bind_pure]
      exact fault?_parts _ _ _ _ _
  | cons c more ih =>
      obtain ⟨here, others⟩ := List.forall_mem_cons.1 ordinary
      rw [List.cons_append, parts_ordinary here, fault?_bind_pure]
      exact ih others _ _

/-- A directory in front of a pattern adds its own components. -/
theorem pieces_append (text rest : List Char) :
    pieces (text ++ separator :: rest) =
      (Text.splitAtEvery separator text).map String.ofList ++ pieces rest := by
  have solid : (Text.splitAtEvery separator rest).map String.ofList ≠ [] := by
    simpa using Text.splitAtEvery_ne_nil separator rest
  unfold pieces
  rw [Text.splitAtEvery_append, List.map_append]
  generalize (Text.splitAtEvery separator rest).map String.ofList = behind at solid ⊢
  dsimp only
  rw [List.getLast?_append_of_ne_nil _ solid, List.dropLast_append_of_ne_nil solid]
  split <;> rfl

/-- A pattern without wildcards is the text that it is written as. -/
theorem literal?_eq_some_iff {pattern : Pattern} {name : String} :
    Pattern.literal? pattern = some name ↔ pattern = name.toList.map .char := by
  unfold Pattern.literal?
  simp only [Option.map_eq_some_iff, mapM_eq_some_iff]
  constructor
  · rintro ⟨chars, read, rfl⟩
    rw [String.toList_ofList]
    induction pattern generalizing chars with
    | nil =>
        obtain rfl : chars = [] := by simpa using read
        rfl
    | cons part rest ih =>
        cases chars with
        | nil => cases read
        | cons c more =>
            obtain ⟨own, others⟩ := List.cons.inj read
            dsimp only at own
            split at own
            · cases own
              rw [ih more others, List.map_cons]
            · cases own
  · rintro rfl
    exact ⟨name.toList, by rw [List.map_map]; rfl, String.ofList_toList⟩

/-! Walking to a directory. -/

/-- A name between two separators. -/
def IsPiece (name : String) : Prop := name ≠ "" ∧ '/' ∉ name.toList

section Below

variable {tree : FileTree} {path : Path} {name : String} (solid : path ≠ "") (piece : IsPiece name)
include solid piece

theorem below_ne_empty : below path name ≠ "" := by
  unfold below
  split
  · exact piece.1
  · exact Path.join_ne_empty solid name

theorem leads_below (rest : List Component) :
    tree.leads (below path name) rest = tree.leads path (Path.steps [name.toList] ++ rest) := by
  have relative := Path.isAbsolute_of_notMem piece.2
  have start : name.toList ≠ [] := by simpa using piece.1
  unfold below
  split
  case isFalse =>
    rw [FileTree.leads_join solid relative, Path.stepsOf_piece piece.2]
  case isTrue same =>
    -- below the current directory a name stands alone, without the `.` before it
    have current : Path.components path = [.here] := eq_of_beq same
    have alone : Path.components name = [Path.componentOf name.toList] := by
      have := Path.components_piece start piece.2
      rwa [String.ofList_toList] at this
    unfold FileTree.leads
    rw [current, List.singleton_append, FileTree.follow_here, alone]
    by_cases here : name.toList = ['.']
    · rw [here]
      rw [List.singleton_append]
      exact congrArg _ (FileTree.follow_here _ _ _)
    · rw [Path.steps_piece start here]

theorem isDirectory_of_below (directory : tree.isDirectory (below path name) = true) :
    tree.isDirectory path = true := by
  have onwards : tree.leads (below path name) [] = _ := leads_below solid piece []
  rw [List.append_nil] at onwards
  by_cases here : name.toList = ['.']
  · rw [here] at onwards
    rw [FileTree.isDirectory_eq_leads (below_ne_empty solid piece), onwards] at directory
    rw [FileTree.isDirectory_eq_leads solid]
    exact directory
  · rw [Path.steps_piece (by simpa using piece.1) here] at onwards
    rw [FileTree.isDirectory_eq_leads (below_ne_empty solid piece), onwards] at directory
    split at directory
    case h_1 found => exact FileTree.isDirectory_of_leads solid found
    case h_2 => cases directory

end Below

section Walk

variable {tree : FileTree} {path : Path} {names : List String}

theorem foldl_below_ne_empty (solid : path ≠ "") (pieces : ∀ name ∈ names, IsPiece name) :
    names.foldl below path ≠ "" := by
  induction names generalizing path with
  | nil => exact solid
  | cons name rest ih =>
      obtain ⟨piece, others⟩ := List.forall_mem_cons.1 pieces
      exact ih (below_ne_empty solid piece) others

/-- Going down name by name leads where the joined path does. -/
theorem leads_foldl_below (solid : path ≠ "") (pieces : ∀ name ∈ names, IsPiece name)
    (rest : List Component) :
    tree.leads (names.foldl below path) rest =
      tree.leads path (Path.steps (names.map String.toList) ++ rest) := by
  induction names generalizing path with
  | nil => rfl
  | cons name more ih =>
      obtain ⟨piece, others⟩ := List.forall_mem_cons.1 pieces
      rw [List.foldl_cons, ih (below_ne_empty solid piece) others, leads_below solid piece,
        ← List.append_assoc, ← Path.steps_append]
      rfl

theorem isDirectory_of_foldl_below (solid : path ≠ "") (pieces : ∀ name ∈ names, IsPiece name)
    (directory : tree.isDirectory (names.foldl below path) = true) :
    tree.isDirectory path = true := by
  induction names generalizing path with
  | nil => exact directory
  | cons name more ih =>
      obtain ⟨piece, others⟩ := List.forall_mem_cons.1 pieces
      exact isDirectory_of_below solid piece (ih (below_ne_empty solid piece) others directory)

theorem same_join (solid : path ≠ "") (elsewhere : Path.same path "." = false) {rest : Path}
    (relative : Path.isAbsolute rest = false) : Path.same (path.join rest) "." = false := by
  apply Bool.eq_false_iff.2
  intro same
  have current : Path.components (path.join rest) = [.here] := eq_of_beq same
  have filled := Path.components_ne_nil solid
  rw [Path.components_join solid relative, List.append_eq_singleton_iff] at current
  rcases current with ⟨empty, -⟩ | ⟨here, -⟩
  · exact filled empty
  · have : Path.same path "." = true := beq_iff_eq.2 here
    cases elsewhere.symm.trans this

theorem getLast?_of_isPiece {name : String} (piece : IsPiece name) (before : List Char) :
    (before ++ name.toList).getLast? ≠ some '/' := by
  have solid : name.toList ≠ [] := by simpa using piece.1
  intro last
  rw [List.getLast?_append_of_ne_nil _ solid] at last
  exact piece.2 (List.mem_of_getLast? last)

theorem below_eq_join (elsewhere : Path.same path "." = false) (name : String) :
    below path name = path.join name := by
  unfold below
  rw [elsewhere]
  rfl

theorem toList_foldl_below (solid : path ≠ "") (elsewhere : Path.same path "." = false)
    (last : path.toList.getLast? ≠ some '/') (pieces : ∀ name ∈ names, IsPiece name) :
    (names.foldl below path).toList = path.toList ++ names.flatMap ('/' :: ·.toList) := by
  induction names generalizing path with
  | nil => simp
  | cons name more ih =>
      obtain ⟨piece, others⟩ := List.forall_mem_cons.1 pieces
      have relative := Path.isAbsolute_of_notMem piece.2
      have spelled : (path.join name).toList = path.toList ++ '/' :: name.toList := by
        rw [Path.join_of_relative path relative]
        simp [Path.glue, solid, last]
      have last' : (path.join name).toList.getLast? ≠ some '/' := by
        have := getLast?_of_isPiece piece (path.toList ++ ['/'])
        rwa [List.append_assoc, List.singleton_append, ← spelled] at this
      rw [List.foldl_cons, below_eq_join elsewhere, ih (Path.join_ne_empty solid name)
        (same_join solid elsewhere relative) last' others, spelled]
      simp

/-- A name without wildcards is one step down. -/
theorem expandBelow_piece (solid : path ≠ "") {name : String} (piece : IsPiece name)
    (directory : tree.isDirectory (below path name) = true) (directories : Bool) (bound : Nat)
    (rest : List Pattern) :
    expandBelow tree directories (bound + 1) (name.toList.map .char :: rest) path =
      proceed tree directories bound rest (below path name) := by
  have present : tree.holds (below path name) = true := by
    obtain ⟨entries, found⟩ := FileTree.lookup_of_isDirectory directory
    unfold FileTree.holds
    rw [found]
  rw [expandBelow_succ, literal?_eq_some_iff.2 rfl]
  simp [isDirectory_of_below solid piece directory, present]

/-- Components that are names lead to a directory in as many steps, and the others go on there. -/
theorem proceed_foldl_below (solid : path ≠ "") (pieces : ∀ name ∈ names, IsPiece name)
    (directory : tree.isDirectory (names.foldl below path) = true) (directories : Bool)
    (bound : Nat) (rest : List Pattern) :
    proceed tree directories (bound + names.length)
        (names.map (fun name => name.toList.map .char) ++ rest) path =
      proceed tree directories bound rest (names.foldl below path) := by
  induction names generalizing path with
  | nil => rfl
  | cons name more ih =>
      obtain ⟨piece, others⟩ := List.forall_mem_cons.1 pieces
      have solid' := below_ne_empty solid piece
      have first := isDirectory_of_foldl_below solid' others directory
      rw [List.foldl_cons, ← ih solid' others directory, ← expandBelow_piece solid piece first]
      rfl

end Walk

/-! Directories without wildcards. -/

/-- The text of a path behind the root. -/
def body (base : Path) : List Char :=
  if Path.isAbsolute base then base.toList.tail else base.toList

/-- What stands between the separators of a path. -/
def names (base : Path) : List String := (Text.splitAtEvery separator (body base)).map String.ofList

/-- The directory in which a path starts. -/
def start (base : Path) : Path := if Path.isAbsolute base then "/" else "."

/-- A directory as it shows in the paths that are found below it. -/
def shown (base : Path) : Path := (names base).foldl below (start base)

/-- A directory whose text stands for itself in a pattern: it has no wildcards and no repeated
separators, and it is not the current directory, which does not show in paths. -/
def IsPlain (base : Path) : Prop :=
  base.toList.all isOrdinary = true ∧ "" ∉ names base ∧ Path.same (shown base) "." = false
deriving Decidable

theorem ends_of_splitAtEvery {text : List Char} (solid : [] ∉ Text.splitAtEvery '/' text) :
    text ≠ [] ∧ text.head? ≠ some '/' ∧ text.getLast? ≠ some '/' := by
  refine ⟨?_, ?_, ?_⟩
  · rintro rfl
    exact solid List.mem_cons_self
  · intro first
    obtain ⟨rest, rfl⟩ := List.head?_eq_some_iff.1 first
    exact solid List.mem_cons_self
  · intro last
    obtain ⟨before, rfl⟩ := List.getLast?_eq_some_iff.1 last
    rw [Text.splitAtEvery_append] at solid
    exact solid (List.mem_append_right _ List.mem_cons_self)

theorem start_ne_empty (base : Path) : start base ≠ "" := by
  unfold start
  split <;> decide

theorem toList_eq_body (base : Path) :
    base.toList = (if Path.isAbsolute base then ['/'] else []) ++ body base := by
  unfold body
  cases absolute : Path.isAbsolute base with
  | false => rfl
  | true =>
      obtain ⟨rest, shape⟩ := List.head?_eq_some_iff.1 (eq_of_beq absolute)
      simp [shape]

theorem leads_start (tree : FileTree) (base : Path) (rest : List Component) :
    tree.leads base rest =
      tree.leads (start base) (Path.steps (Text.splitAtEvery '/' (body base)) ++ rest) := by
  have whole := toList_eq_body base
  unfold FileTree.leads start
  apply congrArg
  cases absolute : Path.isAbsolute base with
  | true =>
      have spelled : base = String.ofList ('/' :: body base) := by
        rw [← String.toList_inj, whole, absolute, String.toList_ofList]
        rfl
      have components : Path.components base = _ :=
        (congrArg Path.components spelled).trans (Path.components_root _)
      rw [components]
      rfl
  | false =>
      have current : Path.components "." = [.here] := rfl
      rw [absolute, if_neg Bool.false_ne_true, List.nil_append] at whole
      rw [if_neg Bool.false_ne_true, current, List.singleton_append, FileTree.follow_here,
        Path.components, absolute, whole]
      cases pieces : Text.splitAtEvery '/' (body base) with
      | nil => rfl
      | cons first more =>
          dsimp only
          rw [if_neg Bool.false_ne_true]
          split
          case isTrue here =>
            subst here
            exact FileTree.follow_here _ _ _
          case isFalse => rfl

namespace IsPlain

variable {base : Path} (plain : IsPlain base)
include plain

theorem isPiece : ∀ name ∈ names base, IsPiece name := by
  intro name member
  have solid : name ≠ "" := fun empty => plain.2.1 (empty ▸ member)
  obtain ⟨piece, found, rfl⟩ := List.mem_map.1 member
  rw [IsPiece, String.toList_ofList]
  exact ⟨solid, Text.notMem_of_mem_splitAtEvery found⟩

theorem body_ends :
    body base ≠ [] ∧ (body base).head? ≠ some '/' ∧ (body base).getLast? ≠ some '/' := by
  apply ends_of_splitAtEvery
  intro empty
  exact plain.2.1 (List.mem_map.2 ⟨[], empty, rfl⟩)

theorem ne_empty : base ≠ "" := by
  rintro rfl
  exact plain.body_ends.1 rfl

theorem toList_join {pattern : String} (relative : Path.isAbsolute pattern = false) :
    (base.join pattern).toList = base.toList ++ separator :: pattern.toList := by
  obtain ⟨solid, -, last⟩ := plain.body_ends
  have open_end : base.toList.getLast? ≠ some '/' := by
    rw [toList_eq_body, List.getLast?_append_of_ne_nil _ solid]
    exact last
  rw [Path.join_of_relative base relative]
  simp [Path.glue, open_end, plain.ne_empty, separator]

theorem shown_ne_empty : shown base ≠ "" := foldl_below_ne_empty (start_ne_empty base) plain.isPiece

/-- A directory leads to the same under the name that is shown. -/
theorem leads_shown (tree : FileTree) (rest : List Component) :
    tree.leads (shown base) rest = tree.leads base rest := by
  have texts : (names base).map String.toList = Text.splitAtEvery '/' (body base) := by
    unfold names
    rw [List.map_map]
    exact List.map_id'' (fun piece => String.toList_ofList) _
  unfold shown
  rw [leads_foldl_below (start_ne_empty base) plain.isPiece, texts, ← leads_start]

theorem isDirectory_shown (tree : FileTree) :
    tree.isDirectory (shown base) = tree.isDirectory base := by
  rw [FileTree.isDirectory_eq_leads plain.shown_ne_empty,
    FileTree.isDirectory_eq_leads plain.ne_empty, plain.leads_shown]

/-- A directory shows as it is written, without the `./` it begins with. -/
theorem shown_eq (inner : Path.isAbsolute base = true ∨ (names base).head? ≠ some ".") :
    shown base = base := by
  obtain ⟨first, more, split⟩ := List.exists_cons_of_ne_nil
    (Text.splitAtEvery_ne_nil separator (body base))
  have all : names base = String.ofList first :: more.map String.ofList := by
    unfold names
    rw [split, List.map_cons]
  have pieces := plain.isPiece
  have whole := toList_eq_body base
  rw [all, List.forall_mem_cons] at pieces
  obtain ⟨spelled, elsewhere⟩ : (below (start base) (String.ofList first)).toList =
      (if Path.isAbsolute base then ['/'] else []) ++ first ∧
        Path.same (below (start base) (String.ofList first)) "." = false := by
    have relative := Path.isAbsolute_of_notMem pieces.1.2
    unfold start
    cases absolute : Path.isAbsolute base with
    | true =>
        have joined : below "/" (String.ofList first) = Path.join "/" (String.ofList first) := rfl
        rw [if_pos rfl, joined]
        refine ⟨?_, same_join (by decide) (by decide) relative⟩
        rw [Path.join_of_relative _ relative]
        simp [Path.glue]
    | false =>
        have alone : below "." (String.ofList first) = String.ofList first := rfl
        have other : first ≠ ['.'] := by
          rintro rfl
          rcases inner with inner | inner
          · cases absolute.symm.trans inner
          · rw [all] at inner
            exact inner rfl
        have solid : first ≠ [] := by simpa using pieces.1.1
        have whole : '/' ∉ first := by simpa using pieces.1.2
        rw [if_neg Bool.false_ne_true, alone, Path.same, Path.components_piece solid whole]
        refine ⟨by simp, ?_⟩
        unfold Path.componentOf
        rw [if_neg other]
        split <;> rfl
  have last : (below (start base) (String.ofList first)).toList.getLast? ≠ some '/' := by
    have := getLast?_of_isPiece pieces.1 (if Path.isAbsolute base then ['/'] else [])
    rwa [String.toList_ofList, ← spelled] at this
  rw [← String.toList_inj]
  unfold shown
  rw [all, List.foldl_cons, toList_foldl_below (below_ne_empty (start_ne_empty base) pieces.1)
    elsewhere last pieces.2, spelled, whole, Text.eq_of_splitAtEvery split, List.append_assoc]
  simp [List.flatMap_map, separator]

/-- The names of a plain directory are read as patterns for themselves. -/
theorem parse_names : (names base).mapM Pattern.parse =
    .ok ((names base).map fun name => name.toList.map .char) := by
  have ordinary : ∀ name ∈ names base, ∀ c ∈ name.toList, isOrdinary c = true := by
    intro name member c inside
    obtain ⟨piece, found, rfl⟩ := List.mem_map.1 member
    rw [String.toList_ofList] at inside
    have within : c ∈ body base := by
      obtain ⟨first, more, split⟩ := List.exists_cons_of_ne_nil
        (Text.splitAtEvery_ne_nil separator (body base))
      rw [split] at found
      rw [Text.eq_of_splitAtEvery split]
      rcases List.mem_cons.1 found with rfl | later
      · exact List.mem_append_left _ inside
      · exact List.mem_append_right _
          (List.mem_flatMap.2 ⟨piece, later, List.mem_cons_of_mem _ inside⟩)
    apply List.all_eq_true.1 plain.1
    rw [toList_eq_body]
    exact List.mem_append_right _ within
  generalize names base = all at ordinary ⊢
  induction all with
  | nil => rfl
  | cons name rest ih =>
      obtain ⟨here, others⟩ := List.forall_mem_cons.1 ordinary
      have read : Pattern.parse name = .ok (name.toList.map .char) := parts_of_ordinary here 0 none
      rw [List.mapM_cons, read, ih others]
      rfl

theorem fault?_parse_join {pattern : String} (relative : Path.isAbsolute pattern = false) :
    fault? (Pattern.parse (base.join pattern)) =
      fault? (parts 0 (some separator) 0 pattern.toList) := by
  unfold Pattern.parse
  rw [plain.toList_join relative]
  exact fault?_parts_append (List.all_eq_true.1 plain.1) _ _ _ _

end IsPlain

/-- The paths that the components of a pattern stand for, at and below a directory. -/
def expandFrom (tree : FileTree) (pattern : String) (path : Path) :
    Except PatternError (List Path) := do
  let patterns ← (pieces pattern.toList).mapM Pattern.parse
  let directories := (separator :: pattern.toList).getLast? == some separator
  let bound := patterns.length + (tree.depth + 1) * (FileTree.linkLimit + 1)
  return proceed tree directories bound patterns path

/-- Behind a directory without wildcards, a pattern stands for what it stands for below it. -/
theorem expand_join {tree : FileTree} {base : Path} (plain : IsPlain base)
    (directory : tree.isDirectory base = true) {pattern : String}
    (relative : Path.isAbsolute pattern = false) :
    expand tree (base.join pattern) =
      Pattern.parse (base.join pattern) >>= fun _ => expandFrom tree pattern (shown base) := by
  have characters : (if Path.isAbsolute (base.join pattern) then
      (base.join pattern).toList.dropWhile (· == separator) else (base.join pattern).toList) =
      body base ++ separator :: pattern.toList := by
    obtain ⟨solid, head, -⟩ := plain.body_ends
    obtain ⟨c, rest, shape⟩ := List.exists_cons_of_ne_nil solid
    have other : (c == separator) = false := by
      rw [shape] at head
      simpa [separator] using head
    rw [Path.isAbsolute_join base relative, plain.toList_join relative, toList_eq_body, shape]
    cases Path.isAbsolute base with
    | false => rfl
    | true =>
        have slash : ('/' == separator) = true := rfl
        simp [slash, other]
  have ends : (base.join pattern).toList.getLast? = (separator :: pattern.toList).getLast? := by
    rw [plain.toList_join relative, List.getLast?_append_of_ne_nil _ (List.cons_ne_nil _ _)]
  have first : (if Path.isAbsolute (base.join pattern) then "/" else ".") = start base := by
    rw [Path.isAbsolute_join base relative]
    rfl
  unfold expand
  congr 1
  funext _
  dsimp only
  have shape : (Text.splitAtEvery separator (body base)).map String.ofList = names base := rfl
  rw [characters, ends, first, pieces_append, shape, List.mapM_append, plain.parse_names]
  unfold expandFrom
  cases parsed : (pieces pattern.toList).mapM Pattern.parse with
  | error error => rfl
  | ok patterns =>
      have nonempty : names base ≠ [] := by
        simpa [names] using Text.splitAtEvery_ne_nil separator (body base)
      rw [← plain.isDirectory_shown] at directory
      obtain ⟨name, more, all⟩ := List.exists_cons_of_ne_nil nonempty
      have arrived := proceed_foldl_below (start_ne_empty base) plain.isPiece directory
        ((separator :: pattern.toList).getLast? == some separator)
        (patterns.length + (tree.depth + 1) * (FileTree.linkLimit + 1)) patterns
      -- the names in front take one step each and leave the bound of the pattern alone
      have bounds (count : Nat) : (names base).length + patterns.length + count =
          patterns.length + count + (names base).length := by omega
      refine congrArg Except.ok (Eq.trans ?_ arrived)
      rw [List.length_append, List.length_map, bounds, all]
      rfl

end FieldUsage.Glob
