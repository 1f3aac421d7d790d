import FieldUsage.Glob.Expand
import FieldUsage.Proofs.File.Hidden
import FieldUsage.Proofs.Traversal

/-!
The paths that a pattern stands for, with and without the hidden files of a tree. Nothing is below a
path that is no directory, so a hidden file leaves no path behind it, and the files that a pattern
stands for in the tree without the hidden ones are its files in the tree, without the hidden ones.
-/

namespace FieldUsage.Glob

/-- A pattern for one component has no separator. -/
def Pattern.Within (pattern : Pattern) : Prop := .char separator ∉ pattern

theorem mem_of_char_mem_prepend {opening : Bool} {part : Part} {rest : Pattern} {c : Char}
    (member : Part.char c ∈ prepend opening part rest) : .char c = part ∨ .char c ∈ rest := by
  unfold prepend at member
  split at member
  · split at member <;> simp_all
  · exact List.mem_cons.1 member

theorem ne_char_of_stars {place count : Nat} {before : Option Char} {after : List Char}
    {part : Part} {takesSeparator : Bool}
    (read : stars place count before after = .ok (part, takesSeparator)) (c : Char) :
    Part.char c ≠ part := by
  unfold stars at read
  split at read
  · cases read
    nofun
  · split at read
    · cases read
    · split at read
      · cases read
      · split at read
        · cases read
          nofun
        · split at read <;> cases read
          nofun

theorem ne_char_of_bracket? {text : List Char} {part : Part} {length : Nat}
    (read : bracket? text = some (part, length)) (c : Char) : Part.char c ≠ part := by
  unfold bracket? at read
  split at read <;>
  · obtain ⟨body, -, made⟩ := Option.map_eq_some_iff.1 read
    cases made
    nofun

/-- The characters of a pattern are those of its text. -/
theorem mem_of_char_mem_parts {place : Nat} {before : Option Char} {skip : Nat} {text : List Char}
    {pattern : Pattern} (parsed : parts place before skip text = .ok pattern) {c : Char}
    (member : Part.char c ∈ pattern) : c ∈ text := by
  induction text generalizing place before skip pattern with
  | nil =>
      cases parsed
      cases member
  | cons first rest ih =>
      have later {place : Nat} {before : Option Char} {skip : Nat} {found : Pattern}
          (parsed : parts place before skip rest = .ok found) (member : Part.char c ∈ found) :
          c ∈ first :: rest := List.mem_cons_of_mem first (ih parsed member)
      unfold parts at parsed
      split at parsed
      case h_1 => exact later parsed member
      case h_2 =>
        split at parsed
        case h_1 =>
          obtain ⟨found, read, made⟩ := bind_eq_ok_iff.1 parsed
          cases made
          exact later read (by simpa using member)
        case h_2 =>
          obtain ⟨⟨part, takesSeparator⟩, star, next⟩ := bind_eq_ok_iff.1 parsed
          obtain ⟨found, read, made⟩ := bind_eq_ok_iff.1 next
          cases made
          rcases mem_of_char_mem_prepend member with same | member
          · exact absurd same (ne_char_of_stars star c)
          · exact later read member
        case h_3 =>
          split at parsed
          case h_2 => cases parsed
          case h_1 part length body =>
            obtain ⟨found, read, made⟩ := bind_eq_ok_iff.1 parsed
            cases made
            rcases List.mem_cons.1 member with same | member
            · exact absurd same (ne_char_of_bracket? body c)
            · exact later read member
        case h_4 =>
          obtain ⟨found, read, made⟩ := bind_eq_ok_iff.1 parsed
          cases made
          rcases List.mem_cons.1 member with same | member
          · cases same
            exact List.mem_cons_self
          · exact later read member

theorem toList_of_literal? {pattern : Pattern} {name : String}
    (literal : Pattern.literal? pattern = some name) {c : Char} (member : c ∈ name.toList) :
    Part.char c ∈ pattern := by
  unfold Pattern.literal? at literal
  obtain ⟨chars, read, rfl⟩ := Option.map_eq_some_iff.1 literal
  rw [String.toList_ofList] at member
  obtain ⟨part, found, same⟩ : ∃ part ∈ pattern, _ = some c := by
    have := mapM_eq_some_iff.1 read
    exact List.mem_map.1 (this ▸ List.mem_map_of_mem member)
  split at same
  · cases same
    exact found
  · cases same

/-- A pattern is cut at its separators, so no piece has one. -/
theorem within_of_mem_pieces {text : List Char} {patterns : List Pattern}
    (parsed : (pieces text).mapM Pattern.parse = .ok patterns) :
    ∀ pattern ∈ patterns, pattern.Within := by
  intro pattern member separated
  obtain ⟨piece, found, read⟩ := exists_of_mem_mapM parsed member
  have inside := mem_of_char_mem_parts read separated
  have found : piece ∈ (Text.splitAtEvery separator text).map String.ofList := by
    unfold pieces at found
    dsimp only at found
    split at found
    · exact (List.dropLast_sublist _).subset found
    · exact found
  obtain ⟨chars, whole, rfl⟩ := List.mem_map.1 found
  rw [String.toList_ofList] at inside
  exact Text.notMem_of_mem_splitAtEvery whole inside

/-- A path at which a pattern ends. -/
def arrive (tree : FileTree) (directories : Bool) (path : Path) : List Path :=
  if !directories || tree.isDirectory path then [path] else []

/-- The paths that the other components stand for, at and below a path. -/
def proceed (tree : FileTree) (directories : Bool) (bound : Nat) (rest : List Pattern)
    (path : Path) : List Path :=
  if rest.isEmpty then arrive tree directories path
  else expandBelow tree directories bound rest path

/-- What a name in a directory gives for a pattern with `**` and what follows it. -/
def spread (tree : FileTree) (directories : Bool) (bound : Nat) (pattern : Pattern)
    (rest : List Pattern) (name : String) (next : Path) : List Path :=
  let deeper :=
    if tree.isDirectory next then expandBelow tree directories bound (pattern :: rest) next else []
  match rest with
  | [] => if tree.isDirectory next then next :: deeper else []
  | first :: more =>
      (if !first.accepts name then [] else proceed tree directories bound more next) ++ deeper

theorem expandBelow_zero (tree : FileTree) (directories : Bool) (patterns : List Pattern)
    (path : Path) : expandBelow tree directories 0 patterns path = [] := rfl

theorem expandBelow_nil (tree : FileTree) (directories : Bool) (bound : Nat) (path : Path) :
    expandBelow tree directories (bound + 1) [] path = [] := rfl

/-- One step of the expansion: a literal name is looked up, and wildcards choose among the entries. -/
theorem expandBelow_succ (tree : FileTree) (directories : Bool) (bound : Nat) (pattern : Pattern)
    (rest : List Pattern) (path : Path) :
    expandBelow tree directories (bound + 1) (pattern :: rest) path =
      match Pattern.literal? pattern with
      | some name =>
          if !(if name == "." || name == ".." then tree.isDirectory path
              else tree.holds (below path name)) then []
          else proceed tree directories bound rest (below path name)
      | none =>
          if !tree.isDirectory path then []
          else if pattern.isRecursive then
            (choices pattern tree path).flatMap fun name =>
              spread tree directories bound pattern (rest.dropWhile Pattern.isRecursive) name
                (below path name)
          else (choices pattern tree path).flatMap fun name =>
            if !pattern.accepts name then []
            else proceed tree directories bound rest (below path name) := by
  rfl

section Blocked

variable {tree : FileTree} {path : Path}

/-- A path that is no directory goes on to nothing. -/
theorem nothing_below (solid : path ≠ "") (blocked : tree.isDirectory path = false) {name : String}
    (whole : '/' ∉ name.toList) (step : name ≠ ".") :
    below path name ≠ "" ∧ tree.isDirectory (below path name) = false ∧
      tree.isFile (below path name) = false := by
  have apart : Path.same path "." = false := by
    cases same : Path.same path "." with
    | false => rfl
    | true =>
        have current : Path.components path = [.here] := eq_of_beq same
        have directory : tree.isDirectory path = true := by
          rw [FileTree.isDirectory_iff, current, FileTree.follow_here]
          exact ⟨solid, _, _, rfl⟩
        cases blocked.symm.trans directory
  have joined : below path name = path.join name := by
    unfold below
    rw [apart]
    rfl
  have nowhere {component : Path.Component} {found : FileNode × List String}
      (followed : FileTree.follow tree.root FileTree.linkLimit tree.currentTrail
        (Path.components path ++ [component]) = .ok found) : False := by
    obtain ⟨entries, names, directory⟩ := FileTree.exists_directory_of_follow followed
    cases blocked.symm.trans (FileTree.isDirectory_iff.2 ⟨solid, entries, names, directory⟩)
  rw [joined]
  have other : name.toList ≠ ['.'] := fun same => step (String.toList_inj.1 same)
  refine ⟨Path.join_ne_empty solid name, Bool.eq_false_iff.2 fun directory => ?_,
    Bool.eq_false_iff.2 fun file => ?_⟩
  · obtain ⟨-, entries, names, followed⟩ := FileTree.isDirectory_iff.1 directory
    by_cases empty : name = ""
    · subst empty
      rw [Path.components_join_empty solid] at followed
      cases blocked.symm.trans (FileTree.isDirectory_iff.2 ⟨solid, entries, names, followed⟩)
    · rw [Path.components_join_piece path (by simpa using empty) whole other] at followed
      exact nowhere followed
  · obtain ⟨-, plain, found, followed⟩ := FileTree.follow_of_isFile file
    by_cases empty : name = ""
    · subst empty
      cases plain.symm.trans (FileTree.namesDirectory_join_empty solid)
    · rw [Path.components_join_piece path (by simpa using empty) whole other] at followed
      exact nowhere followed

/-- Nothing is found from a path that is no directory. -/
theorem isFile_of_mem_expandBelow {directories : Bool} {bound : Nat} {patterns : List Pattern}
    (within : ∀ pattern ∈ patterns, pattern.Within) (solid : path ≠ "")
    (blocked : tree.isDirectory path = false) {found : Path}
    (member : found ∈ expandBelow tree directories bound patterns path) :
    tree.isFile found = false := by
  induction bound generalizing patterns path with
  | zero => cases member
  | succ bound ih =>
      cases patterns with
      | nil => cases member
      | cons pattern rest =>
          rw [expandBelow_succ] at member
          cases literal : Pattern.literal? pattern with
          | none =>
              rw [literal, blocked] at member
              cases member
          | some name =>
              rw [literal] at member
              dsimp only at member
              have whole : '/' ∉ name.toList := fun inside =>
                within pattern List.mem_cons_self (toList_of_literal? literal inside)
              cases special : name == "." || name == ".." with
              | true =>
                  rw [special, if_pos rfl, blocked] at member
                  cases member
              | false =>
                  have step : name ≠ "." := by
                    rintro rfl
                    cases special
                  obtain ⟨solid', blocked', other⟩ := nothing_below solid blocked whole step
                  rw [special, if_neg Bool.false_ne_true] at member
                  split at member
                  case isTrue => cases member
                  case isFalse =>
                    unfold proceed at member
                    split at member
                    case isTrue =>
                      unfold arrive at member
                      split at member
                      · obtain rfl := List.mem_singleton.1 member
                        exact other
                      · cases member
                    case isFalse =>
                      exact ih (fun pattern member => within pattern (List.mem_cons_of_mem _ member))
                        solid' blocked' member

theorem filter_proceed_eq_nil {keep : Path → Bool}
    (files : ∀ path, keep path = true → tree.isFile path = true) {directories : Bool} {bound : Nat}
    {rest : List Pattern} (within : ∀ pattern ∈ rest, pattern.Within) (solid : path ≠ "")
    (blocked : tree.isDirectory path = false) (dropped : keep path = false) :
    (proceed tree directories bound rest path).filter keep = [] := by
  rw [List.filter_eq_nil_iff]
  intro found member kept
  unfold proceed at member
  split at member
  case isTrue =>
    unfold arrive at member
    split at member
    · obtain rfl := List.mem_singleton.1 member
      cases dropped.symm.trans kept
    · cases member
  case isFalse =>
    have other := isFile_of_mem_expandBelow within solid blocked member
    cases other.symm.trans (files found kept)

end Blocked

/-- The names in a directory, in order. -/
def sortedNames (entries : List (String × FileNode)) : List String :=
  (entries.map (·.1)).mergeSort fun a b => !Text.precedes b a

/-- The steps that a component which begins with a dot stands for besides names. -/
def dotSteps (pattern : Pattern) : List String :=
  if pattern.head? == some (.char '.') then [".", ".."].filter pattern.accepts else []

/-- Wildcards choose among the names in a directory and, if the pattern begins with a dot, the dot
steps. -/
theorem choices_eq (pattern : Pattern) (tree : FileTree) (path : Path) :
    choices pattern tree path = sortedNames (tree.entries path) ++ dotSteps pattern := rfl

theorem flatMap_filter_shown {α β : Type} {shown : α → Bool} {f g : α → List β} {items : List α}
    (same : ∀ item ∈ items, shown item = true → f item = g item)
    (gone : ∀ item ∈ items, shown item = false → g item = []) :
    (items.filter shown).flatMap f = items.flatMap g := by
  induction items with
  | nil => rfl
  | cons item rest ih =>
      obtain ⟨here, same⟩ := List.forall_mem_cons.1 same
      obtain ⟨lost, gone⟩ := List.forall_mem_cons.1 gone
      rw [List.flatMap_cons, ← ih same gone]
      cases seen : shown item with
      | true => rw [List.filter_cons_of_pos seen, List.flatMap_cons, here seen]
      | false => rw [List.filter_cons_of_neg (by simp [seen]), lost seen, List.nil_append]

section Hidden

variable {tree : FileTree} {hidden : List String → Bool} {path : Path}

/-- A hidden name in a directory leads to a hidden file. -/
theorem leadsTo_below {entries : List (String × FileNode)} {names : List String}
    (located : tree.locate path = .ok (.directory entries, names))
    (inner : FileNode.entriesHideFiles hidden names entries = true) {name : String}
    (member : name ∈ sortedNames entries) (unseen : hidden (names ++ [name]) = true) :
    tree.leadsTo hidden (below path name) = true := by
  obtain ⟨named, bytes, found⟩ : Path.IsFileName name ∧ ∃ bytes,
      entries.lookup name = some (.file bytes) := by
    have listed : name ∈ entries.map (·.1) := List.mem_mergeSort.1 member
    obtain ⟨⟨other, node⟩, entry, rfl⟩ := List.mem_map.1 listed
    have present : (entries.lookup other).isSome = true :=
      List.lookup_isSome_iff.2 ⟨_, entry, beq_self_eq_true other⟩
    obtain ⟨first, found⟩ := Option.isSome_iff_exists.1 present
    obtain ⟨named, bytes, rfl⟩ := (FileNode.hides_of_lookup inner found).1 unseen
    exact ⟨named, bytes, found⟩
  obtain ⟨solid, followed, -⟩ := FileTree.follow_of_locate located
  have below_located : tree.locate (below path name) = .ok (.file bytes, names ++ [name]) := by
    unfold below
    split
    case isTrue same =>
      have current : Path.components path = [.here] := eq_of_beq same
      rw [current, FileTree.follow_here] at followed
      apply FileTree.locate_eq_file_of_follow named.2.1 (FileTree.namesDirectory_name named)
      rw [named.components_eq]
      exact FileTree.follow_append_name followed found
    case isFalse =>
      apply FileTree.locate_eq_file_of_follow (Path.join_ne_empty solid name)
        (FileTree.namesDirectory_join path named)
      rw [named.components_join]
      exact FileTree.follow_append_name followed found
  unfold FileTree.leadsTo
  rw [below_located]
  exact unseen

theorem isDirectory_of_leadsTo (leads : tree.leadsTo hidden path = true) :
    path ≠ "" ∧ tree.isDirectory path = false := by
  unfold FileTree.leadsTo at leads
  unfold FileTree.isDirectory FileTree.lookup
  split at leads
  case h_1 located => exact ⟨(FileTree.follow_of_locate located).1, by rw [located]; rfl⟩
  case h_2 => cases leads

variable (hides : tree.hidesFiles hidden = true)
include hides

theorem isFile_of_isFile_without (path : Path) (file : (tree.without hidden).isFile path = true) :
    tree.isFile path = true := by
  rw [FileTree.isFile_without hides, Bool.and_eq_true] at file
  exact file.1

/-- Of what a path gives that leads to a hidden file, no file is left. -/
theorem filter_proceed_of_leadsTo (leads : tree.leadsTo hidden path = true) {directories : Bool}
    {bound : Nat} {rest : List Pattern} (within : ∀ pattern ∈ rest, pattern.Within) :
    (proceed tree directories bound rest path).filter (tree.without hidden).isFile = [] ∧
      (proceed (tree.without hidden) directories bound rest path).filter
        (tree.without hidden).isFile = [] := by
  obtain ⟨solid, blocked⟩ := isDirectory_of_leadsTo leads
  have dropped : (tree.without hidden).isFile path = false := by
    rw [FileTree.isFile_without hides, leads]
    simp
  constructor
  · exact filter_proceed_eq_nil (isFile_of_isFile_without hides) within solid blocked dropped
  · rw [← FileTree.isDirectory_without hides] at blocked
    exact filter_proceed_eq_nil (fun _ file => file) within solid blocked dropped

/-- What the names in a directory give, with and without the hidden ones. -/
theorem filter_choices_without (pattern : Pattern) (directory : tree.isDirectory path = true)
    {f g : String → List Path}
    (same : ∀ name, (f name).filter (tree.without hidden).isFile =
      (g name).filter (tree.without hidden).isFile)
    (gone : ∀ name, tree.leadsTo hidden (below path name) = true →
      (g name).filter (tree.without hidden).isFile = []) :
    ((choices pattern (tree.without hidden) path).flatMap f).filter (tree.without hidden).isFile =
      ((choices pattern tree path).flatMap g).filter (tree.without hidden).isFile := by
  obtain ⟨entries, names, inner, located, shown⟩ : ∃ entries names,
      FileNode.entriesHideFiles hidden names entries = true ∧
        tree.locate path = .ok (.directory entries, names) ∧
        (tree.without hidden).entries path = FileNode.entriesWithout hidden names entries := by
    have found := FileTree.locate_without hides path
    unfold FileTree.isDirectory FileTree.lookup at directory
    unfold FileTree.entries FileTree.lookup
    generalize tree.locate path = here at found directory ⊢
    generalize (tree.without hidden).locate path = there at found ⊢
    cases found with
    | directory entries names inner => exact ⟨entries, names, inner, rfl, rfl⟩
    | file | gone | fault => cases directory
  have listed : tree.entries path = entries := by
    unfold FileTree.entries FileTree.lookup
    rw [located]
    rfl
  have sorted : sortedNames (FileNode.entriesWithout hidden names entries) =
      (sortedNames entries).filter fun name => !hidden (names ++ [name]) := by
    unfold sortedNames
    rw [FileNode.map_fst_entriesWithout, Text.mergeSort_filter]
  rw [choices_eq, choices_eq, shown, listed, sorted, List.flatMap_append, List.flatMap_append,
    List.filter_append, List.filter_append, List.filter_flatMap, List.filter_flatMap,
    List.filter_flatMap, List.filter_flatMap]
  congr 1
  · apply flatMap_filter_shown
    · intro name _ _
      exact same name
    · intro name member unseen
      exact gone name (leadsTo_below located inner member (by simpa using unseen))
  · simp only [same]

/-- The same files are found with and without the hidden ones, in a number of steps. -/
def SameFiles (tree : FileTree) (hidden : List String → Bool) (directories : Bool) (bound : Nat) :
    Prop :=
  ∀ patterns path, (∀ pattern ∈ patterns, pattern.Within) →
    (expandBelow (tree.without hidden) directories bound patterns path).filter
        (tree.without hidden).isFile =
      (expandBelow tree directories bound patterns path).filter (tree.without hidden).isFile

variable {directories : Bool} {bound : Nat} {pattern : Pattern} {rest : List Pattern}

theorem SameFiles.proceed (same : SameFiles tree hidden directories bound)
    (within : ∀ pattern ∈ rest, pattern.Within) (next : Path) :
    (Glob.proceed (tree.without hidden) directories bound rest next).filter
        (tree.without hidden).isFile =
      (Glob.proceed tree directories bound rest next).filter (tree.without hidden).isFile := by
  unfold Glob.proceed
  split
  · unfold arrive
    rw [FileTree.isDirectory_without hides]
  · exact same rest next within

theorem SameFiles.spread (same : SameFiles tree hidden directories bound)
    (within : ∀ other ∈ pattern :: rest, other.Within) (name : String) (next : Path) :
    (Glob.spread (tree.without hidden) directories bound pattern rest name next).filter
        (tree.without hidden).isFile =
      (Glob.spread tree directories bound pattern rest name next).filter
        (tree.without hidden).isFile := by
  have deeper := same (pattern :: rest) next within
  unfold Glob.spread
  rw [FileTree.isDirectory_without hides]
  generalize tree.isDirectory next = directory
  cases rest with
  | nil =>
      cases directory with
      | false => simp only [Bool.false_eq_true, if_false]
      | true =>
          simp only [if_true]
          rw [List.filter_cons, List.filter_cons, deeper]
  | cons first more =>
      have onwards := same.proceed hides
        (fun other member => within other (List.mem_cons_of_mem _ (List.mem_cons_of_mem _ member)))
        next
      dsimp only
      rw [List.filter_append, List.filter_append, apply_ite (List.filter _), onwards,
        ← apply_ite (List.filter _), apply_ite (List.filter _) (directory = true), deeper,
        ← apply_ite (List.filter _)]

/-- A hidden file gives no files behind `**`. -/
theorem filter_spread_of_leadsTo {next : Path} (leads : tree.leadsTo hidden next = true)
    (within : ∀ other ∈ rest, other.Within) (name : String) :
    (Glob.spread tree directories bound pattern rest name next).filter
      (tree.without hidden).isFile = [] := by
  obtain ⟨solid, blocked⟩ := isDirectory_of_leadsTo leads
  unfold Glob.spread
  rw [blocked]
  cases rest with
  | nil => rfl
  | cons first more =>
      obtain ⟨-, within⟩ := List.forall_mem_cons.1 within
      obtain ⟨here, -⟩ := filter_proceed_of_leadsTo hides leads within
      simp only [Bool.false_eq_true, if_false]
      rw [List.append_nil, apply_ite (List.filter _), here, List.filter_nil, ite_self]

/-- One more step finds the same files with and without the hidden ones. -/
theorem SameFiles.succ (same : SameFiles tree hidden directories bound) :
    SameFiles tree hidden directories (bound + 1) := by
  intro patterns path within
  cases patterns with
  | nil => rw [expandBelow_nil, expandBelow_nil]
  | cons pattern rest =>
      obtain ⟨inside, within⟩ := List.forall_mem_cons.1 within
      rw [expandBelow_succ, expandBelow_succ, FileTree.isDirectory_without hides]
      cases Pattern.literal? pattern with
      | some name =>
          dsimp only
          cases seen : tree.leadsTo hidden (below path name) with
          | false =>
              rw [FileTree.holds_without hides seen]
              generalize (if (name == "." || name == "..") = true then _ else _) = test
              cases test with
              | false => rw [Bool.not_false, if_pos rfl, if_pos rfl]
              | true =>
                  rw [Bool.not_true, if_neg Bool.false_ne_true, if_neg Bool.false_ne_true]
                  exact same.proceed hides within _
          | true =>
              obtain ⟨here, there⟩ := filter_proceed_of_leadsTo hides seen within
              rw [apply_ite (List.filter _), apply_ite (List.filter _), here, there, List.filter_nil,
                ite_self, ite_self]
      | none =>
          dsimp only
          cases directory : tree.isDirectory path with
          | false => rw [Bool.not_false, if_pos rfl, if_pos rfl]
          | true =>
              simp only [Bool.not_true, Bool.false_eq_true, if_false]
              split
              · have others : ∀ other ∈ rest.dropWhile Pattern.isRecursive, other.Within :=
                  fun other member => within other ((List.dropWhile_sublist _).subset member)
                apply filter_choices_without hides pattern directory
                · intro name
                  exact same.spread hides (List.forall_mem_cons.2 ⟨inside, others⟩) name _
                · intro name leads
                  exact filter_spread_of_leadsTo hides leads others name
              · apply filter_choices_without hides pattern directory
                · intro name
                  rw [apply_ite (List.filter _), same.proceed hides within, ← apply_ite (List.filter _)]
                · intro name leads
                  obtain ⟨here, -⟩ := filter_proceed_of_leadsTo hides leads within
                  rw [apply_ite (List.filter _), here, List.filter_nil, ite_self]

/-- The files that patterns stand for are the same with and without the hidden ones. -/
theorem sameFiles (directories : Bool) (bound : Nat) : SameFiles tree hidden directories bound := by
  induction bound with
  | zero =>
      intro patterns path _
      rw [expandBelow_zero, expandBelow_zero]
  | succ bound ih => exact ih.succ hides

/-- The files that a pattern stands for are the same with and without the hidden ones. -/
theorem expand_without (text : String) :
    (expand (tree.without hidden) text).map (·.filter (tree.without hidden).isFile) =
      (expand tree text).map (·.filter (tree.without hidden).isFile) := by
  have depth : (tree.without hidden).depth = tree.depth := by
    unfold FileTree.depth
    rw [FileNode.depth, FileNode.depth]
    exact congrArg (· + 1) (FileNode.entriesDepth_without [] tree.root hides)
  unfold expand
  rw [depth]
  cases Pattern.parse text with
  | error error => simp only [bind, Except.bind, Except.map]
  | ok whole =>
      dsimp only [bind, Except.bind]
      generalize (if Path.isAbsolute text = true then text.toList.dropWhile (· == separator)
        else text.toList) = characters
      cases parsed : (pieces characters).mapM Pattern.parse with
      | error error => simp only [Except.map]
      | ok patterns =>
          exact congrArg Except.ok (sameFiles hides _ _ _ _ (within_of_mem_pieces parsed))

end Hidden

end FieldUsage.Glob
