import FieldUsage.Proofs.Candidates
import FieldUsage.Proofs.Text.Position

/-!
The lines that a search names. Every line is made in one way: some byte offset of a file is taken to
a position, and an offset past the end stands for the end. So the line of a usage or an error is one
of its file, wherever the offset comes from. A candidate is met by the walk at the path at which it
is read later, and has a language there, so that a search does not come upon a file of no language.
-/

namespace FieldUsage

open Text.Position (lineFeed ofOffset)

/-- A text has a line of this number: lines are counted from one, and each line feed begins one. In
words of 32 bits the line behind the line feeds before it has the same number. -/
structure Text.HasLine (text : List UInt8) (line : Nat) : Prop where
  first : 1 ≤ line
  last : line ≤ 1 + text.count lineFeed
  word : (UInt32.ofNat (line - 1) + 1).toNat = line

/-- Every offset is on a line of the text, and an offset past the end is on the last one. -/
theorem Text.hasLine_ofOffset {text : List UInt8} (short : text.length < 2 ^ 32 - 1)
    (offset : Nat) : HasLine text (ofOffset text offset).lineNumber where
  first := Nat.le_add_left 1 _
  last := by
    have before : (text.take offset).count lineFeed ≤ text.count lineFeed :=
      (List.take_sublist offset text).count_le lineFeed
    simp only [Position.lineNumber, ofOffset]
    omega
  word := (Position.ofOffset_fitsWords short offset).lineNumber

/-- A text is encoded by the bytes that it was decoded from. -/
theorem Text.bytes_of_fromUTF8? {bytes : ByteArray} {text : String}
    (decoded : String.fromUTF8? bytes = some text) : Text.bytes text.toList = bytes.data.toList := by
  unfold String.fromUTF8? at decoded
  split at decoded
  case isTrue valid =>
    cases decoded
    have encoded : (String.fromUTF8 bytes valid).toList.utf8Encode = bytes :=
      String.utf8Encode_toList
    have data := congrArg (·.data.toList) encoded
    simpa [List.utf8Encode, Text.bytes] using data
  case isFalse => cases decoded

namespace FileTree

variable {tree : FileTree} {path : Path}

/-- A number is the one of the line at some offset of the file at a path. -/
def NumbersLine (tree : FileTree) (path : Path) (line : Nat) : Prop :=
  ∃ bytes offset, tree.lookup path = .ok (.file bytes) ∧
    line = (ofOffset bytes.data.toList offset).lineNumber

/-- A text is read from a file that holds its bytes. -/
theorem lookup_of_readText {text : List Char} (read : tree.readText path = .ok text) :
    ∃ bytes, tree.lookup path = .ok (.file bytes) ∧ Text.bytes text = bytes.data.toList := by
  unfold readText at read
  obtain ⟨node, found, read⟩ := bind_eq_ok_iff.1 read
  cases node with
  | file bytes =>
      dsimp only at read
      split at read
      case h_1 decoded given =>
        cases read
        exact ⟨bytes, found, Text.bytes_of_fromUTF8? given⟩
      case h_2 => cases read
  | directory entries => cases read
  | link target => cases read

theorem size_of_readText {text : List Char} (read : tree.readText path = .ok text)
    {bytes : ByteArray} (found : tree.lookup path = .ok (.file bytes)) :
    bytes.size = Text.size text := by
  obtain ⟨held, found', same⟩ := lookup_of_readText read
  rw [found, Except.ok.injEq, FileNode.file.injEq] at found'
  subst found'
  rw [← Text.length_bytes, same]
  rfl

theorem numbersLine_of_readText {text : List Char} (read : tree.readText path = .ok text)
    (offset : Nat) : tree.NumbersLine path (ofOffset (Text.bytes text) offset).lineNumber := by
  obtain ⟨bytes, found, same⟩ := lookup_of_readText read
  exact ⟨bytes, offset, found, by rw [same]⟩

end FileTree

/-- Where an error says that something is wrong: the file, and the line. A file of no known language
is said to be wrong at line 0. -/
def SearchError.place? : SearchError → Option (Path × Nat)
  | .hostParse path line => some (path, line)
  | .unsupported path => some (path, 0)
  | .queryParse path line _ => some (path, line)
  | .setup _ | .target _ | .unreadable .. | .noRoot .. => none

namespace Extract

variable {tree : FileTree} {path : Path} {config : ExtractConfig} {source : List Char}

/-- A text that cannot be read as a program is wrong at the line of some offset. -/
theorem exists_offset_of_documents {language : Language} {fault : ParseFault}
    (failed : documents language config source = .error fault) :
    ∃ offset, fault.line = (ofOffset (Text.bytes source) offset).lineNumber := by
  unfold documents at failed
  split at failed
  · split at failed
    · cases failed
    · cases failed
      exact ⟨_, rfl⟩
  · cases failed

theorem readText_of_documentsInFile {items : List Extracted}
    (found : documentsInFile tree config path = .ok (source, items)) :
    tree.readText path = .ok source := by
  unfold documentsInFile at found
  split at found
  · cases found
  · split at found
    · cases found
    case h_2 read =>
      split at found <;> cases found
      exact read

/-- Where a file has a language, its documents are not found because it cannot be read or because
its text is wrong at some line. -/
theorem documentsInFile_error_cases {language : Language}
    (known : Language.ofPath? path = some language) {error : ExtractError}
    (failed : documentsInFile tree config path = .error error) :
    (∃ fault, error = .unreadable path fault) ∨
      ∃ fault, error = .unparsable fault ∧ tree.NumbersLine path fault.line := by
  unfold documentsInFile at failed
  rw [known] at failed
  dsimp only at failed
  split at failed
  case h_1 fault _ =>
    cases failed
    exact .inl ⟨fault, rfl⟩
  case h_2 read =>
    split at failed
    case h_1 fault wrong =>
      cases failed
      obtain ⟨offset, same⟩ := exists_offset_of_documents wrong
      exact .inr ⟨fault, rfl, same ▸ FileTree.numbersLine_of_readText read offset⟩
    case h_2 => cases failed

end Extract

namespace Literal

variable {tree : FileTree} {root path : Path} {config : ExtractConfig} {literal : Literal}

/-- The line of a literal is one of its file. -/
theorem numbersLine_of_mem_inFile {literals : List Literal}
    (extracted : inFile tree root path config = .ok literals) (member : literal ∈ literals) :
    tree.NumbersLine (root.join path) literal.line := by
  unfold inFile at extracted
  split at extracted <;> cases extracted
  case h_1 source items found =>
    obtain ⟨item, -, rfl⟩ := List.mem_map.1 member
    exact FileTree.numbersLine_of_readText (Extract.readText_of_documentsInFile found) item.offset

/-- Where a file has a language, an error that names a place names a line of the file. -/
theorem numbersLine_of_inFile_eq_error {language : Language}
    (known : Language.ofPath? (root.join path) = some language) {error : SearchError}
    (failed : inFile tree root path config = .error error) {place : Path × Nat}
    (placed : error.place? = some place) :
    place.1 = path ∧ tree.NumbersLine (root.join path) place.2 := by
  unfold inFile at failed
  cases found : Extract.documentsInFile tree config (root.join path) with
  | ok result =>
      rw [found] at failed
      cases failed
  | error cause =>
      rw [found] at failed
      rcases Extract.documentsInFile_error_cases known found with
        ⟨fault, rfl⟩ | ⟨fault, rfl, numbered⟩
      · cases failed
        cases placed
      · cases failed
        cases placed
        exact ⟨rfl, numbered⟩

end Literal

namespace CandidateFilter

variable {filter : CandidateFilter} {tree : FileTree} {root : Path}

/-- A candidate has a language at the path at which it is read. -/
theorem exists_language_of_candidate {files : List Path}
    (located : filter.candidates tree root = .ok files) {path : Path} (member : path ∈ files) :
    ∃ language, Language.ofPath? (root.join path) = some language := by
  unfold candidates at located
  split at located
  · cases located
  · obtain ⟨-, rfl⟩ := select_eq_ok_iff.1 located
    obtain ⟨-, passed⟩ := List.mem_filter.1 (List.mem_mergeSort.1 member)
    have accepted := passes_eq_true_iff.1 passed
    unfold accepts at accepted
    split at accepted
    · cases accepted
    · split at accepted
      case h_1 => cases accepted
      case h_2 language known => exact ⟨language, known⟩

/-- Looking for candidates fails where something cannot be read, which is at no line. -/
theorem place?_of_candidates {error : SearchError}
    (failed : filter.candidates tree root = .error error) : error.place? = none := by
  rcases candidates_error_cases failed with ⟨_, rfl⟩ | ⟨_, _, rfl⟩ <;> rfl

end CandidateFilter

/-- The path at which a walk meets a file, name by name, is the one below the directory where it
begins. -/
theorem Path.foldl_join {names : List String} (given : names ≠ [])
    (named : ∀ name ∈ names, IsFileName name) (base : Path) :
    names.foldl Path.join base = base.join ("/".intercalate names) := by
  induction names generalizing base with
  | nil => exact absurd rfl given
  | cons name rest ih =>
      obtain ⟨here, others⟩ := List.forall_mem_cons.1 named
      by_cases last : rest = []
      · simp [last]
      · rw [List.foldl_cons, ih last others, Path.intercalate_cons others here last, Path.join_assoc]

namespace Search

variable {search : Search} {tree : FileTree} {target : Target}

/-- A file and the number of a line that are named by a search: the file is a candidate and has a
line of this number. -/
def Names (search : Search) (tree : FileTree) (path : Path) (line : Nat) : Prop :=
  ∃ files bytes, search.filter.candidates tree search.repository = .ok files ∧ path ∈ files ∧
    tree.lookup (search.repository.join path) = .ok (.file bytes) ∧
      Text.HasLine bytes.data.toList line

/-- Candidates are shorter than what can be counted in words of 32 bits. -/
def ShortFiles (search : Search) (tree : FileTree) : Prop :=
  ∀ files, search.filter.candidates tree search.repository = .ok files → ∀ path ∈ files,
    ∀ bytes, tree.lookup (search.repository.join path) = .ok (.file bytes) →
      bytes.size < 2 ^ 32 - 1

/-- A line of a candidate is one that a search may name. -/
theorem names_of_numbersLine (short : search.ShortFiles tree) {files : List Path}
    (located : search.filter.candidates tree search.repository = .ok files) {path : Path}
    (member : path ∈ files) {line : Nat}
    (numbered : tree.NumbersLine (search.repository.join path) line) :
    search.Names tree path line := by
  obtain ⟨bytes, offset, found, rfl⟩ := numbered
  exact ⟨files, bytes, located, member, found,
    Text.hasLine_ofOffset (short files located path member bytes found) offset⟩

theorem numbersLine_of_mem_usagesIn {path : Path} {usage : Usage}
    (member : usage ∈ search.usagesIn tree target path) :
    tree.NumbersLine (search.repository.join path) usage.line := by
  obtain ⟨literal, among, found⟩ := List.mem_flatMap.1 member
  obtain ⟨literals, extracted, among⟩ := mem_valuesOf_iff.1 among
  obtain ⟨usages, searched, found⟩ := mem_valuesOf_iff.1 found
  rw [(Literal.place_of_mem_search searched usage found).2]
  exact Literal.numbersLine_of_mem_inFile extracted among

/-- Where a file has a language, the search of it fails at one of its lines, if at any place. -/
theorem numbersLine_of_failsIn {path : Path} {language : Language}
    (known : Language.ofPath? (search.repository.join path) = some language) {error : SearchError}
    (fails : search.FailsIn tree target path error) {place : Path × Nat}
    (placed : error.place? = some place) :
    place.1 = path ∧ tree.NumbersLine (search.repository.join path) place.2 := by
  cases fails with
  | extraction failed => exact Literal.numbersLine_of_inFile_eq_error known failed placed
  | @literal literals extracted failed =>
      obtain ⟨before, literal, after, rfl, -, failed⟩ := failed
      have among : literal ∈ before ++ literal :: after := by simp
      obtain rfl := Literal.eq_queryParse_of_search failed
      cases placed
      exact ⟨Literal.path_of_mem_inFile extracted literal among,
        Literal.numbersLine_of_mem_inFile extracted among⟩

/-- Usages name lines of candidates. -/
theorem names_of_find_eq_ok (short : search.ShortFiles tree) {usages : List Usage}
    (found : search.find tree target = .ok usages) {usage : Usage} (member : usage ∈ usages) :
    search.Names tree usage.path usage.line := by
  obtain ⟨files, located, -⟩ := bind_eq_ok_iff.1 found
  obtain ⟨-, rfl⟩ := (find_eq_ok_iff located).1 found
  obtain ⟨path, among, inside⟩ := List.mem_flatMap.1 member
  rw [path_of_mem_usagesIn usage inside]
  exact names_of_numbersLine short located among (numbersLine_of_mem_usagesIn inside)

/-- Errors that name a line name one of a candidate. -/
theorem names_of_find_eq_error (short : search.ShortFiles tree) {error : SearchError}
    (failed : search.find tree target = .error error) {place : Path × Nat}
    (placed : error.place? = some place) : search.Names tree place.1 place.2 := by
  cases located : search.filter.candidates tree search.repository with
  | error cause =>
      have same : search.find tree target = .error cause := by
        unfold find
        rw [located]
        rfl
      obtain rfl := Except.error.inj (failed.symm.trans same)
      rw [CandidateFilter.place?_of_candidates located] at placed
      cases placed
  | ok files =>
      obtain ⟨before, path, after, rfl, -, fails⟩ := (find_eq_error_iff located).1 failed
      have member : path ∈ before ++ path :: after := by simp
      obtain ⟨language, known⟩ := CandidateFilter.exists_language_of_candidate located member
      obtain ⟨same, numbered⟩ := numbersLine_of_failsIn known fails placed
      rw [same]
      exact names_of_numbersLine short located member numbered

/-- A walk meets a candidate at the very path at which it is read later. -/
theorem exists_names_of_candidate (start : Ignore.Start tree search.repository)
    {files : List Path} (located : search.filter.candidates tree search.repository = .ok files)
    {path : Path} (member : path ∈ files) :
    ∃ names ∈ start.listed, path = "/".intercalate names ∧
      names.foldl Path.join search.repository = search.repository.join path := by
  rw [CandidateFilter.candidates_eq_select start] at located
  obtain ⟨-, rfl⟩ := CandidateFilter.select_eq_ok_iff.1 located
  obtain ⟨walked, -⟩ := List.mem_filter.1 (List.mem_mergeSort.1 member)
  obtain ⟨names, listed, rfl⟩ := List.mem_map.1 walked
  obtain ⟨⟨bytes, found⟩, kept⟩ := Ignore.Start.mem_listed_iff.1 listed
  have given : names ≠ [] := by
    rintro rfl
    cases kept
  have named := FileNode.isFileName_of_fileAt? start.named found
  exact ⟨names, listed, rfl, Path.foldl_join given named search.repository⟩

/-- A search does not come upon a file of no language, and every usage and every error of it that
names a line names a line of a candidate. The language of a candidate is looked for twice, when the
walk meets it and when it is read, and both times at the same path. -/
theorem find_names_lines (search : Search) (tree : FileTree) (target : Target)
    (short : search.ShortFiles tree) :
    (∀ path, search.find tree target ≠ .error (.unsupported path)) ∧
    (∀ usages, search.find tree target = .ok usages →
      ∀ usage ∈ usages, search.Names tree usage.path usage.line) ∧
    (∀ error path line, search.find tree target = .error error →
      error.place? = some (path, line) → search.Names tree path line) ∧
    ∀ files, search.filter.candidates tree search.repository = .ok files → ∀ path ∈ files,
      (∃ language, Language.ofPath? (search.repository.join path) = some language) ∧
      ∀ start : Ignore.Start tree search.repository, ∃ names ∈ start.listed,
        path = "/".intercalate names ∧
          names.foldl Path.join search.repository = search.repository.join path := by
  refine ⟨?_, ?_, ?_, ?_⟩
  · intro path failed
    obtain ⟨_, _, -, -, -, line⟩ := names_of_find_eq_error short failed rfl
    exact absurd line.first (Nat.not_succ_le_zero 0)
  · intro usages found usage member
    exact names_of_find_eq_ok short found member
  · intro error path line failed placed
    exact names_of_find_eq_error short failed placed
  · intro files located path member
    refine ⟨CandidateFilter.exists_language_of_candidate located member, fun start => ?_⟩
    exact exists_names_of_candidate start located member

/-- A document, a source with a parenthesis too many on its second line, and a text of no language.
-/
def brokenTree : FileTree :=
  { root :=
      [("repo", .directory
        [("a.graphql", .file "\x7bping\x7d".toUTF8), ("b.ts", .file "gql`\x7bping\x7d`\n)".toUTF8),
          ("c.md", .file "gql".toUTF8)])] }

/-- A search of all these files. -/
def brokenSearch : Search :=
  { pingSearch with filter := { extensions := ["graphql", "ts", "md"], tags := ["gql"] } }

theorem candidates_brokenTree :
    brokenSearch.filter.candidates brokenTree brokenSearch.repository =
      .ok ["a.graphql", "b.ts"] := by
  have walked : Ignore.walk brokenTree "repo" = .ok ["a.graphql", "b.ts", "c.md"] :=
    eq_ok_of_toOption (by decide +kernel)
  have accepted : ["a.graphql", "b.ts", "c.md"].filterM
      (brokenSearch.filter.accepts brokenTree "repo") = .ok ["a.graphql", "b.ts"] :=
    eq_ok_of_toOption (by decide +kernel)
  exact CandidateFilter.candidates_eq_of_pairwise walked accepted (by decide)

theorem shortFiles_brokenTree : brokenSearch.ShortFiles brokenTree := by
  intro files located path member bytes found
  obtain rfl := Except.ok.inj (candidates_brokenTree.symm.trans located)
  have reads : brokenTree.readText (brokenSearch.repository.join "a.graphql") =
        .ok "\x7bping\x7d".toList ∧
      brokenTree.readText (brokenSearch.repository.join "b.ts") =
        .ok "gql`\x7bping\x7d`\n)".toList := by
    decide +kernel
  obtain rfl | rfl : path = "a.graphql" ∨ path = "b.ts" := by simpa using member
  · rw [FileTree.size_of_readText reads.1 found]
    decide
  · rw [FileTree.size_of_readText reads.2 found]
    decide

theorem find_names_lines_brokenTree :
    brokenSearch.ShortFiles brokenTree ∧
      brokenSearch.find brokenTree pingTarget = .error (.hostParse "b.ts" 2) ∧
      brokenSearch.Names brokenTree "b.ts" 2 := by
  have failed : brokenSearch.find brokenTree pingTarget = .error (.hostParse "b.ts" 2) := by
    refine (find_eq_error_iff candidates_brokenTree).2 ⟨["a.graphql"], "b.ts", [], rfl, ?_, ?_⟩
    · intro earlier member
      obtain rfl := List.mem_singleton.1 member
      exact searchable_iff.2 ⟨[pingUsage "a.graphql"], eq_ok_of_toOption (by decide +kernel)⟩
    · have wrong : Extract.documentsInFile brokenTree brokenSearch.extractConfig
          (brokenSearch.repository.join "b.ts") =
            .error (.unparsable { language := .typeScript, line := 2 }) := by
        decide +kernel
      apply FailsIn.extraction
      unfold literalsIn Literal.inFile
      rw [wrong]
  obtain ⟨-, -, names, -⟩ :=
    find_names_lines brokenSearch brokenTree pingTarget shortFiles_brokenTree
  exact ⟨shortFiles_brokenTree, failed, names _ "b.ts" 2 failed rfl⟩

end Search

end FieldUsage
