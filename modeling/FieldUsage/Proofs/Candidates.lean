import FieldUsage.Proofs.Ignore.Walk
import FieldUsage.Proofs.Search
import FieldUsage.Proofs.Text.ByteOrder

/-!
Which files are candidates. The test of a file looks at its path and its text only, so neither the
order in which a walk lists the files nor the order of the conditions counts: the candidates are the
listed files that meet all conditions, in the order of the bytes of their paths.
-/

namespace FieldUsage

theorem Language.requiresExtraction_eq_false_iff {language : Language} :
    language.requiresExtraction = false ↔ language = .graphQL := by
  cases language <;> decide

namespace CandidateFilter

variable {filter other : CandidateFilter} {tree : FileTree} {root path : Path} {bytes : ByteArray}
  {walked files : List Path}

/-- What the filter asks of a file. -/
structure Suits (filter : CandidateFilter) (path : Path) (bytes : ByteArray) : Prop where
  extension : ∃ extension ∈ filter.extensions, path.extension? = some extension
  language : ∃ language, Language.ofPath? path = some language
  included : filter.included = [] ∨ ∃ pattern ∈ filter.included, pattern.accepts path = true
  excluded : ∀ pattern ∈ filter.excluded, pattern.accepts path = false
  /-- The file is a document itself, or one of the tags occurs in its text. -/
  tagged : Language.ofPath? path = some .graphQL ∨
    ∃ text, String.fromUTF8? bytes = some text ∧ ∃ tag ∈ filter.tags, tag.toList <:+: text.toList

/-- Filters with the same conditions, in any order and any number. -/
structure SameConditions (filter other : CandidateFilter) : Prop where
  extensions : ∀ extension, extension ∈ other.extensions ↔ extension ∈ filter.extensions
  tags : ∀ tag, tag ∈ other.tags ↔ tag ∈ filter.tags
  included : ∀ pattern, pattern ∈ other.included ↔ pattern ∈ filter.included
  excluded : ∀ pattern, pattern ∈ other.excluded ↔ pattern ∈ filter.excluded

/-- A path passes by its extension, by some included pattern if there are any, and by no excluded
one. -/
theorem acceptsPath_iff : filter.acceptsPath path = true ↔
    (∃ extension ∈ filter.extensions, path.extension? = some extension) ∧
      (filter.included = [] ∨ ∃ pattern ∈ filter.included, pattern.accepts path = true) ∧
      ∀ pattern ∈ filter.excluded, pattern.accepts path = false := by
  simp [acceptsPath, and_assoc, Option.any_eq_true, and_comm]

theorem acceptsText_iff {text : List Char} :
    filter.acceptsText text = true ↔ ∃ tag ∈ filter.tags, tag.toList <:+: text := by
  simp [acceptsText, Text.occursIn_iff]

section Listed

variable {start : Ignore.Start tree root} (lists : start.Lists path bytes)
include lists

theorem ofPath?_join : Language.ofPath? (root.join path) = Language.ofPath? path := by
  unfold Language.ofPath?
  rw [lists.extension?_join]

/-- A listed file is accepted if it suits the filter. -/
theorem accepts_eq_true_iff :
    filter.accepts tree root path = .ok true ↔ filter.Suits path bytes := by
  unfold accepts
  rw [ofPath?_join lists, FileTree.readText_of_lookup lists.lookup_eq]
  constructor
  · intro accepted
    split at accepted
    case isTrue => cases accepted
    case isFalse passed =>
      obtain ⟨extension, included, excluded⟩ := acceptsPath_iff.1 (by simpa using passed)
      split at accepted
      case h_1 => cases accepted
      case h_2 language known =>
        refine ⟨extension, ⟨language, known⟩, included, excluded, ?_⟩
        split at accepted
        case isTrue extracted =>
          cases decoded : String.fromUTF8? bytes with
          | none =>
              rw [decoded] at accepted
              cases accepted
          | some text =>
              rw [decoded] at accepted
              exact .inr ⟨text, rfl, acceptsText_iff.1 (Except.ok.inj accepted)⟩
        case isFalse whole =>
          obtain rfl := Language.requiresExtraction_eq_false_iff.1 (by simpa using whole)
          exact .inl known
  · intro suits
    obtain ⟨language, known⟩ := suits.language
    have passed := acceptsPath_iff.2 ⟨suits.extension, suits.included, suits.excluded⟩
    rw [passed, known]
    rcases suits.tagged with document | ⟨text, decoded, tagged⟩
    · obtain rfl := Option.some.inj (known.symm.trans document)
      rfl
    · rw [decoded]
      simp [acceptsText_iff.2 tagged]

end Listed

/-- Of a walk, only the listed files count, and not their order. -/
theorem select_eq_ok_iff_of_isWalk {start : Ignore.Start tree root} (walk : start.IsWalk walked) :
    filter.select tree root walked = .ok files ↔
      (∀ path bytes, start.Lists path bytes → ∃ keep, filter.accepts tree root path = .ok keep) ∧
        files.Pairwise (· < ·) ∧
        ∀ path, path ∈ files ↔ ∃ bytes, start.Lists path bytes ∧ filter.Suits path bytes := by
  have testable : (∀ path ∈ walked, ∃ keep, filter.accepts tree root path = .ok keep) ↔
      ∀ path bytes, start.Lists path bytes → ∃ keep, filter.accepts tree root path = .ok keep := by
    simp [walk.mem_iff]
  have member (path : Path) :
      (path ∈ walked.filter fun path => passes (filter.accepts tree root path)) ↔
        ∃ bytes, start.Lists path bytes ∧ filter.Suits path bytes := by
    rw [List.mem_filter, walk.mem_iff, passes_eq_true_iff]
    constructor
    · rintro ⟨⟨bytes, lists⟩, accepted⟩
      exact ⟨bytes, lists, (accepts_eq_true_iff lists).1 accepted⟩
    · rintro ⟨bytes, lists, suits⟩
      exact ⟨⟨bytes, lists⟩, (accepts_eq_true_iff lists).2 suits⟩
  rw [select_eq_ok_iff, testable, Text.eq_mergeSort_iff (walk.once.filter _)]
  simp only [member]

/-- A walk that begins at a directory does not fail. -/
theorem candidates_eq_select (start : Ignore.Start tree root) :
    filter.candidates tree root =
      filter.select tree root (start.listed.map ("/".intercalate ·)) := by
  unfold candidates
  rw [start.walk_eq]

/-! Filters that exclude more. -/

section Excluded

variable {more : List Glob.Pattern} (wider : filter.excluded ⊆ more)
include wider

theorem acceptsPath_of_excluded :
    { filter with excluded := more }.acceptsPath path =
      (filter.acceptsPath path && !more.any (·.accepts path)) := by
  rw [Bool.eq_iff_iff, Bool.and_eq_true, acceptsPath_iff, acceptsPath_iff]
  simp only [Bool.not_eq_true', List.any_eq_false, Bool.not_eq_true]
  constructor
  · rintro ⟨extension, included, free⟩
    exact ⟨⟨extension, included, fun pattern member => free pattern (wider member)⟩, free⟩
  · rintro ⟨⟨extension, included, -⟩, free⟩
    exact ⟨extension, included, free⟩

/-- More patterns that exclude leave a test as it is or make it fail to accept. -/
theorem accepts_of_excluded :
    { filter with excluded := more }.accepts tree root path =
      if more.any (·.accepts path) then .ok false else filter.accepts tree root path := by
  unfold accepts
  rw [acceptsPath_of_excluded wider]
  cases more.any (·.accepts path) with
  | true => simp
  | false =>
      rw [Bool.not_false, Bool.and_true, if_neg Bool.false_ne_true]
      rfl

/-- Patterns that are added drop the files they stand for, and nothing else changes. -/
theorem candidates_of_excluded (found : filter.candidates tree root = .ok files) :
    { filter with excluded := more }.candidates tree root =
      .ok (files.filter fun path => !more.any (·.accepts path)) := by
  unfold candidates at found ⊢
  split at found
  case h_1 => cases found
  case h_2 walked _ =>
    obtain ⟨tested, rfl⟩ := select_eq_ok_iff.1 found
    apply select_eq_ok_iff.2
    constructor
    · intro path member
      rw [accepts_of_excluded wider]
      split
      · exact ⟨false, rfl⟩
      · exact tested path member
    · rw [← Text.mergeSort_filter, List.filter_filter]
      congr 2
      funext path
      rw [accepts_of_excluded wider]
      cases more.any (·.accepts path) <;> simp [passes]

end Excluded

/-! Filters with the same conditions. -/

namespace SameConditions

variable (same : filter.SameConditions other)
include same

theorem acceptsPath_eq : other.acceptsPath path = filter.acceptsPath path := by
  have none : other.included = [] ↔ filter.included = [] := by
    simp only [List.eq_nil_iff_forall_not_mem, same.included]
  rw [Bool.eq_iff_iff, acceptsPath_iff, acceptsPath_iff]
  simp only [same.extensions, same.included, same.excluded, none]

theorem acceptsText_eq (text : List Char) : other.acceptsText text = filter.acceptsText text := by
  rw [Bool.eq_iff_iff, acceptsText_iff, acceptsText_iff]
  simp only [same.tags]

theorem accepts_eq : other.accepts tree root path = filter.accepts tree root path := by
  unfold accepts
  simp only [same.acceptsPath_eq, same.acceptsText_eq]

theorem candidates_eq : other.candidates tree root = filter.candidates tree root := by
  have tests : other.accepts tree root = filter.accepts tree root := funext fun _ => same.accepts_eq
  unfold candidates select
  rw [tests]

end SameConditions

/-- Patterns can be read in any order and any number. -/
theorem exists_compiled {texts others : List String} {patterns : List Glob.Pattern}
    (same : ∀ text, text ∈ others ↔ text ∈ texts) (read : texts.mapM compile = .ok patterns) :
    ∃ compiled, others.mapM compile = .ok compiled ∧
      ∀ pattern, pattern ∈ compiled ↔ pattern ∈ patterns := by
  obtain ⟨compiled, read'⟩ : ∃ compiled, others.mapM compile = .ok compiled := by
    apply exists_mapM
    intro text member
    obtain ⟨pattern, -, made⟩ := mem_of_mapM read ((same text).1 member)
    exact ⟨pattern, made⟩
  -- what the one list holds is the pattern of some text, which the other list has too
  have carries {texts others : List String} {patterns compiled : List Glob.Pattern}
      (part : ∀ text ∈ texts, text ∈ others) (read : texts.mapM compile = .ok patterns)
      (read' : others.mapM compile = .ok compiled) :
      ∀ pattern ∈ patterns, pattern ∈ compiled := by
    intro pattern member
    obtain ⟨text, given, made⟩ := exists_of_mem_mapM read member
    obtain ⟨again, found, made'⟩ := mem_of_mapM read' (part text given)
    rwa [Except.ok.inj (made.symm.trans made')]
  refine ⟨compiled, read', fun pattern => ⟨?_, ?_⟩⟩
  · exact carries (fun text => (same text).1) read' read pattern
  · exact carries (fun text => (same text).2) read read' pattern

/-- A filter can be made of the same patterns in another order and number, and has the same
conditions. -/
theorem exists_withPatterns {base : CandidateFilter}
    {included excluded included' excluded' : List String}
    (sameIncluded : ∀ text, text ∈ included' ↔ text ∈ included)
    (sameExcluded : ∀ text, text ∈ excluded' ↔ text ∈ excluded)
    (made : base.withPatterns included excluded = .ok filter) :
    ∃ other, base.withPatterns included' excluded' = .ok other ∧ filter.SameConditions other := by
  unfold withPatterns at made ⊢
  obtain ⟨patterns, read, made⟩ := bind_eq_ok_iff.1 made
  obtain ⟨patterns', read', made⟩ := bind_eq_ok_iff.1 made
  obtain ⟨compiled, again, sameIncluded⟩ := exists_compiled sameIncluded read
  obtain ⟨compiled', again', sameExcluded⟩ := exists_compiled sameExcluded read'
  cases made
  refine ⟨{ base with included := compiled, excluded := compiled' }, ?_, ?_⟩
  · rw [again, again']
    rfl
  · exact ⟨fun _ => Iff.rfl, fun _ => Iff.rfl, sameIncluded, sameExcluded⟩

/-- The candidates are the files that are not left out and suit the filter, strictly increasing by
the bytes of their paths. Every walk that lists each of the files once gives them, and they stay the
same for a filter with the same conditions, also where its patterns are written in another order or
repeatedly. Patterns that are excluded in addition only drop the files they stand for. -/
theorem candidates_exact (filter : CandidateFilter) {tree : FileTree} {root : Path}
    (start : Ignore.Start tree root) :
    (∀ walked files, start.IsWalk walked →
      (filter.select tree root walked = .ok files ↔ filter.candidates tree root = .ok files)) ∧
    ∀ files, filter.candidates tree root = .ok files →
      (files.Pairwise fun first second =>
        Text.bytes first.toList < Text.bytes second.toList) ∧
      (∀ path, path ∈ files ↔ ∃ bytes, start.Lists path bytes ∧ filter.Suits path bytes) ∧
      (∀ more, filter.excluded ⊆ more →
        { filter with excluded := more }.candidates tree root =
          .ok (files.filter fun path => !more.any (·.accepts path))) ∧
      (∀ other, filter.SameConditions other → other.candidates tree root = .ok files) ∧
      ∀ (base : CandidateFilter) (included excluded included' excluded' : List String),
        base.withPatterns included excluded = .ok filter →
        (∀ text, text ∈ included' ↔ text ∈ included) →
        (∀ text, text ∈ excluded' ↔ text ∈ excluded) →
        ∃ other, base.withPatterns included' excluded' = .ok other ∧
          other.candidates tree root = .ok files := by
  constructor
  · intro walked files walk
    rw [candidates_eq_select start, select_eq_ok_iff_of_isWalk walk,
      select_eq_ok_iff_of_isWalk start.isWalk_listed]
  intro files found
  have selected := found
  rw [candidates_eq_select start, select_eq_ok_iff_of_isWalk start.isWalk_listed] at selected
  obtain ⟨-, strict, members⟩ := selected
  refine ⟨strict.imp (Text.bytes_lt_iff _ _).2, members, ?_, ?_, ?_⟩
  · intro more wider
    exact candidates_of_excluded wider found
  · intro other same
    rw [same.candidates_eq, found]
  · intro base included excluded included' excluded' made sameIncluded sameExcluded
    obtain ⟨other, made', same⟩ := exists_withPatterns sameIncluded sameExcluded made
    exact ⟨other, made', by rw [same.candidates_eq, found]⟩

/-- Sources in a directory and below it, one of them without a tag. -/
def taggedNode : FileNode :=
  .directory
    [("a", .directory [("b.ts", .file "gql".toUTF8)]), ("a-c.ts", .file "gql".toUTF8),
      ("b.ts", .file "".toUTF8), ("c.graphql", .file "".toUTF8)]

def taggedTree : FileTree := { root := [("repo", taggedNode)] }

def taggedStart : Ignore.Start taggedTree "repo" where
  node := taggedNode
  place := ["repo"]
  located := rfl
  named := by decide +kernel
  distinct := by decide +kernel

def taggedFilter : CandidateFilter := { extensions := ["ts", "graphql"], tags := ["gql"] }

theorem walk_taggedTree :
    Ignore.walk taggedTree "repo" = .ok ["a/b.ts", "a-c.ts", "b.ts", "c.graphql"] :=
  Search.eq_ok_of_toOption (by decide +kernel)

theorem candidates_taggedTree :
    taggedFilter.candidates taggedTree "repo" = .ok ["a-c.ts", "a/b.ts", "c.graphql"] := by
  have accepted : ["a/b.ts", "a-c.ts", "b.ts", "c.graphql"].filterM
      (taggedFilter.accepts taggedTree "repo") = .ok ["a/b.ts", "a-c.ts", "c.graphql"] :=
    Search.eq_ok_of_toOption (by decide +kernel)
  have sorted : ["a-c.ts", "a/b.ts", "c.graphql"] =
      ["a/b.ts", "a-c.ts", "c.graphql"].mergeSort fun a b => !Text.precedes b a := by
    apply (Text.eq_mergeSort_iff (by decide)).2
    exact ⟨by decide, by simp [or_left_comm]⟩
  unfold candidates select
  rw [walk_taggedTree, sorted]
  exact congrArg (· >>= _) accepted

/-- The walk begins with the directory, whose file comes behind `a-c.ts` in the order of bytes. -/
theorem candidates_exact_taggedTree :
    taggedFilter.candidates taggedTree "repo" = .ok ["a-c.ts", "a/b.ts", "c.graphql"] ∧
      taggedFilter.select taggedTree "repo" ["c.graphql", "b.ts", "a-c.ts", "a/b.ts"] =
        .ok ["a-c.ts", "a/b.ts", "c.graphql"] ∧
      Text.bytes "a-c.ts".toList < Text.bytes "a/b.ts".toList ∧
      (∃ bytes, taggedStart.Lists "a/b.ts" bytes ∧ taggedFilter.Suits "a/b.ts" bytes) ∧
      { taggedFilter with excluded := [[.anyText]] }.candidates taggedTree "repo" =
        .ok ["a/b.ts"] ∧
      { taggedFilter with tags := ["gql", "gql"] }.candidates taggedTree "repo" =
        .ok ["a-c.ts", "a/b.ts", "c.graphql"] := by
  obtain ⟨walks, described⟩ := candidates_exact taggedFilter taggedStart
  obtain ⟨increasing, members, dropped, unchanged, -⟩ := described _ candidates_taggedTree
  have backwards : taggedStart.IsWalk ["c.graphql", "b.ts", "a-c.ts", "a/b.ts"] := by
    have listed := Except.ok.inj (taggedStart.walk_eq.symm.trans walk_taggedTree)
    exact (listed ▸ taggedStart.isWalk_listed).of_perm (List.reverse_perm _).symm
  refine ⟨candidates_taggedTree, ?_, ?_, ?_, ?_, ?_⟩
  · exact (walks _ _ backwards).2 candidates_taggedTree
  · exact List.rel_of_pairwise_cons increasing List.mem_cons_self
  · exact (members "a/b.ts").1 (by simp)
  · exact dropped [[.anyText]] (by simp [taggedFilter])
  · exact unchanged _ ⟨by simp, by simp [taggedFilter], by simp, by simp⟩

end CandidateFilter

end FieldUsage
