import FieldUsage.Path
import Mathlib.Tactic.ByContra

/-!
Paths by their components. The parent of a path and a path below another one are made as texts;
their components are those of the path without the last one, and those of the one followed by those
of the other.
-/

namespace FieldUsage

namespace Text

theorem splitAtEvery_ne_nil (separator : Char) (text : List Char) :
    splitAtEvery separator text ≠ [] := by
  induction text with
  | nil => simp [splitAtEvery]
  | cons c rest ih =>
      rw [splitAtEvery]
      split
      · simp
      · split <;> simp

/-- A text is cut at a separator into the pieces before it and those behind it. -/
theorem splitAtEvery_append (separator : Char) (first second : List Char) :
    splitAtEvery separator (first ++ separator :: second) =
      splitAtEvery separator first ++ splitAtEvery separator second := by
  induction first with
  | nil => simp [splitAtEvery]
  | cons c rest ih =>
      rw [List.cons_append, splitAtEvery, splitAtEvery, ih]
      split
      · rfl
      · cases pieces : splitAtEvery separator rest with
        | nil => exact absurd pieces (splitAtEvery_ne_nil separator rest)
        | cons piece more => rfl

theorem splitAtEvery_of_notMem {separator : Char} {text : List Char} (absent : separator ∉ text) :
    splitAtEvery separator text = [text] := by
  induction text with
  | nil => rfl
  | cons c rest ih =>
      rw [List.mem_cons, not_or] at absent
      obtain ⟨other, absent⟩ := absent
      rw [splitAtEvery, if_neg (Ne.symm other), ih absent]

/-- No piece has the separator in it. -/
theorem notMem_of_mem_splitAtEvery {separator : Char} {text piece : List Char}
    (member : piece ∈ splitAtEvery separator text) : separator ∉ piece := by
  induction text generalizing piece with
  | nil =>
      obtain rfl := List.mem_singleton.1 member
      exact List.not_mem_nil
  | cons c rest ih =>
      rw [splitAtEvery] at member
      split at member
      case isTrue =>
        rcases List.mem_cons.1 member with rfl | member
        · exact List.not_mem_nil
        · exact ih member
      case isFalse other =>
        have alone {piece : List Char} (absent : separator ∉ piece) : separator ∉ c :: piece := by
          rw [List.mem_cons, not_or]
          exact ⟨Ne.symm other, absent⟩
        split at member
        case h_1 =>
          obtain rfl := List.mem_singleton.1 member
          exact alone List.not_mem_nil
        case h_2 first more pieces =>
          rw [pieces] at ih
          rcases List.mem_cons.1 member with rfl | member
          · exact alone (ih List.mem_cons_self)
          · exact ih (List.mem_cons_of_mem first member)

theorem not_precedes_iff (first second : String) :
    (!precedes second first) = true ↔ first ≤ second := by
  rw [precedes, Bool.not_eq_true', decide_eq_false_iff_not, String.not_lt]

/-- Texts are sorted by their order. -/
theorem pairwise_mergeSort (texts : List String) :
    (texts.mergeSort fun a b => !precedes b a).Pairwise (· ≤ ·) := by
  refine (List.pairwise_mergeSort ?_ ?_ texts).imp (not_precedes_iff _ _).1
  · intro a b c
    rw [not_precedes_iff, not_precedes_iff, not_precedes_iff]
    exact String.le_trans
  · intro a b
    rw [Bool.or_eq_true, not_precedes_iff, not_precedes_iff]
    exact String.le_total a b

/-- Sorted lists with the same texts are equal. -/
theorem eq_of_perm {first second : List String} (same : first.Perm second)
    (sorted : first.Pairwise (· ≤ ·)) (sorted' : second.Pairwise (· ≤ ·)) : first = second := by
  apply same.eq_of_pairwise _ sorted sorted'
  intro a b _ _ below above
  exact String.le_antisymm below above

/-- Sorting does not depend on what is left out before. -/
theorem mergeSort_filter (shown : String → Bool) (texts : List String) :
    ((texts.filter shown).mergeSort fun a b => !precedes b a) =
      (texts.mergeSort fun a b => !precedes b a).filter shown := by
  have same := (List.mergeSort_perm texts fun a b => !precedes b a).filter shown
  exact eq_of_perm ((List.mergeSort_perm _ _).trans same.symm) (pairwise_mergeSort _)
    ((pairwise_mergeSort texts).filter shown)

/-- Texts without repetition have one order in which they are strictly increasing. -/
theorem eq_mergeSort_iff {texts sorted : List String} (once : texts.Nodup) :
    sorted = (texts.mergeSort fun a b => !precedes b a) ↔
      sorted.Pairwise (· < ·) ∧ ∀ text, text ∈ sorted ↔ text ∈ texts := by
  have members := List.mergeSort_perm texts fun a b => !precedes b a
  constructor
  · rintro rfl
    have apart := members.nodup_iff.2 once
    refine ⟨((pairwise_mergeSort texts).and apart).imp ?_, fun text => members.mem_iff⟩
    rintro first second ⟨below, different⟩
    exact String.not_le.1 fun above => different (String.le_antisymm below above)
  · rintro ⟨strict, same⟩
    have apart : sorted.Nodup := strict.imp String.ne_of_lt
    have given : sorted.Perm texts := (List.perm_ext_iff_of_nodup apart once).2 same
    apply eq_of_perm (given.trans members.symm) _ (pairwise_mergeSort texts)
    exact strict.imp fun below => String.not_lt.1 (String.lt_asymm below)

end Text

namespace Path

theorem steps_append (first second : List (List Char)) :
    steps (first ++ second) = steps first ++ steps second :=
  List.filterMap_append

theorem components_empty : components "" = [] := rfl

/-- What follows the leading separator of an absolute path. -/
theorem components_root (rest : List Char) :
    components (String.ofList ('/' :: rest)) = .root :: steps (Text.splitAtEvery '/' rest) := by
  simp [components, isAbsolute, Text.splitAtEvery, steps]

/-- What follows an inner separator of a path. -/
theorem components_append {before : List Char} (solid : before ≠ []) (after : List Char) :
    components (String.ofList (before ++ '/' :: after)) =
      components (String.ofList before) ++ steps (Text.splitAtEvery '/' after) := by
  have same : isAbsolute (String.ofList (before ++ '/' :: after)) =
      isAbsolute (String.ofList before) := by
    cases before with
    | nil => exact absurd rfl solid
    | cons c rest => simp [isAbsolute]
  unfold components
  rw [same, String.toList_ofList, String.toList_ofList, Text.splitAtEvery_append]
  cases pieces : Text.splitAtEvery '/' before with
  | nil => exact absurd pieces (Text.splitAtEvery_ne_nil '/' before)
  | cons first rest =>
      simp only [List.cons_append]
      split
      · rw [← List.cons_append, steps_append, List.cons_append]
      · split
        · rw [steps_append, List.cons_append]
        · rw [← List.cons_append, steps_append]

/-- A separator at the end adds no component. -/
theorem components_separator {before : List Char} (solid : before ≠ []) :
    components (String.ofList (before ++ ['/'])) = components (String.ofList before) := by
  rw [components_append solid]
  exact List.append_nil _

theorem components_here (before : List Char) :
    components (String.ofList (before ++ ['/', '.'])) =
      components (String.ofList (before ++ ['/'])) := by
  cases before with
  | nil => rfl
  | cons c rest =>
      rw [components_append (List.cons_ne_nil c rest), components_append (List.cons_ne_nil c rest)]
      rfl

/-- What is dropped at the end of a path does not count. -/
theorem components_dropTrailing (reversed : List Char) :
    components (String.ofList (dropTrailing reversed).reverse) =
      components (String.ofList reversed.reverse) := by
  fun_induction dropTrailing reversed with
  | case1 => rfl
  | case2 => rfl
  | case3 rest more ih =>
      rw [ih, List.reverse_cons, components_separator]
      simpa using more
  | case4 rest ih =>
      rw [ih]
      simp only [List.reverse_cons, List.append_assoc, List.singleton_append]
      exact (components_here rest.reverse).symm
  | case5 => rfl

/-- What stands between two separators as a component. -/
def componentOf (piece : List Char) : Component :=
  if piece = ['.'] then .here else if piece = ['.', '.'] then .up else .name (String.ofList piece)

theorem length_text_componentOf (piece : List Char) :
    (componentOf piece).text.length = piece.length := by
  unfold componentOf
  split
  case isTrue same => rw [same]; rfl
  case isFalse =>
    split
    case isTrue same => rw [same]; rfl
    case isFalse => simp [Component.text]

theorem steps_piece {piece : List Char} (solid : piece ≠ []) (other : piece ≠ ['.']) :
    steps [piece] = [componentOf piece] := by
  unfold steps componentOf
  rw [if_neg other]
  by_cases up : piece = ['.', '.'] <;> simp [solid, other, up]

/-- A piece without separators is one component. -/
theorem components_piece {piece : List Char} (solid : piece ≠ []) (whole : '/' ∉ piece) :
    components (String.ofList piece) = [componentOf piece] := by
  have relative : isAbsolute (String.ofList piece) = false := by
    cases piece with
    | nil => exact absurd rfl solid
    | cons c rest =>
        have other : c ≠ '/' := by
          rintro rfl
          exact whole List.mem_cons_self
        simp [isAbsolute, other]
  unfold components
  rw [String.toList_ofList, Text.splitAtEvery_of_notMem whole]
  simp only [relative, Bool.false_eq_true, if_false]
  split
  case isTrue same => rw [same]; rfl
  case isFalse other => exact steps_piece solid other

/-- The end of a path, behind its last separator, where nothing is left to drop. -/
theorem dropTrailing_cases (reversed : List Char) :
    dropTrailing reversed = [] ∨ dropTrailing reversed = ['/'] ∨
      ∃ piece rest, dropTrailing reversed = piece.reverse ++ rest ∧ piece ≠ [] ∧ '/' ∉ piece ∧
        (rest = [] ∨ ∃ more, rest = '/' :: more ∧ piece ≠ ['.']) := by
  fun_induction dropTrailing reversed with
  | case1 => exact .inl rfl
  | case2 => exact .inr (.inl rfl)
  | case3 rest more ih => exact ih
  | case4 rest ih => exact ih
  | case5 other notEmpty notRoot notSeparator notHere =>
      have split := List.takeWhile_append_dropWhile (p := (· != '/')) (l := other)
      refine .inr (.inr ⟨(other.takeWhile (· != '/')).reverse, other.dropWhile (· != '/'), ?_, ?_,
        ?_, ?_⟩)
      · rw [List.reverse_reverse, split]
      · cases other with
        | nil => exact absurd rfl notEmpty
        | cons c rest =>
            have different : c ≠ '/' := by
              rintro rfl
              exact notSeparator rest rfl
            simp [different]
      · intro member
        have := List.all_takeWhile (p := (· != '/')) (l := other)
        have := List.all_eq_true.1 this '/' (List.mem_reverse.1 member)
        simp at this
      · cases rest : other.dropWhile (· != '/') with
        | nil => exact .inl rfl
        | cons c more =>
            have separator : c = '/' := by
              have := List.head?_dropWhile_not (· != '/') other
              simpa [rest] using this
            subst separator
            refine .inr ⟨more, rfl, fun here => notHere more ?_⟩
            rw [List.reverse_eq_iff] at here
            rw [← split, here, rest]
            rfl

/-- The last piece of a path is its last component. -/
theorem components_concat {piece rest : List Char} (solid : piece ≠ []) (whole : '/' ∉ piece)
    (boundary : rest = [] ∨ ∃ more, rest = '/' :: more ∧ piece ≠ ['.']) :
    components (String.ofList (rest.reverse ++ piece)) =
      components (String.ofList rest.reverse) ++ [componentOf piece] := by
  rcases boundary with rfl | ⟨more, rfl, other⟩
  · exact components_piece solid whole
  · have alone : steps (Text.splitAtEvery '/' piece) = [componentOf piece] := by
      rw [Text.splitAtEvery_of_notMem whole, steps_piece solid other]
    rw [List.reverse_cons, List.append_assoc, List.singleton_append]
    cases more with
    | nil =>
        rw [List.reverse_nil, List.nil_append, List.nil_append, components_root, alone]
        rfl
    | cons c more =>
        have solid' : (c :: more).reverse ≠ [] := by simp
        rw [components_append solid', alone, components_separator solid']

theorem isAbsolute_of_notMem {name : String} (whole : '/' ∉ name.toList) :
    isAbsolute name = false := by
  unfold isAbsolute
  cases shape : name.toList with
  | nil => rfl
  | cons c rest =>
      rw [shape, List.mem_cons, not_or] at whole
      simpa using Ne.symm whole.1

/-- What stands below a directory is one component further. -/
theorem components_join_piece (directory : Path) {name : String} (solid : name.toList ≠ [])
    (whole : '/' ∉ name.toList) (other : name.toList ≠ ['.']) :
    components (directory.join name) = components directory ++ [componentOf name.toList] := by
  have joined (rest : List Char) (boundary : rest = [] ∨ ∃ more, rest = '/' :: more) :
      components (String.ofList rest.reverse ++ name) =
        components (String.ofList rest.reverse) ++ [componentOf name.toList] := by
    have below := components_concat solid whole
      (boundary.imp_right fun ⟨more, shape⟩ => ⟨more, shape, other⟩)
    rwa [String.ofList_append, String.ofList_toList] at below
  unfold join
  rw [isAbsolute_of_notMem whole]
  simp only [Bool.false_eq_true, if_false]
  split
  case isTrue ends =>
    have := joined directory.toList.reverse
    rw [List.reverse_reverse, String.ofList_toList] at this
    apply this
    rw [Bool.or_eq_true, beq_iff_eq] at ends
    refine ends.imp (fun empty => ?_) fun last => ?_
    · simpa using empty
    · obtain ⟨more, shape⟩ := List.getLast?_eq_some_iff.1 last
      exact ⟨more.reverse, by simp [shape]⟩
  case isFalse ends =>
    have := joined ('/' :: directory.toList.reverse) (.inr ⟨_, rfl⟩)
    rw [List.reverse_cons, List.reverse_reverse, components_separator] at this
    · rwa [String.ofList_append, String.ofList_toList] at this
    · intro empty
      obtain rfl := String.toList_eq_nil_iff.1 empty
      exact ends rfl

theorem join_ne_empty {directory : Path} (solid : directory ≠ "") (name : String) :
    directory.join name ≠ "" := by
  intro empty
  unfold join at empty
  split at empty
  case isTrue absolute =>
    rw [empty] at absolute
    cases absolute
  case isFalse =>
    split at empty <;> simp [solid] at empty

theorem components_join_empty {directory : Path} (solid : directory ≠ "") :
    components (directory.join "") = components directory := by
  have before : directory.toList ≠ [] := by simpa using solid
  have separated := components_separator before
  rw [String.ofList_append, String.ofList_toList] at separated
  unfold join
  rw [if_neg (by decide)]
  split
  · rw [String.append_empty]
  · rw [String.append_empty]
    exact separated

/-- A name of a file: one that is a component of a path by itself. -/
def IsFileName (name : String) : Prop :=
  '/' ∉ name.toList ∧ name ≠ "" ∧ name ≠ "." ∧ name ≠ ".."
deriving Decidable

namespace IsFileName

variable {name : String} (named : IsFileName name)
include named

theorem toList_ne_nil : name.toList ≠ [] := by
  simpa using named.2.1

theorem toList_ne_here : name.toList ≠ ['.'] := fun same =>
  named.2.2.1 (String.toList_inj.1 same)

theorem componentOf_eq : componentOf name.toList = .name name := by
  have up : name.toList ≠ ['.', '.'] := fun same => named.2.2.2 (String.toList_inj.1 same)
  unfold componentOf
  rw [if_neg named.toList_ne_here, if_neg up, String.ofList_toList]

theorem components_eq : components name = [.name name] := by
  have alone := components_piece named.toList_ne_nil named.1
  rwa [String.ofList_toList, named.componentOf_eq] at alone

theorem components_here : components ("./" ++ name) = [.here, .name name] := by
  have below := components_append (List.cons_ne_nil '.' []) name.toList
  rw [Text.splitAtEvery_of_notMem named.1, steps_piece named.toList_ne_nil named.toList_ne_here,
    named.componentOf_eq] at below
  have spelled : "./" ++ name = String.ofList (['.'] ++ '/' :: name.toList) := by
    rw [← String.toList_inj]
    simp
  rw [spelled, below]
  rfl

theorem components_join (directory : Path) :
    components (directory.join name) = components directory ++ [.name name] := by
  rw [components_join_piece directory named.toList_ne_nil named.1 named.toList_ne_here,
    named.componentOf_eq]

end IsFileName

/-- The parent of a path is the path without its last component. -/
theorem components_parent? {path above : Path} (parent : parent? path = some above) :
    components above = (components path).dropLast := by
  have same := components_dropTrailing path.toList.reverse
  rw [List.reverse_reverse, String.ofList_toList] at same
  unfold parent? at parent
  split at parent
  case h_1 => cases parent
  case h_2 => cases parent
  case h_3 last notRoot found =>
    obtain rfl := Option.some.inj parent
    rw [components_dropTrailing]
    rcases dropTrailing_cases path.toList.reverse with
      empty | root | ⟨piece, rest, ends, solid, whole, boundary⟩
    · rw [← same, empty] at found
      cases found
    · rw [← same, root] at found
      cases found
      exact absurd rfl notRoot
    · rw [ends, List.reverse_append, List.reverse_reverse,
        components_concat solid whole boundary] at same
      rw [← same, List.getLast?_concat, Option.some.injEq] at found
      rw [ends, ← found, length_text_componentOf, ← List.length_reverse, List.drop_left, ← same,
        List.dropLast_concat]

/-- A file name, read backwards, starts with no separator and with no `.` step. -/
theorem IsFileName.exists_reverse {name : String} (named : IsFileName name) :
    ∃ c rest, name.toList.reverse = c :: rest ∧ c ≠ '/' ∧
      (c = '.' → ∃ d more, rest = d :: more ∧ d ≠ '/') := by
  obtain ⟨c, rest, shape⟩ := List.exists_cons_of_ne_nil
    (List.reverse_ne_nil_iff.2 named.toList_ne_nil)
  have solid : ∀ d ∈ c :: rest, d ≠ '/' := by
    rintro d member rfl
    rw [← shape, List.mem_reverse] at member
    exact named.1 member
  refine ⟨c, rest, shape, solid c List.mem_cons_self, ?_⟩
  rintro rfl
  cases rest with
  | nil => exact absurd (List.reverse_eq_iff.1 shape) named.toList_ne_here
  | cons d more => exact ⟨d, more, rfl, solid d (List.mem_cons_of_mem _ List.mem_cons_self)⟩

/-- Nothing is dropped behind a file name. -/
theorem IsFileName.dropTrailing_eq {name : String} (named : IsFileName name) (before : List Char) :
    dropTrailing (name.toList.reverse ++ before) = name.toList.reverse ++ before := by
  obtain ⟨c, rest, shape, solid, step⟩ := named.exists_reverse
  rw [shape, List.cons_append, dropTrailing]
  · exact List.cons_ne_nil _ _
  · intro same
    exact solid (List.head_eq_of_cons_eq same)
  · intro more same
    exact solid (List.head_eq_of_cons_eq same)
  · intro more same
    obtain ⟨d, after, rfl, other⟩ := step (List.head_eq_of_cons_eq same)
    exact other (List.head_eq_of_cons_eq (List.tail_eq_of_cons_eq same))

theorem IsFileName.parent?_here {name : String} (named : IsFileName name) :
    parent? ("./" ++ name) = some "." := by
  have spelled : ("./" ++ name).toList.reverse = name.toList.reverse ++ ['/', '.'] := by simp
  unfold parent?
  rw [named.components_here, spelled, named.dropTrailing_eq]
  have length : name.length = name.toList.reverse.length := by
    rw [List.length_reverse, String.length_toList]
  simp only [List.getLast?_cons_cons, List.getLast?_singleton, Component.text]
  rw [length, List.drop_left]
  rfl

theorem components_ne_nil {path : Path} (solid : path ≠ "") : components path ≠ [] := by
  obtain ⟨text, rfl⟩ : ∃ text, path = String.ofList text := ⟨path.toList, path.ofList_toList.symm⟩
  have solid : text ≠ [] := by
    rintro rfl
    exact solid rfl
  by_cases separated : '/' ∈ text
  · obtain ⟨before, after, rfl, whole⟩ := List.eq_append_cons_of_mem separated
    cases before with
    | nil =>
        rw [List.nil_append, components_root]
        exact List.cons_ne_nil _ _
    | cons c rest =>
        rw [components_append (List.cons_ne_nil c rest),
          components_piece (List.cons_ne_nil c rest) whole]
        exact List.cons_ne_nil _ _
  · rw [components_piece solid separated]
    exact List.cons_ne_nil _ _

theorem length_components_pos {path : Path} {name : String} (named : fileName? path = some name) :
    0 < (components path).length := by
  apply List.length_pos_iff.2
  intro none
  unfold fileName? at named
  rw [none] at named
  cases named

/-- The parent of a path lacks exactly its file name. -/
theorem components_of_parent? {path above : Path} {name : String}
    (parent : parent? path = some above) (named : fileName? path = some name) :
    components path = components above ++ [.name name] := by
  rw [components_parent? parent]
  unfold fileName? at named
  split at named
  case h_2 => cases named
  case h_1 text found =>
    obtain rfl := Option.some.inj named
    obtain ⟨before, shape⟩ := List.getLast?_eq_some_iff.1 found
    rw [shape, List.dropLast_concat]

/-- A path that names a file has a parent, which is empty if the path is the name alone. -/
theorem exists_parent?_of_fileName? {path : Path} {name : String}
    (named : fileName? path = some name) :
    ∃ above, parent? path = some above ∧ (above = "" ↔ (components path).length = 1) := by
  have positive := length_components_pos named
  unfold fileName? at named
  split at named
  case h_2 => cases named
  case h_1 text found =>
    obtain ⟨above, parent⟩ : ∃ above, parent? path = some above := by
      unfold parent?
      rw [found]
      exact ⟨_, rfl⟩
    refine ⟨above, parent, ?_⟩
    have shorter := components_parent? parent
    have counted : (components above).length = (components path).length - 1 := by
      rw [shorter, List.length_dropLast]
    constructor
    · rintro rfl
      rw [components_empty, List.length_nil] at counted
      omega
    · intro single
      by_contra other
      have := List.length_pos_iff.2 (components_ne_nil other)
      omega

end Path

end FieldUsage
