import FieldUsage.Proofs.Prefilter
import Mathlib.Algebra.Group.Nat.Defs
import Mathlib.Data.List.Basic

/-!
What extraction gives. The text of every document is a piece of the source, and in a host language
it stands between the marks of its template. Its offset counts from the beginning of the text that
was read, which is the source only if that has no byte order mark. Which templates are documents is
all that a configuration decides: the documents under one configuration are those under another one
with some left out.
-/

namespace FieldUsage

namespace Text

theorem bytes_append (first second : List Char) :
    bytes (first ++ second) = bytes first ++ bytes second :=
  List.flatMap_append

end Text

/-- The bytes that follow the text of a template: a hole, or the backquote that closes it. -/
def Extracted.closing (item : Extracted) : List UInt8 :=
  if item.truncated then [0x24, 0x7b] else [0x60]

/-- The text of a document stands in a source at an offset; a template has its marks on both
sides. -/
structure Extracted.StandsAt (item : Extracted) (isTemplate : Bool) (source : List UInt8)
    (offset : Nat) : Prop where
  inside : offset + item.length ≤ source.length
  same : (source.drop offset).take item.length = Text.bytes item.source
  opened : isTemplate = true → 0 < offset ∧ source[offset - 1]? = some 0x60
  closed : isTemplate = true → item.closing <+: source.drop (offset + item.length)

namespace Extract

open Text (bytes size)
open Text.Position (lineFeed)

/-- The documents in a host text are chosen among its templates, which no configuration changes. -/
theorem documents_eq_ok_iff {language : Language} (host : language.requiresExtraction = true)
    {config : ExtractConfig} {source : List Char} {items : List Extracted} :
    documents language config source = .ok items ↔
      ∃ templates, Host.Module.templates (.ofLanguage language) (hostText source) = .ok templates ∧
        items = (templates.filter (selects config)).map ofTemplate := by
  rw [documents, if_pos host]
  cases Host.Module.templates (.ofLanguage language) (hostText source) <;> simp [eq_comm]

/-- The number of bytes that are dropped in front of a source before it is read. -/
def droppedBytes (language : Language) (source : List Char) : Nat :=
  if language.requiresExtraction && source.head? == some byteOrderMark then 3 else 0

/-- What is dropped in front of a source is as long as the bytes that are not counted. -/
theorem exists_dropped {language : Language} (host : language.requiresExtraction = true)
    (source : List Char) :
    ∃ mark, source = mark ++ hostText source ∧ size mark = droppedBytes language source := by
  unfold droppedBytes hostText
  cases source with
  | nil => exact ⟨[], rfl, by simp [host]⟩
  | cons c rest =>
      by_cases isMark : c = byteOrderMark
      · subst isMark
        exact ⟨[byteOrderMark], by simp, by simpa [host] using (by decide)⟩
      · exact ⟨[], by simp [isMark], by simp [host, isMark]⟩

theorem closing_ofTemplate {text : List Char} (template : Host.Template text) :
    (ofTemplate template).closing = bytes (Host.segmentEnd template.interpolated) := by
  have written (hole : Bool) :
      bytes (Host.segmentEnd hole) = if hole then [0x24, 0x7b] else [0x60] := by
    cases hole <;> decide
  exact (written template.interpolated).symm

/-- A document is where its template is, behind the bytes in front of the text. -/
theorem standsAt_ofTemplate {text : List Char} (template : Host.Template text) (mark : List Char) :
    (ofTemplate template).StandsAt true (bytes (mark ++ text))
      (size mark + (ofTemplate template).offset) := by
  obtain ⟨tag, start, raw, hole, opened, more, closed⟩ := template
  obtain ⟨before, begins⟩ : ∃ before, start.before = '`' :: before := by
    cases h : start.before with
    | nil => simp [h] at opened
    | cons c before => exact ⟨before, by simpa [h] using opened⟩
  have split : text = before.reverse ++ '`' :: (raw ++ Host.segmentEnd hole ++ more) := by
    rw [← start.whole, begins, closed]
    simp
  have place : size mark + start.offset = (bytes (mark ++ before.reverse ++ ['`'])).length := by
    rw [Text.length_bytes, start.offset_eq, begins]
    simp [Nat.add_comm, Nat.add_left_comm]
  have whole : bytes (mark ++ text) =
      bytes (mark ++ before.reverse ++ ['`']) ++
        (bytes raw ++ (bytes (Host.segmentEnd hole) ++ bytes more)) := by
    rw [split]
    simp only [← Text.bytes_append]
    simp
  have length : size raw = (bytes raw).length := (Text.length_bytes raw).symm
  constructor
  · simp only [ofTemplate, Extracted.length, place, whole, length, List.length_append]
    omega
  · simp only [ofTemplate, Extracted.length, place, whole, length, List.drop_left, List.take_left]
  · intro _
    have last : (bytes (mark ++ before.reverse ++ ['`'])) =
        bytes (mark ++ before.reverse) ++ [0x60] := Text.bytes_append _ _
    simp only [ofTemplate, place, whole, last, List.length_append, List.length_singleton]
    refine ⟨Nat.succ_pos _, ?_⟩
    simp
  · intro _
    rw [closing_ofTemplate]
    simp only [ofTemplate, Extracted.length, place, whole, length]
    rw [← List.drop_drop, List.drop_left, List.drop_left]
    exact List.prefix_append _ _

/-- Every document of a source stands at its offset, counted behind the bytes that are dropped in
front of the source. Its line is the one of the text, less the line feeds among as many bytes in
front of it as were dropped. -/
theorem documents_standAt {language : Language} {config : ExtractConfig} {source : List Char}
    {items : List Extracted} (found : documents language config source = .ok items)
    {item : Extracted} (member : item ∈ items) :
    item.StandsAt language.requiresExtraction (bytes source)
        (droppedBytes language source + item.offset) ∧
      item.line (bytes source) +
          (((bytes source).drop item.offset).take (droppedBytes language source)).count lineFeed =
        1 + ((bytes source).take (droppedBytes language source + item.offset)).count lineFeed := by
  constructor
  · by_cases host : language.requiresExtraction = true
    · obtain ⟨templates, -, rfl⟩ := (documents_eq_ok_iff host).1 found
      obtain ⟨template, -, rfl⟩ := List.mem_map.1 member
      obtain ⟨mark, whole, dropped⟩ := exists_dropped host source
      have stands := standsAt_ofTemplate template mark
      rw [← whole, dropped] at stands
      rwa [host]
    · rw [documents, if_neg host] at found
      obtain rfl := Except.ok.inj found
      obtain rfl := List.mem_singleton.1 member
      have none : droppedBytes language source = 0 := by
        simp [droppedBytes, host]
      have length : size source = (bytes source).length := (Text.length_bytes source).symm
      rw [none]
      constructor
      · simp [Extracted.length, length]
      · simp [Extracted.length, length]
      · exact fun isTemplate => absurd isTemplate host
      · exact fun isTemplate => absurd isTemplate host
  · simp only [Extracted.line, Extracted.range, Text.Range.ofOffsets, Text.Position.ofOffset,
      Text.Position.lineNumber]
    rw [Nat.add_comm (droppedBytes language source), List.take_add, List.count_append]
    omega

/-- A document of one character. -/
def letter (c : Char) (offset : Nat) (tag : String) (truncated : Bool) : Extracted :=
  { source := [c], offset, tag := some tag, truncated }

/-- A template behind a byte order mark, with a line feed between it and its tag. -/
def markedSource : List Char := "\ufeffgql\n`a`".toList

theorem documents_markedSource :
    documents .typeScript {} markedSource = .ok [letter 'a' 5 "gql" false] := by
  decide +kernel

theorem documents_standAt_marked :
    documents .typeScript {} markedSource = .ok [letter 'a' 5 "gql" false] ∧
      (letter 'a' 5 "gql" false).StandsAt true (bytes markedSource) 8 ∧
      (letter 'a' 5 "gql" false).line (bytes markedSource) = 1 :=
  ⟨documents_markedSource, (documents_standAt documents_markedSource List.mem_cons_self).1,
    by decide +kernel⟩

/-- Behind a byte order mark, a document does not stand at its offset, and its line is not the one
on which it begins. -/
theorem offset_counts_behind_mark :
    ¬ ∀ (language : Language) (config : ExtractConfig) (source : List Char)
        (items : List Extracted) (item : Extracted), size source < 2 ^ 32 - 1 →
      documents language config source = .ok items → item ∈ items →
        item.StandsAt language.requiresExtraction (bytes source) item.offset ∧
          item.line (bytes source) = 1 + ((bytes source).take item.offset).count lineFeed := by
  intro stands
  have short : size markedSource < 2 ^ 32 - 1 := by decide
  have wrong := (stands _ _ _ _ _ short documents_markedSource List.mem_cons_self).1.same
  exact absurd wrong (by decide +kernel)

/-- Whether a document has one of the tags of a configuration. -/
def taggedBy (config : ExtractConfig) (item : Extracted) : Bool :=
  item.tag.any config.tagIdentifiers.contains

/-- If one configuration selects those among the templates of another that have some property as
documents, its documents are those of the other one with the property. -/
theorem documents_filter {language : Language} (host : language.requiresExtraction = true)
    {config config' : ExtractConfig} {keeps : Extracted → Bool} {source : List Char}
    (selected : ∀ template : Host.Template (hostText source),
      selects config template = (keeps (ofTemplate template) && selects config' template))
    {items : List Extracted} (found : documents language config' source = .ok items) :
    documents language config source = .ok (items.filter keeps) := by
  obtain ⟨templates, read, rfl⟩ := (documents_eq_ok_iff host).1 found
  refine (documents_eq_ok_iff host).2 ⟨templates, read, ?_⟩
  rw [List.filter_map, List.filter_filter]
  congr 1
  apply List.filter_congr
  intro template _
  exact (selected template).symm

/-- A configuration chooses by the tag, and drops templates with holes or keeps their beginnings. -/
theorem selects_iff {text : List Char} {config : ExtractConfig} {template : Host.Template text} :
    selects config template = true ↔
      taggedBy config (ofTemplate template) = true ∧
        ((ofTemplate template).truncated = true → config.interpolation = .firstSegment) := by
  unfold selects taggedBy ofTemplate
  cases config.interpolation <;> cases template.interpolated <;> simp

/-- A configuration only chooses among the documents of a host text. A text that cannot be read
fails in the same way under all of them; fewer tags leave out the documents under the other tags;
skipping leaves out those that are cut off. So a document that some configuration finds is found
by every one that asks for its tag and does not skip it, whatever becomes of the templates around
it. -/
theorem documents_chosen {language : Language} (host : language.requiresExtraction = true)
    (source : List Char) :
    (∀ config config' fault, documents language config source = .error fault →
      documents language config' source = .error fault) ∧
    (∀ config config' items,
      (∀ tag ∈ config.tagIdentifiers, tag ∈ config'.tagIdentifiers) →
      config.interpolation = config'.interpolation →
      documents language config' source = .ok items →
        documents language config source = .ok (items.filter (taggedBy config))) ∧
    (∀ tags items, documents language ⟨tags, .firstSegment⟩ source = .ok items →
      documents language ⟨tags, .skip⟩ source = .ok (items.filter (!·.truncated))) ∧
    (∀ config config' items items' item,
      documents language config source = .ok items →
      documents language config' source = .ok items' → item ∈ items →
      taggedBy config' item = true →
      (item.truncated = true → config'.interpolation = .firstSegment) → item ∈ items') := by
  refine ⟨?_, ?_, ?_, ?_⟩
  · intro config config' fault failed
    rw [documents, if_pos host] at failed ⊢
    cases read : Host.Module.templates (.ofLanguage language) (hostText source) with
    | ok templates => simp [read] at failed
    | error offset => simpa [read] using failed
  · intro config config' items fewer same found
    refine documents_filter host ?_ found
    intro template
    rw [Bool.eq_iff_iff, Bool.and_eq_true, selects_iff, selects_iff, same]
    have kept : taggedBy config (ofTemplate template) = true →
        taggedBy config' (ofTemplate template) = true := by
      simpa [taggedBy, ofTemplate] using fewer _
    tauto
  · intro tags items found
    refine documents_filter host ?_ found
    intro template
    rw [Bool.eq_iff_iff, Bool.and_eq_true, selects_iff, selects_iff]
    simp [taggedBy, and_comm]
  · intro config config' items items' item found found' member tagged skips
    obtain ⟨templates, read, rfl⟩ := (documents_eq_ok_iff host).1 found
    obtain ⟨templates', read', rfl⟩ := (documents_eq_ok_iff host).1 found'
    obtain rfl := Except.ok.inj (read.symm.trans read')
    obtain ⟨template, among, rfl⟩ := List.mem_map.1 member
    obtain ⟨here, -⟩ := List.mem_filter.1 among
    exact List.mem_map_of_mem (List.mem_filter.2 ⟨here, selects_iff.2 ⟨tagged, skips⟩⟩)

/-- Three templates inside each other. -/
def nestedSource : List Char := "gql`a$\x7bcss`b$\x7bgql`c`\x7d`\x7d`".toList

def nestedItems : List Extracted :=
  [letter 'a' 4 "gql" true, letter 'b' 11 "css" true, letter 'c' 18 "gql" false]

/-- The innermost template is found although the others are skipped or have another tag. -/
theorem documents_chosen_nested :
    documents .typeScript ⟨["gql", "css"], .firstSegment⟩ nestedSource = .ok nestedItems ∧
      documents .typeScript ⟨["gql"], .firstSegment⟩ nestedSource =
        .ok [letter 'a' 4 "gql" true, letter 'c' 18 "gql" false] ∧
      documents .typeScript ⟨["gql"], .skip⟩ nestedSource = .ok [letter 'c' 18 "gql" false] := by
  have all : documents .typeScript ⟨["gql", "css"], .firstSegment⟩ nestedSource =
      .ok nestedItems := by
    decide +kernel
  have host : Language.typeScript.requiresExtraction = true := rfl
  have ⟨_, fewer, skipped, _⟩ := documents_chosen host nestedSource
  have tagged := fewer ⟨["gql"], .firstSegment⟩ ⟨["gql", "css"], .firstSegment⟩ nestedItems
    (by simp) rfl all
  have kept : nestedItems.filter (taggedBy ⟨["gql"], .firstSegment⟩) =
      [letter 'a' 4 "gql" true, letter 'c' 18 "gql" false] := by
    decide +kernel
  rw [kept] at tagged
  have whole : [letter 'a' 4 "gql" true, letter 'c' 18 "gql" false].filter (!·.truncated) =
      [letter 'c' 18 "gql" false] := by
    decide +kernel
  exact ⟨all, tagged, whole ▸ skipped ["gql"] _ tagged⟩

end Extract

end FieldUsage
