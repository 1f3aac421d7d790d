import FieldUsage.Extract
import FieldUsage.Search.Candidate
import Mathlib.Data.List.Basic

/-!
What the test for tags may drop. A file of a host language is read only if one of the tags occurs in
its text, while the reader compares tags after decoding their escapes. So a text can be dropped
although it has documents, but only if all their tags are written with escapes: the tag of every
document is spelled in the text, and a spelling without escapes is the tag itself.
-/

namespace FieldUsage

open Host (Spells Spelled)

namespace Extract

/-- A text writes a tag, but only with escapes. -/
def EscapedOnly (text : List Char) (tag : String) : Prop :=
  ¬ tag.toList <:+: text ∧
    ∃ spelling, Spells spelling tag.toList ∧ '\\' ∈ spelling ∧ spelling <:+: text

/-- Nothing but the beginning of a source is dropped. -/
theorem hostText_suffix (source : List Char) : hostText source <:+ source := by
  unfold hostText
  split
  · split
    · exact List.suffix_cons ..
    · exact List.suffix_rfl
  · exact List.suffix_rfl

/-- A name that is spelled in a text occurs there, or is written with escapes only. -/
theorem infix_or_escapedOnly {text source : List Char} {name : String} (h : Spelled text name)
    (part : text <:+: source) : name.toList <:+: source ∨ EscapedOnly source name := by
  obtain ⟨spelling, spells, inText⟩ := h
  have inSource : spelling <:+: source := inText.trans part
  by_cases occurs : name.toList <:+: source
  · exact .inl occurs
  · have escaped : '\\' ∈ spelling := Decidable.byContradiction fun plain =>
      occurs (spells.eq_of_notMem plain ▸ inSource)
    exact .inr ⟨occurs, spelling, spells, escaped, inSource⟩

/-- The documents in a host text are its templates under configured tags, and the tags are spelled
in the text. -/
theorem spelled_of_mem_documents {language : Language} {config : ExtractConfig}
    {source : List Char} {items : List Extracted} (host : language.requiresExtraction = true)
    (found : documents language config source = .ok items) {item : Extracted}
    (member : item ∈ items) :
    ∃ tag, item.tag = some tag ∧ tag ∈ config.tagIdentifiers ∧ Spelled (hostText source) tag := by
  rw [documents, if_pos host] at found
  split at found
  case h_1 templates _ =>
    obtain rfl := Except.ok.inj found
    obtain ⟨template, selected, rfl⟩ := List.mem_map.1 member
    obtain ⟨-, chosen⟩ := List.mem_filter.1 selected
    obtain ⟨configured, -⟩ := Bool.and_eq_true_iff.1 chosen
    exact ⟨template.tag.name, rfl, by simpa using configured, template.tag.spelled⟩
  case h_2 => cases found

end Extract

namespace CandidateFilter

open Extract

/-- A text passes if it contains one of the tags. -/
theorem acceptsText_of_occurs {filter : CandidateFilter} {tag : String} {text : List Char}
    (member : tag ∈ filter.tags) (occurs : tag.toList <:+: text) :
    filter.acceptsText text = true :=
  List.any_eq_true.2 ⟨tag, member, (Text.occursIn_iff ..).2 occurs⟩

/-- A host text with a document in it is accepted, unless the tag of the document is written with
escapes only. -/
theorem acceptsText_or_escapedOnly (filter : CandidateFilter) {language : Language}
    {config : ExtractConfig} {source : List Char} {items : List Extracted} {item : Extracted}
    (same : filter.tags = config.tagIdentifiers) (host : language.requiresExtraction = true)
    (found : documents language config source = .ok items) (member : item ∈ items) :
    filter.acceptsText source = true ∨
      ∃ tag, item.tag = some tag ∧ EscapedOnly source tag := by
  obtain ⟨tag, tagged, configured, spelled⟩ := spelled_of_mem_documents host found member
  rcases infix_or_escapedOnly spelled (hostText_suffix source).isInfix with occurs | escaped
  · exact .inl (acceptsText_of_occurs (same ▸ configured) occurs)
  · exact .inr ⟨tag, tagged, escaped⟩

/-- The document that a template with one selection holds, from an offset on. -/
def shortItem (offset : Nat) : Extracted :=
  { source := "\x7b a \x7d".toList, offset, tag := some "gql", truncated := false }

theorem acceptsText_or_escapedOnly_plain :
    documents .typeScript {} "gql`\x7b a \x7d`".toList = .ok [shortItem 4] ∧
      (acceptsText { extensions := [], tags := ["gql"] } "gql`\x7b a \x7d`".toList = true ∨
        ∃ tag, (shortItem 4).tag = some tag ∧
          EscapedOnly "gql`\x7b a \x7d`".toList tag) := by
  have found : documents .typeScript {} "gql`\x7b a \x7d`".toList = .ok [shortItem 4] := by
    decide +kernel
  exact ⟨found, acceptsText_or_escapedOnly _ rfl rfl found List.mem_cons_self⟩

/-- A tag with an escape hides its document: the second letter of the tag is written by its number.
-/
theorem acceptsText_misses_escaped_tag :
    ¬ ∀ (filter : CandidateFilter) (language : Language) (config : ExtractConfig)
        (source : List Char) (items : List Extracted),
      filter.tags = config.tagIdentifiers → language.requiresExtraction = true →
        documents language config source = .ok items → items ≠ [] →
          filter.acceptsText source = true := by
  intro accepts
  have hidden := accepts { extensions := [], tags := ["gql"] } .typeScript {}
    "g\\u0071l`\x7b a \x7d`".toList [shortItem 9] rfl rfl (by decide +kernel) (by simp)
  exact absurd hidden (by decide +kernel)

end CandidateFilter

end FieldUsage
