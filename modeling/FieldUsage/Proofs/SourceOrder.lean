import FieldUsage.Proofs.Extract
import FieldUsage.Proofs.Host.Statements

/-!
The order of the documents in a host text. They never overlap, and they come in the order they stand
in unless the text has types, classes or `do` loops: the walk over a `do` loop visits its test
before its body, that over a class visits its body before what it extends, and types come late.
-/

namespace FieldUsage

/-- One document ends before another begins. -/
def Extracted.Precedes (first second : Extracted) : Prop :=
  first.offset + first.length < second.offset
deriving Decidable

namespace Extract

/-- Documents of one host text are apart from each other. In a language without types they are in
the order of the text, a template before those in its holes, as long as none of the words for a
class or a `do` loop can be read in it. -/
theorem documents_apart {language : Language} (host : language.requiresExtraction = true)
    {config : ExtractConfig} {source : List Char} {items : List Extracted}
    (found : documents language config source = .ok items) :
    items.Pairwise (fun first second => first.Precedes second ∨ second.Precedes first) ∧
      (language.isTyped = false →
        (∀ word ∈ Host.reorderingWords, ¬ Host.Occurs (hostText source) word) →
        items.Pairwise Extracted.Precedes) := by
  obtain ⟨templates, read, rfl⟩ := (documents_eq_ok_iff host).1 found
  have clear := (Host.Module.templates_clear read).filter (selects config)
  constructor
  · refine List.pairwise_map.2 (clear.imp ?_)
    rintro first second (before | ⟨-, behind⟩)
    · exact .inl before
    · exact .inr behind
  · intro untyped absent
    have orderly : Host.Module.Orderly (.ofLanguage language) (hostText source) := by
      refine ⟨?_, absent⟩
      cases language <;> first | rfl | cases untyped
    refine List.pairwise_map.2 (clear.imp ?_)
    rintro first second (before | ⟨disorderly, -⟩)
    · exact before
    · exact absurd orderly disorderly

/-- Two templates after each other, the first with another one in its hole, behind a name that ends
in a part of one of the reordering words. -/
def callSource : List Char := "window(gql`a$\x7bgql`b`\x7d`, gql`c`)".toList

theorem documents_apart_call :
    documents .javaScript {} callSource =
        .ok [letter 'a' 11 "gql" true, letter 'b' 18 "gql" false, letter 'c' 28 "gql" false] ∧
      [letter 'a' 11 "gql" true, letter 'b' 18 "gql" false, letter 'c' 28 "gql" false].Pairwise
        Extracted.Precedes := by
  have found : documents .javaScript {} callSource =
      .ok [letter 'a' 11 "gql" true, letter 'b' 18 "gql" false, letter 'c' 28 "gql" false] := by
    decide +kernel
  have absent : ∀ word ∈ Host.reorderingWords, ¬ Host.Occurs (hostText callSource) word := by
    decide +kernel
  exact ⟨found, (documents_apart rfl found).2 rfl absent⟩

/-- The documents of a `do` loop are not in the order they stand in. -/
theorem loop_test_before_body :
    ¬ ∀ (language : Language) (config : ExtractConfig) (source : List Char)
        (items : List Extracted), language.requiresExtraction = true →
      documents language config source = .ok items → items.Pairwise Extracted.Precedes := by
  intro inOrder
  have found : documents .javaScript {} "do gql`a`; while (gql`b`)".toList =
      .ok [letter 'b' 22 "gql" false, letter 'a' 7 "gql" false] := by
    decide +kernel
  exact absurd (inOrder _ _ _ _ rfl found) (by decide)

end Extract

end FieldUsage
