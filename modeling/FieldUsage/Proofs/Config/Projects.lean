import FieldUsage.Config.Load
import FieldUsage.Proofs.Config.Encoding

/-!
Documents with several projects. What stands under the key `projects` is read as a whole or not at
all: if each entry can be read, the configuration has the projects of these names and no others,
whatever stands beside the key. If one entry cannot be read, none is, and the document is read as
one project if it can be. So a document is a configuration of several projects exactly if all of
them can be read, and a document without a schema beside them is one or none.
-/

namespace FieldUsage.Config

/-- The projects of a document can be read: they are given once, by entries that are projects. -/
def ReadableProjects (members : List (String × Json)) : Prop :=
  ∃ entries, Json.valuesOf ["projects"] members = [.object entries] ∧
    ∀ entry ∈ entries, (Project.decode? entry.2).isSome = true

/-- A configuration has the projects of a document and no others. Of several entries under one name,
the last one counts. -/
def HasProjectsOf (members : List (String × Json)) (config : Config) : Prop :=
  ∃ entries projects, Json.valuesOf ["projects"] members = [.object entries] ∧
    config = .multi projects ∧ (∀ name, name ∈ config.names ↔ name ∈ entries.map (·.1)) ∧
    ∀ name, config.project? name = (Json.lastOf name entries).bind Project.decode?

variable {members : List (String × Json)} {config : Config}

/-- Several projects are read from one key, all of whose entries can be read. -/
theorem decodeMulti?_eq_some_iff :
    decodeMulti? (.object members) = some config ↔
      ∃ entries projects, Json.valuesOf ["projects"] members = [.object entries] ∧
        Json.dict? Project.decode? (.object entries) = some projects ∧
        config = .multi projects := by
  unfold decodeMulti?
  dsimp only
  split
  case h_1 value only =>
    rw [Option.map_eq_some_iff]
    constructor
    · rintro ⟨projects, read, rfl⟩
      cases value with
      | object entries => exact ⟨entries, projects, only, read, rfl⟩
      | null | boolean | number | string | array => cases read
    · rintro ⟨entries, projects, given, read, rfl⟩
      rw [only, List.cons.injEq] at given
      obtain ⟨rfl, -⟩ := given
      exact ⟨projects, read, rfl⟩
  case h_2 other =>
    simp only [reduceCtorEq, false_iff]
    rintro ⟨entries, projects, given, -⟩
    exact other _ given

/-- The projects of a document are read exactly if they can be. -/
theorem decodeMulti?_isSome_iff :
    (decodeMulti? (.object members)).isSome = true ↔ ReadableProjects members := by
  rw [Option.isSome_iff_exists]
  constructor
  · rintro ⟨config, read⟩
    obtain ⟨entries, projects, given, read, -⟩ := decodeMulti?_eq_some_iff.1 read
    exact ⟨entries, given, Json.dict?_isSome_iff.1 (Option.isSome_of_eq_some read)⟩
  · rintro ⟨entries, given, all⟩
    obtain ⟨projects, read⟩ := Option.isSome_iff_exists.1 (Json.dict?_isSome_iff.2 all)
    exact ⟨_, decodeMulti?_eq_some_iff.2 ⟨entries, projects, given, read, rfl⟩⟩

theorem hasProjectsOf_of_decodeMulti? (read : decodeMulti? (.object members) = some config) :
    HasProjectsOf members config := by
  obtain ⟨entries, projects, given, inside, rfl⟩ := decodeMulti?_eq_some_iff.1 read
  exact ⟨entries, projects, given, rfl, Json.mem_keys_of_dict? inside, Json.get?_of_dict? inside⟩

/-- A document is read as several projects if these can be read, and as one project else. -/
theorem decode?_object (members : List (String × Json)) :
    (ReadableProjects members → decode? (.object members) = decodeMulti? (.object members)) ∧
    (¬ReadableProjects members →
      decode? (.object members) = (Project.decode? (.object members)).map .single) := by
  unfold decode?
  rw [← decodeMulti?_isSome_iff]
  cases decodeMulti? (.object members) <;> simp

/-- Only two spellings stand for the schema of a project. -/
theorem spelling_of_schema {key : String}
    (schema : (Project.spellings.lookup key).getD key = "schema") :
    key = "schema" ∨ key = "schemaPath" := by
  unfold Project.spellings at schema
  simp only [Dict.lookup_entry, List.lookup_nil] at schema
  split at schema
  case isTrue old => exact .inr old
  case isFalse =>
    split at schema
    case isTrue =>
      rw [Option.getD_some] at schema
      exact absurd schema (by decide)
    case isFalse =>
      split at schema
      case isTrue =>
        rw [Option.getD_some] at schema
        exact absurd schema (by decide)
      case isFalse => exact .inl schema

/-- A project has a schema, under one of the spellings of its key. -/
theorem mem_keys_of_decode? {project : Project}
    (read : Project.decode? (.object members) = some project) :
    "schema" ∈ members.map (·.1) ∨ "schemaPath" ∈ members.map (·.1) := by
  obtain ⟨schema, included, excluded, extensions, recorded, -⟩ := Project.decode?_eq_some_iff.1 read
  rw [Json.respelled, Json.record?_eq_some_iff] at recorded
  have inside := List.mem_singleton_self schema
  rw [← Option.toList_some, ← (List.cons.inj recorded).1, Json.mem_valuesOf_singleton,
    List.mem_map] at inside
  obtain ⟨member, inside, same⟩ := inside
  rcases spelling_of_schema (Prod.mk.inj same).1 with current | old
  · exact .inl (List.mem_map.2 ⟨member, inside, current⟩)
  · exact .inr (List.mem_map.2 ⟨member, inside, old⟩)

/-- A configuration is read in the first notation in which the text is one, and its projects are
sound. -/
theorem ofText_eq_ok_iff {path : Path} {text : List Char} :
    ofText path text = .ok config ↔
      (notations path).findSome? (fun source => (source.parse? text).bind decode?) = some config ∧
        faultIn? config.projects.entries = none := by
  unfold ofText
  generalize notations path = sources
  dsimp only
  split
  case h_1 none =>
    rw [List.getLast?_eq_none_iff] at none
    subst none
    simp
  case h_2 =>
    split
    case h_1 unread => simp [unread]
    case h_2 found read =>
      rw [read, Option.some.injEq]
      split
      case h_1 fault faulty =>
        simp only [reduceCtorEq, false_iff, not_and]
        rintro rfl sound
        cases faulty.symm.trans sound
      case h_2 sound =>
        simp only [Except.ok.injEq]
        exact ⟨fun same => ⟨same, same ▸ sound⟩, fun same => same.1⟩

/-- A document gives the configuration of just the projects in it if all of them can be read, in
every notation. If one of them cannot, all are passed over, and the configuration is the one project
that the rest of the document is. Without a schema beside the projects there is no such project, so
that the document is a configuration of just its projects or none at all. -/
theorem ofText_of_projects {path : Path} {text : List Char} (read : ofText path text = .ok config) :
    ∃ source ∈ notations path, ∃ value, source.parse? text = some value ∧
      ∀ members, value = .object members →
        (ReadableProjects members → HasProjectsOf members config) ∧
        (¬ReadableProjects members →
          ∃ project, config = .single project ∧ Project.decode? value = some project) ∧
        ("schema" ∉ members.map (·.1) → "schemaPath" ∉ members.map (·.1) →
          HasProjectsOf members config) := by
  obtain ⟨source, known, found⟩ := List.exists_of_findSome?_eq_some (ofText_eq_ok_iff.1 read).1
  obtain ⟨value, parsed, decoded⟩ := Option.bind_eq_some_iff.1 found
  refine ⟨source, known, value, parsed, ?_⟩
  rintro members rfl
  obtain ⟨several, single⟩ := decode?_object members
  have readable (all : ReadableProjects members) : HasProjectsOf members config := by
    rw [several all] at decoded
    exact hasProjectsOf_of_decodeMulti? decoded
  have unreadable (bad : ¬ReadableProjects members) :
      ∃ project, config = .single project ∧ Project.decode? (.object members) = some project := by
    rw [single bad] at decoded
    obtain ⟨project, alone, rfl⟩ := Option.map_eq_some_iff.1 decoded
    exact ⟨project, rfl, alone⟩
  refine ⟨readable, unreadable, fun current old => ?_⟩
  by_cases all : ReadableProjects members
  · exact readable all
  · obtain ⟨project, -, alone⟩ := unreadable all
    rcases mem_keys_of_decode? alone with given | given
    · exact absurd given current
    · exact absurd given old

/-- Two projects, and a schema beside them. -/
def mixedText : String :=
  "\x7b\"schema\":\"s.graphql\",\"projects\":\x7b\"web\":\x7b\"schemaPath\":\"w.graphql\"\x7d," ++
    "\"api\":\x7b\"schema\":[\"a.graphql\"]\x7d\x7d\x7d"

theorem ofText_of_projects_mixed :
    ∃ members config, Json.parse? mixedText.toList = some (.object members) ∧
      ofText "graphql.config.json" mixedText.toList = .ok config ∧
      HasProjectsOf members config ∧ config.names = ["api", "web"] := by
  obtain ⟨config, read, names⟩ : ∃ config, ofText "graphql.config.json" mixedText.toList =
      .ok config ∧ (config.names == ["api", "web"]) = true := exists_ok_of_any (by decide +kernel)
  obtain ⟨source, known, value, parsed, split⟩ := ofText_of_projects read
  have only : notations "graphql.config.json" = [.json] := by decide
  obtain rfl := List.mem_singleton.1 (only ▸ known)
  have several : (Json.parse? mixedText.toList).all (fun value => (decodeMulti? value).isSome) =
      true := by decide +kernel
  have parsed : Json.parse? mixedText.toList = some value := parsed
  rw [parsed, Option.all_some] at several
  cases value with
  | object members =>
      have projects := (split members rfl).1 (decodeMulti?_isSome_iff.1 several)
      exact ⟨members, config, parsed, read, projects, eq_of_beq names⟩
  | null | boolean | number | string | array => cases several

def keysOf : Json → List String
  | .object members => members.map (·.1)
  | _ => []

/-- A project without a schema, and a schema beside it. -/
def strayText : String := "projects:\n  web:\n    include: []\nschema: s.graphql\n"

/-- A project whose schema is a number, and a schema beside it. -/
def numberText : String :=
  "\x7b\"projects\":\x7b\"web\":\x7b\"schema\":1\x7d\x7d,\"schema\":\"s.graphql\"\x7d"

theorem projects_passed_over :
    (Notation.yaml.parse? strayText.toList).map keysOf = some ["projects", "schema"] ∧
    (∀ path ∈ [".graphqlrc.yml", ".graphqlrc"],
      (ofText path strayText.toList).toOption.map isMulti = some false) ∧
    (Notation.json.parse? numberText.toList).map keysOf = some ["projects", "schema"] ∧
    ∀ path ∈ ["graphql.config.json", ".graphqlconfig"],
      (ofText path numberText.toList).toOption.map isMulti = some false := by
  decide +kernel

end FieldUsage.Config
