import FieldUsage.Config
import FieldUsage.Proofs.Json.Object
import FieldUsage.Proofs.Schema.Encoding

/-!
Writing configurations as values and reading them again. A project is an object of its schema and of
those of its other parts that it has; the parts may come in any order, and some of their keys have
an older spelling that means the same. Several projects are an object of their names under the key
`projects`. However a project or several projects are written, they are read as what they are: what
is written as one project is not mistaken for several, nor one kind of schema for another.
-/

namespace FieldUsage

open Schema.Introspection (list?_map)

theorem Json.list?_strings (texts : List String) :
    list? text? (.array (texts.map .string)) = some texts := by
  have inverse (text : String) : text? (.string text) = some text := rfl
  exact list?_map inverse texts

namespace SchemaConfig

/-- The values that say where a schema is. The headers for a server may come in any order. -/
inductive Written : SchemaConfig → Json → Prop
  | path (pattern : String) : Written (.path pattern) (.string pattern)
  | paths (patterns : List String) : Written (.paths patterns) (.array (patterns.map .string))
  | server (url : String) : Written (.remote url none) (.object [("url", .string url)])
  | serverWith (url : String) {headers : Dict String} {entries : List (String × String)}
      (listed : entries.Perm headers.entries) :
      Written (.remote url (some headers))
        (.object [("url", .string url),
          ("headers", .object (entries.map fun entry => (entry.1, .string entry.2)))])

/-- What an encoder writes is one of the ways to write a schema. -/
theorem written_encode (schema : SchemaConfig) : schema.Written schema.encode := by
  match schema with
  | .path pattern => exact .path pattern
  | .paths patterns => exact .paths patterns
  | .remote url none => exact .server url
  | .remote url (some headers) => exact .serverWith url (List.Perm.refl headers.entries)

/-- A schema is read back from all the ways to write it. -/
theorem decode?_of_written {schema : SchemaConfig} {value : Json} (written : schema.Written value) :
    decode? value = some schema := by
  cases written with
  | path pattern => rfl
  | paths patterns =>
      have read := Json.list?_strings patterns
      simp [decode?, Json.text?, read]
  | server url =>
      simp [decode?, Json.text?, Json.list?, Json.record?, Json.valuesOf, Json.optional?]
  | @serverWith url headers entries listed =>
      have read : Json.dict? Json.text?
          (.object (entries.map fun entry => (entry.1, .string entry.2))) = some headers := by
        apply Json.dict?_of_forall₂ _ listed
        simp [List.forall₂_map_left_iff, List.forall₂_same, Json.text?]
      simp [decode?, Json.text?, Json.list?, Json.record?, Json.valuesOf, Json.optional?, read]

end SchemaConfig

namespace Project

def keys : List String := ["schema", "include", "exclude", "extensions"]

/-- The spellings of the keys. -/
inductive Spells : String → String → Prop
  | same (key : String) : Spells key key
  | schema : Spells "schemaPath" "schema"
  | included : Spells "includes" "include"
  | excluded : Spells "excludes" "exclude"

/-- The members of a project, given how its schema and its settings for tools are written. -/
def membersAs (project : Project) (schema : Json) (extensions : Option (List (String × Json))) :
    List (String × Json) :=
  let texts (items : List String) : Json := .array (items.map .string)
  ("schema", schema) ::
    ((project.included.map fun items => ("include", texts items)).toList ++
      (project.excluded.map fun items => ("exclude", texts items)).toList ++
      (extensions.map fun settings => ("extensions", .object settings)).toList)

/-- The values that a project can be written as: its members in any order, each under a spelling of
its key, with the settings for tools in any order too. -/
inductive Written (project : Project) : Json → Prop
  | intro {schema : Json} {extensions : Option (List (String × Json))}
      {ordered members : List (String × Json)} (schemaWritten : project.schema.Written schema)
      (settings : Option.Rel (fun entries dict => entries.Perm dict.entries) extensions
        project.extensions)
      (order : ordered.Perm (project.membersAs schema extensions))
      (spelled : List.Forall₂ (fun given member => Spells given.1 member.1 ∧ given.2 = member.2)
        members ordered) :
      Written project (.object members)

/-- What an encoder writes is one of the ways to write a project. -/
theorem written_encode (project : Project) : project.Written project.encode := by
  have settings : Option.Rel (fun entries dict => entries.Perm dict.entries)
      (project.extensions.map (·.entries)) project.extensions := by
    cases project.extensions with
    | none => exact .none
    | some dict => exact .some (List.Perm.refl dict.entries)
  have encoded : project.encode = .object (project.membersAs project.schema.encode
      (project.extensions.map (·.entries))) := by
    unfold encode membersAs
    rw [Option.map_map]
    rfl
  rw [encoded]
  refine .intro project.schema.written_encode settings (List.Perm.refl _) ?_
  rw [List.forall₂_same]
  exact fun member _ => ⟨.same member.1, rfl⟩

variable {project : Project}

theorem mem_keys_of_mem_membersAs {schema : Json} {extensions : Option (List (String × Json))}
    {member : String × Json} (inside : member ∈ project.membersAs schema extensions) :
    member.1 ∈ keys := by
  simp only [membersAs, List.mem_cons, List.mem_append, Option.mem_toList, Option.map_eq_some_iff]
    at inside
  rcases inside with rfl | (⟨items, -, rfl⟩ | ⟨items, -, rfl⟩) | ⟨settings, -, rfl⟩ <;>
    simp [keys]

/-- Each part of a project has a key of its own. -/
theorem valuesOf_membersAs (project : Project) (schema : Json)
    (extensions : Option (List (String × Json))) :
    keys.map (fun key => Json.valuesOf [key] (project.membersAs schema extensions)) =
      [some schema, project.included.map fun items => .array (items.map .string),
        project.excluded.map fun items => .array (items.map .string),
        extensions.map .object].map Option.toList := by
  unfold membersAs keys
  cases project.included <;> cases project.excluded <;> cases extensions <;>
    simp [Json.valuesOf]

/-- Every spelling of a key leads to the key. -/
theorem Spells.lookup_eq {given key : String} (spells : Spells given key) (known : key ∈ keys) :
    (spellings.lookup given).getD given = key := by
  cases spells with
  | same =>
      have current : ∀ key ∈ keys, (spellings.lookup key).getD key = key := by decide
      exact current given known
  | schema | included | excluded => rfl

/-- Members under other spellings of their keys are respelled to what they were. -/
theorem respelled_eq {members ordered : List (String × Json)}
    (spelled : List.Forall₂ (fun given member => Spells given.1 member.1 ∧ given.2 = member.2)
      members ordered) (known : ∀ member ∈ ordered, member.1 ∈ keys) :
    (Json.object members).respelled spellings = .object ordered := by
  rw [Json.respelled, Json.object.injEq]
  induction spelled with
  | nil => rfl
  | cons first others ih =>
      obtain ⟨here, more⟩ := List.forall_mem_cons.1 known
      obtain ⟨spells, same⟩ := first
      rw [List.map_cons, ih more]
      dsimp only
      rw [spells.lookup_eq here, same]

/-- A project is read from the values of its keys. -/
theorem decode?_eq_some_iff {value : Json} :
    decode? value = some project ↔ ∃ schema included excluded extensions,
      (value.respelled spellings).record? keys 4 =
        some [some schema, included, excluded, extensions] ∧
      SchemaConfig.decode? schema = some project.schema ∧
      Json.optional? (Json.list? Json.text?) included = some project.included ∧
      Json.optional? (Json.list? Json.text?) excluded = some project.excluded ∧
      Json.optional? (Json.dict? some) extensions = some project.extensions := by
  unfold decode?
  constructor
  · intro read
    obtain ⟨values, recorded, read⟩ := Option.bind_eq_some_iff.1 read
    split at read
    case h_1 schema included excluded extensions =>
      refine ⟨schema, included, excluded, extensions, recorded, ?_⟩
      simp only [Option.bind_eq_bind, Option.bind_eq_some_iff, Option.pure_def,
        Option.some.injEq] at read
      obtain ⟨_, first, _, second, _, third, _, fourth, rfl⟩ := read
      exact ⟨first, second, third, fourth⟩
    case h_2 => cases read
  · rintro ⟨schema, included, excluded, extensions, recorded, first, second, third, fourth⟩
    change (value.respelled spellings).record? _ 4 = _ at recorded
    unfold keys at recorded
    simp [recorded, first, second, third, fourth]

/-- A project is read back from all the ways to write it, in whatever order and spelling its keys
are. -/
theorem decode?_of_written {value : Json} (written : project.Written value) :
    decode? value = some project := by
  obtain @⟨schema, extensions, ordered, members, schemaWritten, settings, order, spelled⟩ := written
  have known : ∀ member ∈ ordered, member.1 ∈ keys := fun member inside =>
    mem_keys_of_mem_membersAs (order.mem_iff.1 inside)
  have recorded : (Json.object ordered).record? keys 4 =
      some [some schema, project.included.map fun items => .array (items.map .string),
        project.excluded.map fun items => .array (items.map .string), extensions.map .object] :=
    Json.record?_of_perm order
      (Json.record?_eq_some_iff.2 (valuesOf_membersAs project schema extensions))
  rw [decode?_eq_some_iff, respelled_eq spelled known]
  refine ⟨_, _, _, _, recorded, SchemaConfig.decode?_of_written schemaWritten, ?_, ?_, ?_⟩
  · cases project.included <;> simp [Json.optional?, Json.list?_strings]
  · cases project.excluded <;> simp [Json.optional?, Json.list?_strings]
  · generalize project.extensions = held at settings ⊢
    cases settings with
    | none => rfl
    | some listed =>
        have read := Json.dict?_of_forall₂ (List.forall₂_same.2 fun _ _ => ⟨rfl, rfl⟩) listed
        simp [Json.optional?, read]

/-- No key of a project is `projects`, under any spelling. -/
theorem not_mem_of_spelled {members ordered : List (String × Json)}
    (spelled : List.Forall₂ (fun given member => Spells given.1 member.1 ∧ given.2 = member.2)
      members ordered) (known : ∀ member ∈ ordered, member.1 ∈ keys) (value : Json) :
    ("projects", value) ∉ members := by
  have other {key : String} (spells : Spells "projects" key) : key ∉ keys := by
    generalize here : "projects" = given at spells
    cases spells with
    | same =>
        subst here
        decide
    | schema | included | excluded => exact absurd here (by decide)
  induction spelled with
  | nil => exact List.not_mem_nil
  | cons first others ih =>
      obtain ⟨here, more⟩ := List.forall_mem_cons.1 known
      rw [List.mem_cons, not_or]
      refine ⟨?_, ih more⟩
      rintro rfl
      exact other first.1 here

end Project

namespace Config

/-- The members that several projects can be written as: their names in any order, each with the
project written in any of its ways. -/
def ProjectsWritten (projects : Dict Project) (members : List (String × Json)) : Prop :=
  ∃ entries : List (String × Project), entries.Perm projects.entries ∧
    List.Forall₂ (fun member entry => member.1 = entry.1 ∧ entry.2.Written member.2) members entries

theorem projectsWritten_encode (projects : Dict Project) :
    ProjectsWritten projects (projects.entries.map fun entry => (entry.1, entry.2.encode)) := by
  refine ⟨projects.entries, List.Perm.refl _, ?_⟩
  rw [List.forall₂_map_left_iff, List.forall₂_same]
  exact fun entry _ => ⟨rfl, entry.2.written_encode⟩

/-- What is written as one project is not taken for several. -/
theorem decodeMulti?_of_written {project : Project} {value : Json}
    (written : project.Written value) : decodeMulti? value = none := by
  obtain @⟨schema, extensions, ordered, members, -, -, order, spelled⟩ := written
  have known : ∀ member ∈ ordered, member.1 ∈ Project.keys := fun member inside =>
    Project.mem_keys_of_mem_membersAs (order.mem_iff.1 inside)
  have absent : Json.valuesOf ["projects"] members = [] := by
    refine List.eq_nil_iff_forall_not_mem.2 fun value inside => ?_
    exact Project.not_mem_of_spelled spelled known value (Json.mem_valuesOf_singleton.1 inside)
  simp [decodeMulti?, absent]

/-- A project is read as a configuration of this project alone, and several projects as a
configuration of just these, whatever the order of their parts and the spelling of their keys. In
particular they are read from the way in which they are encoded. -/
theorem decode?_written :
    (∀ project : Project, project.Written project.encode ∧
      ∀ value, project.Written value → decode? value = some (.single project)) ∧
    ∀ projects : Dict Project,
      ProjectsWritten projects (projects.entries.map fun entry => (entry.1, entry.2.encode)) ∧
      ∀ members, ProjectsWritten projects members →
        decode? (.object [("projects", .object members)]) = some (.multi projects) := by
  constructor
  · refine fun project => ⟨project.written_encode, fun value written => ?_⟩
    simp [decode?, decodeMulti?_of_written written, Project.decode?_of_written written]
  · refine fun projects => ⟨projectsWritten_encode projects, ?_⟩
    rintro members ⟨entries, listed, each⟩
    have read : Json.dict? Project.decode? (.object members) = some projects :=
      Json.dict?_of_forall₂ (each.imp fun member entry written =>
        ⟨written.1, Project.decode?_of_written written.2⟩) listed
    simp [decode?, decodeMulti?, Json.valuesOf, read]

/-- A project with a server to ask and with settings for tools. -/
def servedProject : Project where
  schema := .remote "http://localhost" (some ⟨[("Accept", "*"), ("Host", "web")], by decide⟩)
  excluded := some []
  extensions := some ⟨[("depth", .array [.null]), ("ratio", .number (.decimal true 15 (-1)))],
    by decide⟩

/-- The project in old spellings, with all its parts in another order. -/
def servedValue : Json :=
  .object
    [("excludes", .array []),
     ("extensions", .object [("ratio", .number (.decimal true 15 (-1))), ("depth", .array [.null])]),
     ("schemaPath", .object
       [("url", .string "http://localhost"),
        ("headers", .object [("Host", .string "web"), ("Accept", .string "*")])])]

theorem written_servedValue : servedProject.Written servedValue := by
  have headers : List.Perm [("Host", "web"), ("Accept", "*")] [("Accept", "*"), ("Host", "web")] :=
    .swap _ _ _
  have order := @List.perm_append_comm (String × Json)
    [("exclude", .array []),
     ("extensions", .object [("ratio", .number (.decimal true 15 (-1))), ("depth", .array [.null])])]
    [("schema", .object
       [("url", .string "http://localhost"),
        ("headers", .object [("Host", .string "web"), ("Accept", .string "*")])])]
  exact .intro (.serverWith _ headers) (.some (.swap _ _ _)) order
    (.cons ⟨.excluded, rfl⟩ (.cons ⟨.same _, rfl⟩ (.cons ⟨.schema, rfl⟩ .nil)))

theorem decode?_written_served :
    decode? servedValue = some (.single servedProject) ∧
    decode? (.object [("projects", .object [("web", servedValue)])]) =
      some (.multi ⟨[("web", servedProject)], List.pairwise_singleton _ _⟩) := by
  refine ⟨(decode?_written.1 servedProject).2 _ written_servedValue, ?_⟩
  apply (decode?_written.2 _).2
  exact ⟨_, List.Perm.refl _, .cons ⟨rfl, written_servedValue⟩ .nil⟩

end Config

end FieldUsage
