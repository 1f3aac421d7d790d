import FieldUsage.Cli.Command
import FieldUsage.Proofs.Unread

/-!
How a run of the program ends. The first stage that fails decides the code; a target that is not one
is refused before any candidate is looked at. The command prints something only after all stages
have passed, and then it prints the usages.
-/

namespace FieldUsage

namespace ExitCode

open Search

variable {tree : FileTree} {repository : Path} {options : SearchOptions} {raw : Option String}

/-- A code that only some stages have tells that one of them has failed. -/
theorem toNat_ofOutcome_eq_iff {number : Nat} (stages : List Stage) (failure : number ≠ 0)
    (decided : ∀ stage, ∀ code ∈ ofStage stage, code.toNat = number ↔ stage ∈ stages) :
    (ofOutcome (outcome tree repository options raw)).toNat = number ↔
      ∃ stage ∈ stages, ∃ error, FailsAt tree repository options raw stage error := by
  constructor
  · intro same
    cases ended : outcome tree repository options raw with
    | ok usages =>
        rw [ended] at same
        exact absurd same.symm failure
    | error error =>
        rw [ended] at same
        obtain ⟨stage, fails⟩ := outcome_eq_error_iff.1 ended
        exact ⟨stage, (decided stage _ (ofError_mem fails)).1 same, error, fails⟩
  · rintro ⟨stage, member, error, fails⟩
    rw [outcome_eq_error_iff.2 ⟨stage, fails⟩]
    exact (decided stage _ (ofError_mem fails)).2 member

/-- Code 1 tells that a search was set up and its target is none. -/
theorem toNat_ofOutcome_eq_one_iff :
    (ofOutcome (outcome tree repository options raw)).toNat = 1 ↔
      ∃ search error, Ready tree repository options search ∧
        Target.validate search.schema raw = .error error := by
  have decided : ∀ stage, ∀ code ∈ ofStage stage, code.toNat = 1 ↔ stage ∈ [Stage.target] := by
    intro stage
    cases stage <;> decide
  rw [toNat_ofOutcome_eq_iff [.target] (by decide) decided]
  constructor
  · rintro ⟨stage, member, error, fails⟩
    obtain rfl := List.mem_singleton.1 member
    cases fails with
    | setup failed => cases failed
    | target ready failed => exact ⟨_, _, ready, failed⟩
  · rintro ⟨search, error, ready, failed⟩
    exact ⟨.target, List.mem_singleton_self _, _, .target ready failed⟩

/-- Code 2 tells that a stage of the setup failed, other than the schema. -/
theorem toNat_ofOutcome_eq_two_iff :
    (ofOutcome (outcome tree repository options raw)).toNat = 2 ↔
      ∃ stage ∈ [Stage.repository, .config, .project, .extractConfig, .patterns],
        ∃ error, FailsAt tree repository options raw stage error := by
  apply toNat_ofOutcome_eq_iff _ (by decide)
  intro stage
  cases stage <;> decide

/-- Code 3 tells that the schema could not be loaded. -/
theorem toNat_ofOutcome_eq_three_iff :
    (ofOutcome (outcome tree repository options raw)).toNat = 3 ↔
      ∃ error, FailsAt tree repository options raw .schema error := by
  have decided : ∀ stage, ∀ code ∈ ofStage stage, code.toNat = 3 ↔ stage ∈ [Stage.schema] := by
    intro stage
    cases stage <;> decide
  rw [toNat_ofOutcome_eq_iff [.schema] (by decide) decided]
  simp

/-- Candidates are looked at only for a target. -/
theorem exists_aimed_of_failsAt {stage : Stage} {error : SearchError}
    (fails : FailsAt tree repository options raw stage error)
    (late : stage = .walk ∨ stage = .files) :
    ∃ search target, Aimed tree repository options raw search target := by
  cases fails with
  | setup failed => cases failed <;> simp at late
  | target => simp at late
  | walk aimed => exact ⟨_, _, aimed⟩
  | files located => exact ⟨_, _, located.aimed⟩

/-- Codes 4 and 5 tell that a search was set up and had a target. -/
theorem exists_aimed_of_toNat
    (late : (ofOutcome (outcome tree repository options raw)).toNat = 4 ∨
      (ofOutcome (outcome tree repository options raw)).toNat = 5) :
    ∃ search target, Aimed tree repository options raw search target := by
  cases ended : outcome tree repository options raw with
  | ok usages =>
      rw [ended] at late
      cases late <;> contradiction
  | error error =>
      rw [ended] at late
      obtain ⟨stage, fails⟩ := outcome_eq_error_iff.1 ended
      apply exists_aimed_of_failsAt fails
      have decided : ∀ code ∈ ofStage stage, code.toNat = 4 ∨ code.toNat = 5 →
          stage = .walk ∨ stage = .files := by
        cases stage <;> decide
      exact decided _ (ofError_mem fails) late

end ExitCode

namespace Cli

/-- What a request and the options of the command ask for. -/
def Request.options (request : Request) (arguments : Arguments) : SearchOptions :=
  { config := arguments.config, project := request.project, extensions := arguments.extensions }

/-- A request as a whole search. -/
def Request.outcome (tree : FileTree) (arguments : Arguments) (request : Request) :
    Except SearchError (List Usage) :=
  Search.outcome tree request.repository (request.options arguments) request.target

/-- The command runs the stages of a search. -/
theorem search_eq_outcome (tree : FileTree) (arguments : Arguments) (request : Request) :
    search tree arguments request = request.outcome tree arguments := rfl

theorem exists_request (current : Path) (home : Option Path) {positional : List String}
    (count : positional.length = 0 ∨ positional.length = 1 ∨ positional.length = 3) :
    ∃ request, Request.ofArguments current home positional = .ok request := by
  match positional, count with
  | [], _ => exact ⟨_, rfl⟩
  | [_], _ => exact ⟨_, rfl⟩
  | [_, _, _], _ => exact ⟨_, rfl⟩

theorem run_of_request {tree : FileTree} {environment : Environment} {texts : List String}
    {arguments : Arguments} {request : Request} (parsed : Arguments.parse texts = .ok arguments)
    (requested : Request.ofArguments (FileTree.absolute tree.current) environment.home
      arguments.positional = .ok request) :
    run tree environment texts =
      match request.outcome tree arguments with
      | .ok usages => { code := 0, output := Usage.render usages arguments.format }
      | .error error => .ofError (colored environment arguments) error := by
  unfold run
  rw [parsed]
  simp only [requested]
  rw [search_eq_outcome]
  rfl

/-- No error ends with the code of success. -/
theorem toNat_ofError_ne_zero (error : SearchError) : (ExitCode.ofError error).toNat ≠ 0 := by
  unfold ExitCode.ofError
  split <;> decide

/-- How a search ends is decided by the first stage that fails, if one does, and by its code. With
code 1, everything before the target is in order and the target is not; then it is the same whatever
files there are besides the configuration and the schema. With code 3, the schema fails, with code 2
another stage before the target, and codes 4 and 5 come after the target. The command ends with the
code of the search, and prints the usages if it has any: else it prints nothing and does not end
with 0. -/
theorem run_decided_by_first_failure (tree : FileTree) :
    (∀ (repository : Path) (options : SearchOptions) (raw : Option String),
      let outcome := Search.outcome tree repository options raw
      let number := (ExitCode.ofOutcome outcome).toNat
      (∀ usages, outcome = .ok usages ↔ Search.Completes tree repository options raw usages) ∧
      (∀ error, outcome = .error error ↔
        ∃ stage, Search.FailsAt tree repository options raw stage error) ∧
      (number = 1 ↔ ∃ search error, Search.Ready tree repository options search ∧
        Target.validate search.schema raw = .error error) ∧
      (number = 1 → ∀ other hidden, other.without hidden = tree.without hidden →
        Search.Unread tree hidden repository options →
        Search.Unread other hidden repository options →
        Search.outcome other repository options raw = outcome) ∧
      (number = 2 ↔ ∃ stage ∈ [Stage.repository, .config, .project, .extractConfig, .patterns],
        ∃ error, Search.FailsAt tree repository options raw stage error) ∧
      (number = 3 ↔ ∃ error, Search.FailsAt tree repository options raw .schema error) ∧
      (number = 4 ∨ number = 5 →
        ∃ search target, Search.Aimed tree repository options raw search target)) ∧
    (∀ (environment : Environment) (texts : List String) (arguments : Arguments),
      Arguments.parse texts = .ok arguments →
      (arguments.positional.length = 0 ∨ arguments.positional.length = 1 ∨
        arguments.positional.length = 3) →
      ∃ request, Request.ofArguments (FileTree.absolute tree.current) environment.home
          arguments.positional = .ok request ∧
        let ended := run tree environment texts
        ended.code = (ExitCode.ofOutcome (request.outcome tree arguments)).toNat ∧
        (∀ usages, Search.Completes tree request.repository (request.options arguments)
          request.target usages →
          ended = { code := 0, output := Usage.render usages arguments.format }) ∧
        (ended.code = 0 ∨ ended.output ≠ "" →
          ∃ usages, Search.Completes tree request.repository (request.options arguments)
            request.target usages)) := by
  constructor
  · intro repository options raw outcome number
    refine ⟨fun usages => Search.outcome_eq_ok_iff, fun error => Search.outcome_eq_error_iff,
      ExitCode.toNat_ofOutcome_eq_one_iff, ?_, ExitCode.toNat_ofOutcome_eq_two_iff,
      ExitCode.toNat_ofOutcome_eq_three_iff, ExitCode.exists_aimed_of_toNat⟩
    intro one other hidden same unread others
    obtain ⟨search, error, ready, invalid⟩ := ExitCode.toNat_ofOutcome_eq_one_iff.1 one
    rw [Search.outcome_of_invalid (unread.ready others same ready) invalid]
    exact (Search.outcome_of_invalid ready invalid).symm
  · intro environment texts arguments parsed count
    obtain ⟨request, requested⟩ :=
      exists_request (FileTree.absolute tree.current) environment.home count
    refine ⟨request, requested, ?_⟩
    simp only [run_of_request parsed requested]
    cases ended : request.outcome tree arguments with
    | ok usages =>
        have completes := Search.outcome_eq_ok_iff.1 ended
        refine ⟨rfl, fun usages' completes' => ?_, fun _ => ⟨usages, completes⟩⟩
        have same := Search.outcome_eq_ok_iff.2 completes'
        obtain rfl := Except.ok.inj (ended.symm.trans same)
        rfl
    | error error =>
        refine ⟨rfl, fun usages completes => ?_, fun printed => ?_⟩
        · have same := Search.outcome_eq_ok_iff.2 completes
          cases ended.symm.trans same
        · rcases printed with zero | text
          · exact absurd zero (toNat_ofError_ne_zero error)
          · exact absurd rfl text

/-- A repository with a schema and a source file. -/
def sourceTree (source : ByteArray) : FileTree :=
  { root :=
      [("repo", .directory
        [(".graphqlrc.json", .file "\x7b\"schema\":\"s.graphql\"\x7d".toUTF8),
         ("s.graphql", .file "type Query\x7ba:Int\x7d".toUTF8),
         ("b.ts", .file source)])] }

def sourceOptions : SearchOptions := { project := some "default" }

/-- The place of the source file. -/
def isSource (names : List String) : Bool := names == ["repo", "b.ts"]

section Source

variable {source : ByteArray}
  (found : (Search.configPath (sourceTree source) "repo" sourceOptions).toOption =
    some "repo/.graphqlrc.json")
  (plain : (Config.load (sourceTree source) "repo/.graphqlrc.json").toOption.any (fun config =>
    (config.select sourceOptions.project).toOption.any (·.2.isPlain "s.graphql")) = true)
include found plain

theorem selected_sourceTree :
    ∃ project, Search.Selected (sourceTree source) "repo" sourceOptions "repo/.graphqlrc.json"
      project ∧ project.isPlain "s.graphql" = true :=
  Search.exists_selected_of_isPlain rfl (Search.eq_ok_of_toOption found) plain

theorem unread_sourceTree
    (hides : (sourceTree source).hidesFiles isSource = true)
    (config : ∀ path ∈ Search.configCandidates "repo" sourceOptions,
      (sourceTree source).leadsTo isSource path = false)
    (expanded : (Glob.expand (sourceTree source) "repo/s.graphql").toOption =
      some ["repo/s.graphql"])
    (schema : (sourceTree source).leadsTo isSource "repo/s.graphql" = false) :
    Search.Unread (sourceTree source) isSource "repo" sourceOptions := by
  obtain ⟨project, selected, plain⟩ := selected_sourceTree found plain
  obtain ⟨-, single, -⟩ := Project.isPlain_iff.1 plain
  refine ⟨hides, config, ?_⟩
  intro path project' selected' pattern known files listed file member
  obtain ⟨rfl, rfl⟩ := selected.unique selected'
  rw [single, List.mem_singleton] at known
  subst known
  have joined : (Search.baseDirectory "repo" "repo/.graphqlrc.json").join "s.graphql" =
      "repo/s.graphql" := by decide
  rw [joined, Search.eq_ok_of_toOption expanded] at listed
  obtain rfl := Except.ok.inj listed
  obtain rfl := List.mem_singleton.1 member
  exact schema

end Source

/-- The field is not in the schema, so neither a source file that is not written in its language
matters, nor one that is no text. -/
theorem run_decided_by_first_failure_source :
    (run (sourceTree "gql`".toUTF8) {} ["repo", "default", "Query.b"]).code = 1 ∧
      Search.outcome (sourceTree ⟨#[255]⟩) "repo" sourceOptions (some "Query.b") =
        Search.outcome (sourceTree "gql`".toUTF8) "repo" sourceOptions (some "Query.b") := by
  have parsed : Arguments.parse ["repo", "default", "Query.b"] =
      .ok { positional := ["repo", "default", "Query.b"] } := rfl
  obtain ⟨stages, command⟩ := run_decided_by_first_failure (sourceTree "gql`".toUTF8)
  obtain ⟨request, requested, code, -⟩ := command {} _ _ parsed (.inr (.inr rfl))
  obtain rfl := Except.ok.inj requested
  obtain ⟨steps, read, unknown⟩ : ∃ steps,
      Schema.stepsOfFile (sourceTree "gql`".toUTF8) "repo/s.graphql" = .ok steps ∧
        (Target.validate (Schema.ofSteps steps) (some "Query.b")).toOption.isNone = true :=
    exists_ok_of_any (by decide +kernel)
  have matched : Schema.matchedFiles (sourceTree "gql`".toUTF8)
      (Search.baseDirectory "repo" "repo/.graphqlrc.json") "s.graphql" = .ok ["repo/s.graphql"] :=
    Search.eq_ok_of_toOption (by decide +kernel)
  obtain ⟨project, selected, plain⟩ : ∃ project, Search.Selected (sourceTree "gql`".toUTF8) "repo"
      sourceOptions "repo/.graphqlrc.json" project ∧ project.isPlain "s.graphql" = true :=
    selected_sourceTree (by decide +kernel) (by decide +kernel)
  have ready := Search.ready_of_isPlain selected plain matched read
  have one : (ExitCode.ofOutcome (Search.outcome (sourceTree "gql`".toUTF8) "repo" sourceOptions
      (some "Query.b"))).toNat = 1 := by
    apply (stages _ _ _).2.2.1.2
    cases validated : Target.validate (Schema.ofSteps steps) (some "Query.b") with
    | ok target =>
        rw [validated] at unknown
        cases unknown
    | error error => exact ⟨_, error, ready, validated⟩
  refine ⟨code.trans one, (stages _ _ _).2.2.2.1 one _ isSource rfl ?_ ?_⟩
  all_goals apply unread_sourceTree <;> decide +kernel

end Cli

end FieldUsage
