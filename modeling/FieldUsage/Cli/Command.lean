import FieldUsage.Cli.Arguments
import FieldUsage.Search

/-!
The command. With a repository, a project and a field it searches the repository for the field;
with a field alone it searches the current directory. Nothing is printed unless the whole search
succeeds.
-/

namespace FieldUsage.Cli

def commandName : String := "graphql-field-finder"

def commandVersion : String := "0.1.0"

def usage : String :=
  "Usage: " ++ commandName ++ " [OPTIONS] <REPO> <PROJECT> <Type.field>\n" ++
  "       " ++ commandName ++ " [OPTIONS] <Type.field>\n"

def helpText : String :=
  "List the GraphQL queries in a TypeScript/JavaScript codebase that select a schema field\n\n" ++
  usage ++
  "\nArguments:\n" ++
  "  [ARGS]...  Repository path, graphql-config project and `Type.field`, or only `Type.field`\n" ++
  "\nOptions:\n" ++
  "  -c, --config <FILE>      Path to GraphQL config file\n" ++
  "  -f, --format <FORMAT>    Output format [default: line] [possible values: line, anchor]\n" ++
  "  -e, --extensions <LIST>  Candidate file extensions, comma separated (default: ts,tsx)\n" ++
  "  -v, --verbose            Write debug logs to stderr\n" ++
  "      --color              Force colored output even when not a TTY\n" ++
  "      --no-color           Disable colored output\n" ++
  "      --no-progress        Suppress progress indicators (spinners)\n" ++
  "  -h, --help               Print help\n" ++
  "  -V, --version            Print version\n"

structure Environment where
  /-- The home directory of the user. -/
  home : Option Path := none
  /-- `NO_COLOR` -/
  noColor : Option String := none
  /-- `CLICOLOR_FORCE` -/
  forceColor : Option String := none
deriving Repr

structure Request where
  repository : Path
  project : Option String := none
  target : Option String := none
deriving Repr

def expandHome (home : Option Path) (path : Path) : Path :=
  match home, path.toList with
  | some home, ['~'] => home
  | some home, '~' :: '/' :: rest => home.join (String.ofList rest)
  | _, _ => path

/-- The request of positional arguments. Without any, the missing field is for the search to
report. -/
def Request.ofArguments (current : Path) (home : Option Path) :
    List String → Except UsageError Request
  | [] => .ok { repository := current }
  | [target] => .ok { repository := current, target := some target }
  | [_, _] => .error .twoArguments
  | [repository, project, target] =>
      .ok
        { repository := expandHome home repository
          project := some project
          target := some target }
  | more => .error (.tooManyArguments more.length)

structure Outcome where
  code : Nat
  output : String := ""
  errors : String := ""
deriving DecidableEq, Repr

def Environment.wantsColor (environment : Environment) : Bool :=
  environment.noColor.isNone && environment.forceColor.any (· != "0")

/-- Whether messages of a search are colored. -/
def colored (environment : Environment) (arguments : Arguments) : Bool :=
  if arguments.given.contains .color then true
  else if arguments.given.contains .noColor then false
  else environment.wantsColor

def emphasized (word : String) : String := "\x1b[1;31m" ++ word ++ "\x1b[0m"

def Outcome.ofError (color : Bool) (error : SearchError) : Outcome :=
  let label := if color then emphasized "error:" else "error:"
  { code := (ExitCode.ofError error).toNat, errors := label ++ " " ++ error.message ++ "\n" }

def Outcome.ofUsage (environment : Environment) (error : UsageError) : Outcome :=
  let color := environment.noColor.all (·.isEmpty) && environment.forceColor.any (· != "0")
  let label := if color then "\x1b[1m\x1b[31merror:\x1b[0m" else "error:"
  { code := 2
    errors := label ++ " " ++ error.message ++ "\n\n" ++ usage ++
      "\nFor more information, try '--help'.\n" }

def search (tree : FileTree) (arguments : Arguments) (request : Request) :
    Except SearchError (List Usage) := do
  let options : SearchOptions :=
    { config := arguments.config, project := request.project, extensions := arguments.extensions }
  let search ← (Search.setup tree request.repository options).mapError .setup
  search.run tree request.target

def run (tree : FileTree) (environment : Environment) (texts : List String) : Outcome :=
  match Arguments.parse texts with
  | .error .help => { code := 0, output := helpText }
  | .error .version => { code := 0, output := commandName ++ " " ++ commandVersion ++ "\n" }
  | .error (.usage error) => .ofUsage environment error
  | .ok arguments =>
      let current := FileTree.absolute tree.current
      match Request.ofArguments current environment.home arguments.positional with
      | .error error => .ofUsage environment error
      | .ok request =>
          match search tree arguments request with
          | .ok usages =>
              { code := ExitCode.success.toNat, output := Usage.render usages arguments.format }
          | .error error => .ofError (colored environment arguments) error

end FieldUsage.Cli
