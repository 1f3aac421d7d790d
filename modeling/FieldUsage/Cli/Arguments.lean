import FieldUsage.Path
import FieldUsage.Text.Bytes
import FieldUsage.Usage

/-!
The arguments of the command. Options may stand anywhere; what follows `--` is no option. An option
that takes a value has it behind `=`, as the next argument, or, after a short name, at once.
-/

namespace FieldUsage.Cli

inductive Flag where
  | config
  | format
  | extensions
  | verbose
  | color
  | noColor
  | noProgress
  | help
  | version
deriving DecidableEq, Repr

namespace Flag

def all : List Flag :=
  [.config, .format, .extensions, .verbose, .color, .noColor, .noProgress, .help, .version]

def longName : Flag → String
  | .config => "config"
  | .format => "format"
  | .extensions => "extensions"
  | .verbose => "verbose"
  | .color => "color"
  | .noColor => "no-color"
  | .noProgress => "no-progress"
  | .help => "help"
  | .version => "version"

def shortName? : Flag → Option Char
  | .config => some 'c'
  | .format => some 'f'
  | .extensions => some 'e'
  | .verbose => some 'v'
  | .help => some 'h'
  | .version => some 'V'
  | .color | .noColor | .noProgress => none

def valueName? : Flag → Option String
  | .config => some "FILE"
  | .format => some "FORMAT"
  | .extensions => some "LIST"
  | _ => none

def display (flag : Flag) : String :=
  "--" ++ flag.longName ++ (flag.valueName?.elim "" fun name => " <" ++ name ++ ">")

def ofLong? (name : String) : Option Flag := all.find? fun flag => flag.longName = name

def ofShort? (name : Char) : Option Flag := all.find? fun flag => flag.shortName? = some name

end Flag

inductive UsageError where
  | unknown (argument : String)
  | valueRequired (flag : Flag)
  | invalidValue (value : String) (flag : Flag)
  | unexpectedValue (value : String) (flag : Flag)
  | repeated (flag : Flag)
  | conflict (first second : Flag)
  | twoArguments
  | tooManyArguments (count : Nat)
deriving DecidableEq, Repr

def UsageError.message : UsageError → String
  | .unknown argument => "unexpected argument '" ++ argument ++ "' found"
  | .valueRequired flag =>
      "a value is required for '" ++ flag.display ++ "' but none was supplied"
  | .invalidValue value flag => "invalid value '" ++ value ++ "' for '" ++ flag.display ++ "'"
  | .unexpectedValue value flag =>
      "unexpected value '" ++ value ++ "' for '" ++ flag.display ++ "' found; no more were expected"
  | .repeated flag => "the argument '" ++ flag.display ++ "' cannot be used multiple times"
  | .conflict first second =>
      "the argument '" ++ first.display ++ "' cannot be used with '" ++ second.display ++ "'"
  | .twoArguments =>
      "expected <REPO> <PROJECT> <Type.field> or a single <Type.field>, got two arguments"
  | .tooManyArguments count => "expected at most three arguments, got " ++ toString count

structure Arguments where
  positional : List String := []
  config : Option Path := none
  format : OutputFormat := .standard
  extensions : List String := []
  /-- The options that were given, in order. -/
  given : List Flag := []
deriving Repr

inductive Stop where
  | help
  | version
  | usage (error : UsageError)
deriving Repr

/-- An option that still waits for its value, or whose value has not been looked at yet. -/
abbrev Pending := Option (Flag × Option String)

namespace Arguments

/-- The arguments with one more option. Only extensions may be given more than once. -/
def record (arguments : Arguments) (flag : Flag) : Except Stop Arguments :=
  if arguments.given.contains flag ∧ flag ≠ .extensions then .error (.usage (.repeated flag))
  else .ok { arguments with given := arguments.given ++ [flag] }

def commaSeparated (text : String) : List String :=
  (Text.splitAtEvery ',' text.toList).map String.ofList

def store (arguments : Arguments) (flag : Flag) (value : String) : Except Stop Arguments := do
  let arguments ← arguments.record flag
  match flag with
  | .config =>
      if value.isEmpty then throw (.usage (.valueRequired flag))
      return { arguments with config := some value }
  | .format =>
      match value with
      | "line" => return { arguments with format := .line }
      | "anchor" => return { arguments with format := .anchor }
      | "" => throw (.usage (.valueRequired flag))
      | other => throw (.usage (.invalidValue other flag))
  | .extensions =>
      return { arguments with extensions := arguments.extensions ++ commaSeparated value }
  | _ => return arguments

def settle (arguments : Arguments) : Pending → Except Stop Arguments
  | none => .ok arguments
  | some (flag, none) => .error (.usage (.valueRequired flag))
  | some (flag, some value) => arguments.store flag value

/-- The arguments with an option that takes no value. -/
def switch (arguments : Arguments) (flag : Flag) : Except Stop Arguments :=
  match flag with
  | .help => .error .help
  | .version => .error .version
  | flag => arguments.record flag

def long (arguments : Arguments) (pending : Pending) (text : List Char) :
    Except Stop (Arguments × Pending) := do
  let (name, value) := match Text.splitAtFirst '=' text with
    | some (name, value) => (String.ofList name, some (String.ofList value))
    | none => (String.ofList text, none)
  match Flag.ofLong? name with
  | none => throw (.usage (.unknown ("--" ++ name)))
  | some flag =>
      match flag.valueName?, value with
      | some _, some value => return (← (← arguments.settle pending).store flag value, none)
      | some _, none => return (← arguments.settle pending, some (flag, none))
      | none, some value => throw (.usage (.unexpectedValue value flag))
      | none, none => return (← (← arguments.settle pending).switch flag, none)

def short (arguments : Arguments) (pending : Pending) : List Char →
    Except Stop (Arguments × Pending)
  | [] => .ok (arguments, pending)
  | name :: rest =>
      match Flag.ofShort? name with
      | none => .error (.usage (.unknown (String.ofList ['-', name])))
      | some flag => do
          let arguments ← arguments.settle pending
          if flag.valueName?.isSome then
            match rest with
            | [] => return (arguments, some (flag, none))
            | '=' :: value => return (← arguments.store flag (String.ofList value), none)
            | value => return (← arguments.store flag (String.ofList value), none)
          else short (← arguments.switch flag) none rest

/-- Reads arguments. `options` says whether options may still come. -/
def read (arguments : Arguments) (pending : Pending) (options : Bool) :
    List String → Except Stop Arguments
  | [] => arguments.settle pending
  | argument :: rest =>
      let positional : Except Stop Arguments := do
        let arguments ← arguments.settle pending
        read { arguments with positional := arguments.positional ++ [argument] } none options rest
      if !options then positional
      else
        match argument.toList with
        | ['-', '-'] => read arguments pending false rest
        | '-' :: '-' :: text => do
            let (arguments, pending) ← arguments.long pending text
            read arguments pending true rest
        | '-' :: first :: text => do
            let (arguments, pending) ← arguments.short pending (first :: text)
            read arguments pending true rest
        | _ =>
            match pending with
            | some (flag, none) => read arguments (some (flag, some argument)) true rest
            | _ => positional

/-- The two options that exclude each other, in the order in which they were given. -/
def conflict? (arguments : Arguments) : Option UsageError :=
  match arguments.given.filter fun flag => flag = .color ∨ flag = .noColor with
  | first :: second :: _ => some (.conflict first second)
  | _ => none

def parse (texts : List String) : Except Stop Arguments := do
  let arguments ← read {} none true texts
  match arguments.conflict? with
  | some error => throw (.usage error)
  | none => return arguments

end Arguments

end FieldUsage.Cli
