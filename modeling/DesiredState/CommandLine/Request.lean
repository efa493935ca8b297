import DesiredState.CommandLine.Arguments
import DesiredState.Path.Expand

/-!
# Requests

What the program is asked to do: a command with its options, and options that may stand before or
after the name of the command. Two options can also be given by variables.
-/

namespace DesiredState.CommandLine

def programName : String := "stratus"

def programVersion : String := "0.1.0"

inductive Job where
  | list
  | info (deployment : Option String)
  | exportBackup (deployment : Option String)
  | importBackup
  | create (name : Option String)
  | delete (deployment : Option String) (force yes : Bool)
  | rename (deployment : Option String) (source target : String)
  | purge (deployment : Option String) (resource : String) (yes : Bool)
  | completions (shell : String)
  deriving DecidableEq

/-- A command together with the options that every command has. -/
structure Request where
  verbosity : Nat
  quiet : Bool
  stateFile : Option String
  command : Job
  deriving DecidableEq

inductive Reading where
  | run (request : Request)
  | help
  /-- Show the version under a name. -/
  | version (name : String)
  | usage (reason : String)
  deriving DecidableEq

def globalOptions : List OptionSpec :=
  [⟨"verbose", some 'v', .counted⟩, ⟨"quiet", some 'q', .switch⟩, ⟨"state", none, .filled⟩]

def deploymentOption : OptionSpec := ⟨"deployment", some 'd', .valued⟩

def yesOption : OptionSpec := ⟨"yes", some 'y', .switch⟩

def shells : List String := ["bash", "elvish", "fish", "powershell", "zsh"]

/-- The options and the number of words of each command. -/
def commandSpecs : List (String × List OptionSpec × Nat) :=
  [("list", [], 0),
    ("info", [deploymentOption], 0),
    ("export", [deploymentOption], 0),
    ("import", [], 0),
    ("create", [⟨"name", some 'n', .valued⟩], 0),
    ("delete", [deploymentOption, ⟨"force", none, .switch⟩, yesOption], 0),
    ("rename", [deploymentOption], 2),
    ("purge", [deploymentOption, yesOption], 1),
    ("completions", [], 1)]

def commandNames : List String := commandSpecs.map Prod.fst

def helpName : String := "help"

def rootSpec : LevelSpec := ⟨globalOptions, commandNames ++ [helpName], 0, none⟩

def commandSpec (name : String) : LevelSpec :=
  let (options, words) := ((commandSpecs.find? fun spec => spec.1 = name).map Prod.snd).getD ([], 0)
  ⟨options ++ globalOptions, [], words, if name = "completions" then some shells else none⟩

/-- The command that was found on its level; all of its words must be there. -/
def commandOf? (name : String) (deployment : Option String) (l : Level) : Option Job :=
  let yes := 0 < l.count "yes"
  match name, l.words with
  | "list", [] => some .list
  | "info", [] => some (.info deployment)
  | "export", [] => some (.exportBackup deployment)
  | "import", [] => some .importBackup
  | "create", [] => some (.create (l.value? "name"))
  | "delete", [] => some (.delete deployment (0 < l.count "force") yes)
  | "rename", [source, target] => some (.rename deployment source target)
  | "purge", [resource] => some (.purge deployment resource yes)
  | "completions", [shell] => some (.completions shell)
  | _, _ => none

def stateVariable : String := "STRATUS_STATE"

def deploymentVariable : String := "STRATUS_DEPLOYMENT"

/-- The request of a command line whose two levels were read. Options of the command win over
those before its name, and both over variables. -/
def requestOf (env : Path.Environment) (root : Level) (name : String) (l : Level) : Reading :=
  let named := env.find? stateVariable
  if named = some "" ∧ ((root.value? "state").isNone ∨ (l.value? "state").isNone) then
    .usage "a value is required for '--state' but none was supplied"
  else
    match commandOf? name ((l.value? "deployment").or (env.find? deploymentVariable)) l with
    | none => .usage "required arguments were not provided"
    | some command => .run {
        verbosity := if l.count "verbose" = 0 then root.count "verbose" else l.count "verbose"
        quiet := 0 < root.count "quiet" ∨ 0 < l.count "quiet"
        stateFile := ((l.value? "state").or (root.value? "state")).or named
        command := command }

/-- What reading a level that ended early asks for. -/
def Stop.reading (name : String) : Stop → Reading
  | .usage reason => .usage reason
  | .help => .help
  | .version => .version name

/-- What is asked for after the name of the help command: help on a command, or on all. -/
def helpOn : List String → Reading
  | [] => .help
  | [name] =>
    if rootSpec.below.contains name then .help
    else .usage ("unrecognized subcommand '" ++ name ++ "'")
  | _ :: name :: _ => .usage ("unrecognized subcommand '" ++ name ++ "'")

def read (env : Path.Environment) (arguments : List String) : Reading :=
  match readLevel rootSpec .empty none arguments with
  | .error stop => stop.reading programName
  | .ok (_, none) => .usage "a subcommand is required but one was not provided"
  | .ok (root, some (name, rest)) =>
    if name = helpName then helpOn rest
    else
      match readLevel (commandSpec name) .empty none rest with
      | .error stop => stop.reading (programName ++ "-" ++ name)
      | .ok (l, _) => requestOf env root name l

end DesiredState.CommandLine
