import DesiredState.Config.Reader
import DesiredState.Path.Location

/-!
# Configuration

A user may choose a state file and a deployment in a configuration file. What is given on the
command line comes first, then the file, then the default. A file with any other key, a repeated
key or a value that is no text is refused as a whole.
-/

namespace DesiredState

structure Config where
  stateFile : Option String
  deployment : Option String
  deriving DecidableEq

namespace Config

def default : Config := ⟨none, none⟩

def fileName : String := "config.toml"

/-- Take over one choice; each can be made once. -/
def choose? (c : Config) (pair : String × String) : Option Config :=
  match pair with
  | ("state_file", value) =>
    if c.stateFile.isSome then none else some { c with stateFile := some value }
  | ("deployment", value) =>
    if c.deployment.isSome then none else some { c with deployment := some value }
  | _ => none

/-- The choices in a file's text. -/
def parse? (text : String) : Option Config := do
  let pairs ← pairsOf? text
  pairs.foldlM choose? default

/-- The state file: the one given, then the chosen one expanded, then the default. -/
def stateFile? (c : Config) (env : Path.Environment) (given : Option String) :
    Option (String × List LogLine) :=
  match given, c.stateFile with
  | some path, _ => some (path, [])
  | none, some path => some (Path.expand env path, [])
  | none, none => Path.defaultStateFile? env

/-- The deployment: the one given, then the chosen one. -/
def deployment? (c : Config) (given : Option String) : Option String := given.or c.deployment

def noHomeMessage : String := "Could not determine home directory"

def noDeploymentMessage : String :=
  "No deployment selected. Pass -d <uuid|name>, set STRATUS_DEPLOYMENT or add " ++
    "\x60deployment\x60 to " ++ fileName

/-- What to say about a file that is refused. -/
def invalidMessage (path : String) : String := "Invalid TOML format in " ++ path

end Config

end DesiredState
