import DesiredState.Journal
import DesiredState.Path.Basic
import DesiredState.Path.Expand

/-!
# Where files are kept

The configuration and the state have a directory each. A variable of its own wins and is
expanded, then the base directory that the desktop names, then a directory below the home
directory.
-/

namespace DesiredState.Path

structure Location where
  /-- The variable that overrides everything. -/
  override : String
  /-- The variable that names the base directory. -/
  base : String
  /-- The components below the home directory. -/
  underHome : List String

def configLocation : Location := ⟨"STRATUS_CONFIG_DIR", "XDG_CONFIG_HOME", [".config"]⟩

def stateLocation : Location := ⟨"STRATUS_STATE_DIR", "XDG_STATE_HOME", [".local", "state"]⟩

/-- The last component of both directories. -/
def applicationName : String := "stratus"

def stateFileName : String := "state.db"

/-- The directory of a location, and the line that tells why; nothing where there is no home. -/
def Location.resolve? (env : Environment) (location : Location) :
    Option (String × List LogLine) :=
  let note (text : String) : LogLine := ⟨.debug, .paths, text⟩
  match env.find? location.override with
  | some dir =>
    let path := expand env dir
    some (path, [note (location.override ++ " set, using " ++ path)])
  | none =>
    match env.find? location.base with
    | some base => some (join base applicationName, [])
    | none =>
      env.home?.map fun home =>
        let path := join (location.underHome.foldl join home) applicationName
        (path, [note ("No " ++ location.override ++ " or " ++ location.base ++ ", using " ++
          path)])

def defaultStateFile? (env : Environment) : Option (String × List LogLine) :=
  (stateLocation.resolve? env).map fun (dir, lines) => (join dir stateFileName, lines)

end DesiredState.Path
