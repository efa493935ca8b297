import DesiredState.Config.Basic
import DesiredState.File.Walk

/-!
# Loading the configuration

A missing file stands for the default configuration.
-/

namespace DesiredState.Config

/-- Why a configuration file was refused. -/
inductive LoadError where
  | unreadable (path : String)
  | invalid (path : String)
  deriving DecidableEq

def LoadError.message : LoadError → String
  | .unreadable path => "Could not read config file: " ++ path
  | .invalid path => invalidMessage path

/-- The configuration in the file at a path, and the lines that tell of it. -/
def load (files : FileTree) (path : String) : Except LoadError (Config × List LogLine) :=
  match files.find? path with
  | none => .ok (default, [⟨.debug, .config, "No config file at " ++ path⟩])
  | some .directory => .error (.unreadable path)
  | some (.file number) =>
    match files.contentOf number with
    | .text content =>
      match parse? content with
      | some c => .ok (c, [])
      | none => .error (.invalid path)
    | _ => .error (.unreadable path)

end DesiredState.Config
