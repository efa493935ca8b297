import DesiredState.Path.Expand

/-!
# Whether there are colours

What a run shows goes to no terminal, so nothing is coloured unless a variable asks for it. What
is shown is coloured unless the variable is a zero, the log unless it is empty. The variable that
refuses colours is heeded by the log only, and not when it is empty.
-/

namespace DesiredState.CommandLine

def colourVariable : String := "CLICOLOR_FORCE"

def noColourVariable : String := "NO_COLOR"

structure Colouring where
  output : Bool
  log : Bool
  deriving DecidableEq, Repr

namespace Colouring

/-- Whether a variable is set to something else than a text. -/
def isOtherThan (text name : String) (env : Path.Environment) : Bool :=
  (env.find? name).any (· ≠ text)

def ofEnvironment (env : Path.Environment) : Colouring where
  output := isOtherThan "0" colourVariable env
  log := isOtherThan "" colourVariable env && ¬ isOtherThan "" noColourVariable env

end Colouring

end DesiredState.CommandLine
