import DesiredState.KeyMap

/-!
# The environment of a process

A process has variables and belongs to an account, whose home directory stands in where no
variable names one.
-/

namespace DesiredState.Path

structure Environment where
  /-- The values of its variables. -/
  values : KeyMap String
  /-- The home directory of the account, if it has one. -/
  accountHome : Option String

namespace Environment

def ofAccount (home : Option String) : Environment := ⟨.empty, home⟩

def rest? : List Char → List Char → Option (List Char)
  | [], value => some value
  | _ :: _, [] => none
  | c :: start, d :: value => if c = d then rest? start value else none

/-- The value of a variable that is set. Variables are kept as `NAME=value`, so whoever asks for
`NAME=start` learns what follows `start=` in the value of `NAME`. -/
def find? (env : Environment) (name : String) : Option String :=
  match name.toList.dropWhile (· ≠ '=') with
  | [] => env.values.find? name
  | _ :: start => do
    let value ← env.values.find? (String.ofList (name.toList.takeWhile (· ≠ '=')))
    String.ofList <$> rest? (start ++ ['=']) value.toList

def set (env : Environment) (name value : String) : Environment :=
  { env with values := env.values.insert name value }

def unset (env : Environment) (name : String) : Environment :=
  { env with values := env.values.erase name }

def homeVariable : String := "HOME"

/-- The home directory; an empty one in the variable does not count. -/
def home? (env : Environment) : Option String :=
  ((env.find? homeVariable).filter (· ≠ "")).or env.accountHome

end Environment

end DesiredState.Path
