import DesiredState.Json.Basic
import DesiredState.Terminal.Style

/-!
# Lifecycle status

Each status has an ordinal, which is how it is stored, a word, which is how it is shown, and a
capitalised tag, which is its JSON form.
-/

namespace DesiredState

/-- Where a resource stands in its life. A resource never heard of is missing. -/
inductive Status where
  | unknown
  | missing
  | starting
  | up
  | stopping
  | stopped
  | unreachable
  | rescue
  deriving DecidableEq, Repr, Inhabited

namespace Status

def all : List Status := [unknown, missing, starting, up, stopping, stopped, unreachable, rescue]

/-- The status of a resource that was never created. -/
def initial : Status := missing

def ordinal : Status → Int
  | unknown => 0
  | missing => 1
  | starting => 2
  | up => 3
  | stopping => 4
  | stopped => 5
  | unreachable => 6
  | rescue => 7

def ofOrdinal? (i : Int) : Option Status := all.find? fun status => status.ordinal = i

def text : Status → String
  | unknown => "unknown"
  | missing => "missing"
  | starting => "starting"
  | up => "up"
  | stopping => "stopping"
  | stopped => "stopped"
  | unreachable => "unreachable"
  | rescue => "rescue"

def ofText? (word : String) : Option Status := all.find? fun status => status.text = word

def tag : Status → String
  | unknown => "Unknown"
  | missing => "Missing"
  | starting => "Starting"
  | up => "Up"
  | stopping => "Stopping"
  | stopped => "Stopped"
  | unreachable => "Unreachable"
  | rescue => "Rescue"

def ofTag? (tag : String) : Option Status := all.find? fun status => status.tag = tag

/-- A status is written as its tag, or as an object whose only key is the tag and holds `null`. -/
def ofJson? : Json → Option Status
  | .str tag => ofTag? tag
  | .obj [(tag, .null)] => ofTag? tag
  | _ => none

/-- How a status stands out in a terminal: by how settled it is. -/
def style : Status → Terminal.Style
  | up => .green
  | missing | stopped => .dim
  | starting | stopping => .yellow
  | unknown | unreachable | rescue => .red

def label (status : Status) (coloured : Bool) : String := status.style.paint coloured status.text

theorem ofOrdinal?_ordinal (status : Status) : ofOrdinal? status.ordinal = some status := by
  cases status <;> rfl

end Status

end DesiredState
