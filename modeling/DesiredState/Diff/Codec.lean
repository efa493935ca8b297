import DesiredState.Diff.Compute
import DesiredState.Failure.Codec

/-!
# The JSON form of differences and of what references lead to
-/

namespace DesiredState

def Diff.Desired.toJson : Diff.Desired → Json
  | .value v => .obj [("value", v)]
  | .pending target => .obj [("pending", .str target.text)]

/-- The JSON form of a change; what is not recorded or not wanted is left out. -/
def Diff.Entry.toJson (e : Diff.Entry) : Json :=
  .obj ([("key", .str e.key), ("kind", .str e.kind.text), ("text", .str e.text)] ++
    (e.current.map fun v => ("current", v)).toList ++
    (e.desired.map fun wanted => ("desired", wanted.toJson)).toList)

/-- The JSON form of what a reference leads to. -/
def Resolution.toJson : Resolution → Json
  | .ready v => .obj [("ready", v)]
  | .pending => .str "pending"
  | .unknown => .str "unknown"

/-- What a value says that a reference leads to. -/
def Resolution.ofJson : Json → Except Failure Resolution
  | .str "unknown" => .ok .unknown
  | .obj [("ready", v)] => .ok (.ready v)
  | .obj [("error", v)] => .error (Failure.ofJson v)
  | _ => .ok .pending

/-- The resolver that a list of rows stands for; what it does not list is pending. -/
def Resolver.ofJson (v : Json) : Resolver := fun target =>
  match (v.items?.getD []).find? fun row =>
    row.text? "resource" = some target.resource ∧ row.text? "attr" = some target.output with
  | some row => Resolution.ofJson (row.member "is")
  | none => .ok .pending

end DesiredState
