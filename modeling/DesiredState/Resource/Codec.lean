import DesiredState.Json.Member
import DesiredState.Resource.Basic

/-!
# The JSON form of what passes and checks find
-/

namespace DesiredState

def Summary.toJson (s : Summary) : Json :=
  .obj [("noop", .bool s.isUnchanged), ("handlers", .ofStrings s.handlers),
    ("changed", .ofStrings s.changedKeys)]

def Drift.toJson (d : Drift) : Json :=
  .obj [("key", .str d.key), ("recorded", Json.ofOption id d.recorded),
    ("observed", Json.ofOption id d.observed)]

def Drift.ofJson (v : Json) : Drift := ⟨v.text "key", v.given? "recorded", v.given? "observed"⟩

def CheckReport.toJson (r : CheckReport) : Json :=
  .obj [("status", .str r.status.text), ("has_drift", .bool r.hasDrift),
    ("drift", .arr (r.drift.map Drift.toJson))]

def Progress.toJson : Progress → Json
  | .planned resource handlers => .arr [.str "plan", .str resource, .ofStrings handlers]
  | .started resource handler => .arr [.str "start", .str resource, .str handler]
  | .completed resource handler failure =>
    .arr [.str "complete", .str resource, .str handler, Json.ofOption .str failure]

/-- The options that an object's members stand for. -/
def PassOptions.ofJson (v : Json) : PassOptions :=
  ⟨v.flag "check", ⟨v.flag "allow_recreate", v.flag "allow_reboot"⟩⟩

end DesiredState
