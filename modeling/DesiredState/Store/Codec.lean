import DesiredState.Command.Deployments
import DesiredState.Json.Member

/-!
# The JSON form of records
-/

namespace DesiredState

def DeploymentRecord.toJson (d : DeploymentRecord) : Json :=
  .obj [("uuid", .str d.uuid), ("name", Json.ofOption .str d.name),
    ("resources", .ofNat d.resourceCount)]

def ResourceRecord.toJson (r : ResourceRecord) : Json :=
  .obj [("id", .ofInt r.id), ("deployment", .str r.deployment), ("name", .str r.name),
    ("type", .str r.resourceType), ("scope", .str r.scope.text)]

def Command.ResourceRow.toJson (row : Command.ResourceRow) : Json :=
  .obj [("name", .str row.name), ("type", .str row.resourceType),
    ("status", .str row.status.text), ("resource_id", Json.ofOption .str row.resourceId),
    ("obsolete", .bool row.obsolete)]

/-- The owner that a value denotes: a deployment by UUID or a resource by id. -/
def Scope.ofJson (v : Json) : Scope :=
  match v.text? "deployment" with
  | some uuid => .deployment uuid
  | none => .resource ((v.whole? "resource").getD 0)

end DesiredState
