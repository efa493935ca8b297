import DesiredState.Cloud.Basic
import DesiredState.Json.Member

/-!
# The JSON form of a provider's volumes
-/

namespace DesiredState.CloudVolume

def toJson (v : CloudVolume) : Json :=
  .obj [("region", .str v.region), ("size", .ofInt v.size),
    ("tags", .ofMap (v.tags.map Json.str)), ("attached_to", Json.ofOption .str v.attachedTo)]

/-- The volume with the members of an object replaced. -/
def overriding (v : CloudVolume) (members : Json) : CloudVolume :=
  { v with
    size := (members.whole? "size").getD v.size
    region := (members.text? "region").getD v.region
    attachedTo := match members with
      | .obj pairs =>
        match findEntry "attached_to" pairs with
        | some target => target.string?
        | none => v.attachedTo
      | _ => v.attachedTo }

end DesiredState.CloudVolume
