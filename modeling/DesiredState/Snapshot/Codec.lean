import DesiredState.Json.Document
import DesiredState.Json.Field
import DesiredState.Snapshot.Basic

/-!
# The JSON form of snapshots

A record is an object, or an array of its members in order. The attributes and the resources may
be left out. A text that can be read as one snapshot is one snapshot, and a list otherwise.
-/

namespace DesiredState

/-- Attributes are an object; left out they are empty. -/
def attributesOfField? : Json.Field → Option (KeyMap Json)
  | .absent => some .empty
  | .once (.obj members) => some (KeyMap.ofList (Json.canonicalMembers members))
  | _ => none

def Json.Field.atPlace (items : List Json) (place : Nat) : Json.Field :=
  match items[place]? with
  | some v => .once v
  | none => .absent

namespace ResourceSnapshot

def ofFields? (resourceType attributes : Json.Field) : Option ResourceSnapshot := do
  let resourceType ← resourceType.string?
  let attributes ← attributesOfField? attributes
  some ⟨resourceType, attributes⟩

def ofJson? : Json → Option ResourceSnapshot
  | .obj members => ofFields? (.find "type" members) (.find "attributes" members)
  | .arr items =>
    if 2 < items.length then none else ofFields? (.atPlace items 0) (.atPlace items 1)
  | _ => none

/-- The JSON form, type first. -/
def toJson (r : ResourceSnapshot) : Json :=
  .obj [("type", .str r.resourceType), ("attributes", .ofMap r.attributes)]

end ResourceSnapshot

namespace Snapshot

/-- Resources are an object; left out there are none. -/
def resourcesOfField? : Json.Field → Option (KeyMap ResourceSnapshot)
  | .absent => some .empty
  | .once (.obj members) =>
    (members.mapM fun member =>
      (ResourceSnapshot.ofJson? member.2).map fun r => (member.1, r)).map KeyMap.ofList
  | _ => none

def ofFields? (uuid attributes resources : Json.Field) : Option Snapshot := do
  let uuid ← uuid.string?
  let attributes ← attributesOfField? attributes
  let resources ← resourcesOfField? resources
  some ⟨uuid, attributes, resources⟩

def ofJson? : Json → Option Snapshot
  | .obj members =>
    ofFields? (.find "uuid" members) (.find "attributes" members) (.find "resources" members)
  | .arr items =>
    if 3 < items.length then none
    else ofFields? (.atPlace items 0) (.atPlace items 1) (.atPlace items 2)
  | _ => none

/-- The JSON form: UUID, attributes, resources. -/
def toJson (s : Snapshot) : Json :=
  .obj [("uuid", .str s.uuid), ("attributes", .ofMap s.attributes),
    ("resources", .ofMap (s.resources.map ResourceSnapshot.toJson))]

end Snapshot

namespace Backup

/-- The backup that a value denotes; a single snapshot is tried first. -/
def ofJson? (v : Json) : Option Backup :=
  match Snapshot.ofJson? v with
  | some snapshot => some (.one snapshot)
  | none =>
    match v with
    | .arr items => (items.mapM Snapshot.ofJson?).map .many
    | _ => none

def parse? (text : String) : Option Backup := (Json.parseAsWritten? text).bind ofJson?

def toJson : Backup → Json
  | .one snapshot => snapshot.toJson
  | .many snapshots => .arr (snapshots.map Snapshot.toJson)

end Backup

end DesiredState
