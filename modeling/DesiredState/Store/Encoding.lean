import DesiredState.Json.Document
import DesiredState.Json.Printer
import DesiredState.Store.Basic

/-!
# The text of a state file

A store is written as a line that says what the file is, and JSON. The values of attributes are
texts already, so they are written as texts.
-/

namespace DesiredState

def stateFileHeader : String := "stratus state 1\n"

def textsToJson (m : KeyMap String) : Json := .ofMap (m.map Json.str)

/-- The texts by name that a value denotes. -/
def textsOfJson? (v : Json) : Option (KeyMap String) := do
  let entries ← (← v.map?).entries.mapM fun entry => do some (entry.1, ← entry.2.string?)
  some (KeyMap.ofList entries)

namespace StoredResource

def toJson (r : StoredResource) : Json :=
  .obj [("attributes", textsToJson r.attributes), ("id", .ofInt r.id), ("name", .str r.name),
    ("type", .str r.resourceType)]

def ofJson? (v : Json) : Option StoredResource := do
  let id ← (← v.get? "id").int?
  let name ← (← v.get? "name").string?
  let resourceType ← (← v.get? "type").string?
  let attributes ← textsOfJson? (← v.get? "attributes")
  some ⟨id, name, resourceType, attributes⟩

end StoredResource

namespace StoredDeployment

def toJson (d : StoredDeployment) : Json :=
  .obj [("attributes", textsToJson d.attributes),
    ("resources", .arr (d.resources.map StoredResource.toJson))]

def ofJson? (v : Json) : Option StoredDeployment := do
  let attributes ← textsOfJson? (← v.get? "attributes")
  let resources ← (← (← v.get? "resources").items?).mapM StoredResource.ofJson?
  some ⟨attributes, resources⟩

end StoredDeployment

namespace Store

def toJson (s : Store) : Json :=
  .obj [("deployments", .ofMap (s.deployments.map StoredDeployment.toJson)),
    ("lastId", .ofInt s.lastId)]

def ofJson? (v : Json) : Option Store := do
  let members ← (← v.get? "deployments").map?
  let deployments ← members.entries.mapM fun entry => do
    some (entry.1, ← StoredDeployment.ofJson? entry.2)
  let lastId ← (← v.get? "lastId").int?
  some ⟨KeyMap.ofList deployments, lastId⟩

def encode (s : Store) : String := stateFileHeader ++ s.toJson.render

def decode? (text : String) : Option Store :=
  if text.startsWith stateFileHeader then
    (Json.parse? (String.ofList (text.toList.drop stateFileHeader.length))).bind ofJson?
  else none

end Store

end DesiredState
