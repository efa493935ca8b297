import DesiredState.Definition.Basic
import DesiredState.Json.Printer
import DesiredState.Store.Basic

/-!
# Tags

Remote objects carry tags that say which resource they belong to, and the tags that the user
asks for. Where both name a tag, the user's value wins.
-/

namespace DesiredState.Tags

def deploymentTag : String := "stratus:deployment"

def resourceTag : String := "stratus:resource"

def tagText : Json → String
  | .str text => text
  | v => v.render

def user (d : Definition) : KeyMap String :=
  match (d.value? "tags").bind Json.map? with
  | some tags => tags.map tagText
  | none => .empty

/-- The tags that say which resource an object belongs to. -/
def common (r : ResourceRecord) : KeyMap String :=
  KeyMap.ofList [(deploymentTag, r.deployment), (resourceTag, r.name)]

def all (r : ResourceRecord) (d : Definition) : KeyMap String :=
  (user d).entries.foldl (fun tags entry => tags.insert entry.1 entry.2) (common r)

end DesiredState.Tags
