import DesiredState.Definition.Basic
import DesiredState.Json.Document
import DesiredState.Json.Field

/-!
# The JSON form of definitions

A definition is an object with `name`, `type` and optional `settings`, or an array of these in
this order. A setting is a reference when it is an object whose `$ref` can be read as one, and a
literal value otherwise. Members that are not asked for are ignored; one that is asked for must
not be repeated.
-/

namespace DesiredState

/-- A reference is an object with `resource` and `attr`, or an array of the two. -/
def Reference.ofJson? : Json → Option Reference
  | .obj members => do
    let resource ← (Json.Field.find "resource" members).string?
    let output ← (Json.Field.find "attr" members).string?
    some ⟨resource, output⟩
  | .arr [.str resource, .str output] => some ⟨resource, output⟩
  | _ => none

def Reference.toJson (r : Reference) : Json :=
  .obj [("attr", .str r.output), ("resource", .str r.resource)]

/-- The target of a value that can be read as a reference. -/
def Setting.target? : Json → Option Reference
  | .obj members =>
    match Json.Field.find "$ref" members with
    | .once v => Reference.ofJson? v
    | _ => none
  | _ => none

/-- What cannot be read as a reference is a literal. -/
def Setting.ofJson (v : Json) : Setting :=
  match Setting.target? v with
  | some target => .reference target
  | none => .value v.canonical

def Setting.toJson : Setting → Json
  | .reference target => .obj [("$ref", target.toJson)]
  | .value v => v

namespace Definition

/-- Settings are an object; a later one replaces an earlier one with the same key. -/
def settingsOf? : Json → Option (KeyMap Setting)
  | .obj members =>
    some (KeyMap.ofList (members.map fun member => (member.1, Setting.ofJson member.2)))
  | _ => none

/-- The definition that a value denotes, its members as written. -/
def ofJson? : Json → Option Definition
  | .obj members => do
    let name ← (Json.Field.find "name" members).string?
    let resourceType ← (Json.Field.find "type" members).string?
    match Json.Field.find "settings" members with
    | .absent => some (bare name resourceType)
    | .once v => (settingsOf? v).map fun settings => ⟨name, resourceType, settings⟩
    | .repeated => none
  | .arr [.str name, .str resourceType] => some (bare name resourceType)
  | .arr [.str name, .str resourceType, v] =>
    (settingsOf? v).map fun settings => ⟨name, resourceType, settings⟩
  | _ => none

def fields : List String := ["name", "type", "settings"]

/-- The members that belong to a definition; the others need not have a value. -/
def knownMembers? : List (List Json.Piece × Json.Document) → Option (List (String × Json))
  | [] => some []
  | (key, document) :: rest => do
    let key ← Json.stringOf? key
    if fields.contains key then
      let v ← document.value? (Json.maxDepth - 1)
      let rest ← knownMembers? rest
      some ((key, v) :: rest)
    else knownMembers? rest

def parse? (text : String) : Option Definition :=
  match Json.Document.ofText? text with
  | some (.object members) => (knownMembers? members).bind fun members => ofJson? (.obj members)
  | some document => (document.value? Json.maxDepth).bind ofJson?
  | none => none

def toJson (d : Definition) : Json :=
  .obj [("name", .str d.name),
    ("settings", .obj (d.settings.map Setting.toJson).entries),
    ("type", .str d.resourceType)]

end Definition

end DesiredState
