import DesiredState.Json.Basic

/-!
# Definitions

A definition says how one resource should be configured. Each setting is a literal value or
refers to an attribute that another resource of the same deployment puts out.
-/

namespace DesiredState

structure Reference where
  resource : String
  output : String
  deriving DecidableEq

def Reference.text (r : Reference) : String := r.resource ++ "." ++ r.output

inductive Setting where
  | reference (target : Reference)
  | value (v : Json)
  deriving DecidableEq

structure Definition where
  name : String
  resourceType : String
  settings : KeyMap Setting
  deriving DecidableEq

namespace Definition

def bare (name resourceType : String) : Definition := ⟨name, resourceType, .empty⟩

def withSetting (d : Definition) (key : String) (setting : Setting) : Definition :=
  { d with settings := d.settings.insert key setting }

def get? (d : Definition) (key : String) : Option Setting := d.settings.find? key

def value? (d : Definition) (key : String) : Option Json :=
  match d.get? key with
  | some (.value v) => some v
  | _ => none

def string? (d : Definition) (key : String) : Option String := (d.value? key).bind Json.string?

def references (d : Definition) : KeySet :=
  KeySet.ofNames (d.settings.values.filterMap fun setting =>
    match setting with
    | .reference target => some target.resource
    | .value _ => none)

end Definition

end DesiredState
