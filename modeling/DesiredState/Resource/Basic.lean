import DesiredState.Registry.Basic
import DesiredState.State.Basic
import DesiredState.World.Focus

/-!
# Resources

A resource is a record in the store together with what its type can do: the handlers that bring
it in line with a definition, checking it against the remote side, and destroying it.
-/

namespace DesiredState

structure Consent where
  allowRecreate : Bool := false
  allowReboot : Bool := false
  deriving DecidableEq

structure PassOptions where
  /-- Whether the recorded state is checked against the remote side first. -/
  check : Bool := false
  consent : Consent := {}
  deriving DecidableEq

structure Summary where
  handlers : List String
  changedKeys : List String
  deriving DecidableEq

def Summary.unchanged : Summary := ⟨[], []⟩

def Summary.isUnchanged (s : Summary) : Bool := s.handlers.isEmpty

/-- An attribute that changed on the remote side behind the back of the records. -/
structure Drift where
  key : String
  recorded : Option Json
  observed : Option Json
  deriving DecidableEq

structure CheckReport where
  status : Status
  drift : List Drift
  deriving DecidableEq

def CheckReport.inSync (status : Status) : CheckReport := ⟨status, []⟩

def CheckReport.hasDrift (r : CheckReport) : Bool := ¬ r.drift.isEmpty

/-- The work of a handler: bring its keys in line with a definition. -/
abbrev Handling (ρ : Type) : Type := Definition → Consent → Task ρ Unit

structure Resource (ρ : Type) where
  record : ResourceRecord
  /-- The type that definitions of this resource must have. -/
  resourceType : String
  registry : Registry (Handling ρ)
  /-- Keys that take no part in comparing definitions with records. -/
  reserved : List String := State.reservedKeys
  /-- Compare the records with the remote side and correct them. -/
  check : Task ρ CheckReport
  /-- Remove what the resource stands for; whether the user agreed. -/
  destroy : Bool → Confirmation → Task ρ Bool

namespace Resource

variable {ρ τ : Type}

def name (r : Resource ρ) : String := r.record.name

/-- A resource on a part of the remote side as one on the whole. -/
def focus (get : ρ → τ) (put : τ → ρ → ρ) (r : Resource τ) : Resource ρ where
  record := r.record
  resourceType := r.resourceType
  registry := ⟨r.registry.handlers.map fun h =>
    ⟨h.id, h.keys, h.after, fun d consent => World.focus get put (h.operation d consent)⟩⟩
  reserved := r.reserved
  check := World.focus get put r.check
  destroy := fun wipe confirm => World.focus get put (r.destroy wipe confirm)

/-- The resources among several that must be created before this one: those that its definition
refers to. -/
def createAfter (r : Resource ρ) (all : List (Resource ρ)) (d : Option Definition) : KeySet :=
  match d with
  | none => .empty
  | some d => KeySet.ofNames ((all.map name).filter fun other =>
      other ≠ r.name ∧ d.references.contains other)

/-- The resources among several that must be destroyed before this one. -/
def destroyBefore (r : Resource ρ) (all : List (Resource ρ)) : KeySet := r.createAfter all none

end Resource

end DesiredState
