import DesiredState.Failure

/-!
# Handlers and their registry

A handler owns some configuration keys and brings them in line with a definition. The handlers
of a resource type are registered in an order that decides between equally good choices. A
handler may name others that must run before it.
-/

namespace DesiredState

/-- A named unit of work; `ω` is the operation it runs. -/
structure Handler (ω : Type) where
  id : String
  keys : KeySet
  after : List String
  operation : ω

structure Registry (ω : Type) where
  handlers : List (Handler ω)

namespace Registry

variable {ω : Type}

def size (r : Registry ω) : Nat := r.handlers.length

def ids (r : Registry ω) : List String := r.handlers.map Handler.id

def get? (r : Registry ω) (id : String) : Option (Handler ω) :=
  r.handlers.find? fun h => h.id = id

def at? (r : Registry ω) (place : Nat) : Option (Handler ω) := r.handlers[place]?

def place? (r : Registry ω) (id : String) : Option Nat :=
  r.handlers.findIdx? fun h => h.id = id

def coveredKeys (r : Registry ω) : KeySet :=
  KeySet.ofNames (r.handlers.flatMap fun h => h.keys.names)

def owns (r : Registry ω) (place : Nat) (key : String) : Bool :=
  match r.at? place with
  | some h => h.keys.contains key
  | none => false

def before (r : Registry ω) (place : Nat) : List Nat :=
  match r.at? place with
  | some h => h.after.filterMap r.place?
  | none => []

end Registry

end DesiredState
