import DesiredState.Store.Basic

/-!
# What keeps a store from being read or changed

Where a store cannot be read, everything fails. Where it cannot be changed, what changes nothing
still succeeds.
-/

namespace DesiredState

variable {ε α : Type}

/-- What is in the way of reading a store, and of changing it. -/
structure Obstacles where
  reading : Option DatabaseFault := none
  changing : Option DatabaseFault := none
  deriving DecidableEq

namespace Obstacles

/-- Whether an obstacle is noticed before a failure: that an owner is missing shows after its
attribute was written, and a file that may only be read does not say that a record is missing. -/
def precedes (obstacle : DatabaseFault) : StoreError → Bool
  | .database .ownerMissing => true
  | .resourceNotFound .. => obstacle = .readOnly
  | _ => false

/-- Whether an outcome comes with a change, or would have come after one. -/
def hinders [StoreFailure ε] (obstacle : DatabaseFault) (before after : Store)
    (result : Except ε α) : Bool :=
  match result with
  | .ok _ => after ≠ before
  | .error e => after ≠ before || (StoreFailure.store? e).any (precedes obstacle)

def guard [StoreFailure ε] (o : Obstacles) (a : Action Store ε α) : Action Store ε α := fun s =>
  match o.reading, o.changing with
  | some fault, _ => (.error (StoreFailure.ofStore (.database fault)), s)
  | none, none => a s
  | none, some fault =>
    let (result, t) := a s
    if hinders fault s t result then (.error (StoreFailure.ofStore (.database fault)), s)
    else (result, t)

/-- Without obstacles an action is what it is. -/
theorem guard_none [StoreFailure ε] (a : Action Store ε α) : guard {} a = a := rfl

end Obstacles

end DesiredState
