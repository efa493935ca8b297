import DesiredState.Diff.Compute
import DesiredState.State.Keys
import DesiredState.Status
import DesiredState.Store.Deployments

/-!
# The recorded state of a resource

The status, the provider's identity and the outputs of a resource are attributes. A status never
written reads as missing. Creating and destroying change several attributes, all or none.
-/

namespace DesiredState.State

abbrev Step (α : Type) : Type := Action Store Failure α

def attempt {α : Type} (a : Action Store StoreError α) : Step α := a.mapError Failure.store

/-- The status that a stored value stands for. -/
def decodeStatus (resource : String) : Option Json → Except Failure Status
  | none => .ok Status.initial
  | some v =>
    match v.int64?.bind Status.ofOrdinal? with
    | some status => .ok status
    | none => .error (.corruptStatus resource v.render)

def readStatus (scope : Scope) (resource : String) : Step Status := do
  Action.ofExcept (decodeStatus resource (← attempt (Store.get scope statusKey)))

def writeStatus (scope : Scope) (status : Status) : Step Unit :=
  attempt (Store.set scope statusKey (.ofInt status.ordinal))

def status (r : ResourceRecord) : Step Status := readStatus r.scope r.name

def setStatus (r : ResourceRecord) (status : Status) : Step Unit := writeStatus r.scope status

def index (r : ResourceRecord) : Step (Option Int) :=
  attempt (Store.getAs r.scope indexKey Json.expectInt64)

/-- Choose the place at which a resource is displayed. -/
def setIndex (r : ResourceRecord) (index : Int) : Step Unit :=
  attempt (Store.set r.scope indexKey (.ofInt index))

/-- Whether a resource is scheduled for removal; not unless it says so. -/
def isObsolete (r : ResourceRecord) : Step Bool := do
  return (← attempt (Store.getAs r.scope obsoleteKey Json.expectBool)).getD false

def setObsolete (r : ResourceRecord) (obsolete : Bool) : Step Unit :=
  attempt (Store.set r.scope obsoleteKey (.bool obsolete))

/-- The provider's name for a resource, if it was created. -/
def resourceId (r : ResourceRecord) : Step (Option String) :=
  attempt (Store.getAs r.scope resourceIdKey Json.expectString)

def snapshot (r : ResourceRecord) : Step (KeyMap Json) := attempt (Store.exportAttributes r.scope)

/-- Record that a resource was created: its identity, the time and its outputs together. -/
def recordCreated (r : ResourceRecord) (now : Nat) (id : String) (outputs : KeyMap Json) :
    Step Unit :=
  Action.transaction do
    attempt (Store.set r.scope resourceIdKey (.str id))
    attempt (Store.set r.scope creationTimeKey (.ofNat now))
    attempt (Store.setEach r.scope outputs.entries)

/-- Record that a resource is gone: identity, time and the given keys are cleared and the status
is missing, together. -/
def markDestroyed (r : ResourceRecord) (keys : List String) : Step Unit :=
  Action.transaction do
    Action.forEach (fun key => attempt (Store.delete r.scope key))
      (resourceIdKey :: creationTimeKey :: keys)
    writeStatus r.scope .missing

/-- What a reference leads to among the resources of a deployment: the attribute of the resource
with that name, provided that it is up. -/
def resolve (deployment : String) (target : Reference) : Step Resolution := do
  match ← attempt (Store.findResource deployment target.resource) with
  | none => return .unknown
  | some r =>
    if (← status r) ≠ .up then return .pending
    match ← attempt (Store.get r.scope target.output) with
    | none => return .pending
    | some v => return .ready v

/-- References resolved among the resources of a deployment. -/
def resolver (s : Store) (deployment : String) : Resolver := fun target =>
  ((resolve deployment target).run s).1

end DesiredState.State
