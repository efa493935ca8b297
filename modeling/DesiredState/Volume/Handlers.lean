import DesiredState.Cloud.Basic
import DesiredState.Resource.Basic
import DesiredState.Resource.Tags

/-!
# The handlers of volumes

A volume is created in a region, grown in place, tagged and attached to another resource. Moving
it to another region recreates it, and changing its size while it is attached restarts what it
is attached to; both need consent.
-/

namespace DesiredState.Volume

def ownedKeys : List String := ["region", "size", "tags", "attachedTo"]

/-- The size of a volume whose definition gives none. -/
def defaultSize : Int := 8

/-- A call to the provider, again while its failures are transient. -/
def remotely {α : Type} (label : String) (call : Cloud.Call α) : Task Cloud α :=
  World.retrying label (World.onRemote call)

def recorded {α : Type} (r : ResourceRecord) (key : String)
    (expect : Json → Except Json.DecodeError α) : Task Cloud (Option α) :=
  World.inStore (Store.getAs r.scope key expect)

def writeDown (r : ResourceRecord) (key : String) (v : Json) : Task Cloud Unit :=
  World.inStore (Store.set r.scope key v)

/-- The recorded id of a volume that must have been created. -/
def requireId (r : ResourceRecord) : Task Cloud String := do
  match ← World.onStore (State.resourceId r) with
  | some id => return id
  | none => Action.fail (.config r.name "volume has not been created")

def definedSize? (d : Definition) : Option Int := (d.value? "size").bind Json.int64?

/-- Everything that is known about a volume when it is created. -/
def outputs (region : String) (d : Definition) : KeyMap Json :=
  KeyMap.ofList ([("region", Json.str region)] ++
    ((definedSize? d).map fun size => ("size", Json.ofInt size)).toList ++
    ((d.value? "tags").map fun tags => ("tags", tags)).toList)

def attachmentKey (id : String) : LockKey := ⟨["attachment", id]⟩

/-- Create the volume, record it and wait until it is ready. -/
def createNew (r : ResourceRecord) (d : Definition) (region : String) : Task Cloud Unit := do
  let id ← remotely "create volume"
    (Cloud.createVolume region ((definedSize? d).getD defaultSize) (Tags.all r d))
  let now ← Action.view World.now
  World.onStore (State.recordCreated r now id (outputs region d))
  let _ ← World.polling ("volume " ++ id ++ " to become available")
    (World.onRemote (Cloud.isReady id))

/-- Delete the volume before it is created in another region. -/
def deleteOld (r : ResourceRecord) (id region : String) : Task Cloud Unit := do
  World.log .info .engine (r.name ++ ": recreating volume " ++ id ++ " in " ++ region)
  remotely "delete volume" (Cloud.deleteVolume id)
  World.onStore (State.markDestroyed r ownedKeys)

/-- Make sure that the volume exists in the region of the definition. -/
def provision (r : ResourceRecord) : Handling Cloud := fun d consent => do
  match d.string? "region" with
  | none => Action.fail (.config r.name "region is required")
  | some region =>
    match ← World.onStore (State.resourceId r) with
    | none => createNew r d region
    | some id =>
      let old ← recorded r "region" Json.expectString
      if old = some region then return ()
      else if ¬ consent.allowRecreate then
        Action.fail (.recreateRequired r.name
          ("region changed from " ++ old.getD "nothing" ++ " to " ++ region))
      else
        deleteOld r id region
        createNew r d region

/-- Grow the volume to the size of the definition. -/
def resize (r : ResourceRecord) : Handling Cloud := fun d consent => do
  let id ← requireId r
  match definedSize? d with
  | none => World.inStore (Store.delete r.scope "size")
  | some size =>
    let old ← recorded r "size" Json.expectInt64
    if old = some size then return ()
    else if old.any fun old => size < old then
      Action.fail (.config r.name "volumes cannot shrink")
    else
      let attached ← World.inStore (Store.get r.scope "attachedTo")
      if attached.isSome ∧ ¬ consent.allowReboot then
        Action.fail (.rebootRequired r.name "resizing an attached volume restarts its server")
      else
        remotely "resize volume" (Cloud.resize id size)
        writeDown r "size" (.ofInt size)

/-- Give the volume the tags of the definition. -/
def tag (r : ResourceRecord) : Handling Cloud := fun d _ => do
  let id ← requireId r
  remotely "tag volume" (Cloud.setTags id (Tags.all r d))
  writeDown r "tags" ((d.value? "tags").getD .null)

def attachmentTarget (r : ResourceRecord) (d : Definition) : Task Cloud (Option String) := do
  match d.get? "attachedTo" with
  | none => return none
  | some (.value v) => return v.string?
  | some (.reference target) =>
    match ← World.onStore (State.resolve r.deployment target) with
    | .ready v => return v.string?
    | .pending => Action.fail (.config r.name (target.text ++ " is not available yet"))
    | .unknown => Action.fail (.danglingReference r.name target.resource)

/-- Attach the volume to what the definition says, or detach it. -/
def attach (r : ResourceRecord) : Handling Cloud := fun d _ => do
  let id ← requireId r
  let target ← attachmentTarget r d
  World.exclusive (attachmentKey id) (remotely "attach volume" (Cloud.attach id target))
  writeDown r "attachedTo" (Json.ofOption .str target)

/-- The handlers of volumes: creating comes first. -/
def registry (r : ResourceRecord) : Registry (Handling Cloud) :=
  ⟨[⟨"provision", KeySet.ofNames ["region"], [], provision r⟩,
    ⟨"resize", KeySet.ofNames ["size"], ["provision"], resize r⟩,
    ⟨"tag", KeySet.ofNames ["tags"], ["provision"], tag r⟩,
    ⟨"attach", KeySet.ofNames ["attachedTo"], ["provision"], attach r⟩]⟩

end DesiredState.Volume
