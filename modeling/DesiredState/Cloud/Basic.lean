import DesiredState.Failure

/-!
# A cloud of volumes

A provider that keeps its volumes in a map. Each call is logged and takes the next failure that
was arranged, if there is one; a call that fails does nothing else. Volumes get ids that are
never given again.
-/

namespace DesiredState

structure CloudVolume where
  region : String
  size : Int
  tags : KeyMap String
  attachedTo : Option String
  /-- How many more times the volume says that it is not ready. -/
  pendingPolls : Nat
  deriving DecidableEq

structure Cloud where
  /-- The volumes that exist, by id. -/
  volumes : KeyMap CloudVolume
  /-- Failures of calls to come. -/
  failures : List Failure
  /-- The calls so far. -/
  calls : List String
  /-- How many volumes were ever created. -/
  created : Nat
  /-- How many times a new volume says that it is not ready. -/
  settlePolls : Nat

namespace Cloud

abbrev Call (α : Type) : Type := Action Cloud Failure α

def empty (settlePolls : Nat) : Cloud := ⟨.empty, [], [], 0, settlePolls⟩

def volume? (c : Cloud) (id : String) : Option CloudVolume := c.volumes.find? id

/-- How many calls of a kind were made. -/
def count (c : Cloud) (call : String) : Nat := c.calls.countP (· = call)

def failNext (c : Cloud) (cause : Failure) : Cloud := { c with failures := c.failures ++ [cause] }

/-- Change a volume without a call. -/
def tamper (c : Cloud) (id : String) (f : CloudVolume → CloudVolume) : Cloud :=
  match c.volume? id with
  | some v => { c with volumes := c.volumes.insert id (f v) }
  | none => c

def forget (c : Cloud) (id : String) : Cloud := { c with volumes := c.volumes.erase id }

/-- Log a call and take the next failure. -/
def call (name : String) : Call Unit := fun c =>
  let c := { c with calls := c.calls ++ [name] }
  match c.failures with
  | [] => (.ok (), c)
  | cause :: rest => (.error cause, { c with failures := rest })

/-- Read a volume that must exist and change it. -/
def withVolume {α : Type} (id : String) (f : CloudVolume → α × CloudVolume) : Call α := fun c =>
  match c.volume? id with
  | none => (.error (.provider id "InvalidVolume.NotFound"), c)
  | some v => (.ok (f v).1, { c with volumes := c.volumes.insert id (f v).2 })

/-- The id of the volume that is created as the n-th. -/
def volumeId (n : Nat) : String := "vol-" ++ String.ofList (Nat.toDigits 10 n)

def createVolume (region : String) (size : Int) (tags : KeyMap String) : Call String := do
  call "create"
  fun c =>
    let id := volumeId (c.created + 1)
    (.ok id, { c with
      created := c.created + 1
      volumes := c.volumes.insert id ⟨region, size, tags, none, c.settlePolls⟩ })

/-- Ask whether a volume is ready; each answer that it is not brings it closer. -/
def isReady (id : String) : Call Bool := do
  call "describe"
  withVolume id fun v =>
    if v.pendingPolls = 0 then (true, v)
    else (false, { v with pendingPolls := v.pendingPolls - 1 })

def describe (id : String) : Call (Option CloudVolume) := do
  call "describe"
  Action.view fun c => c.volume? id

def resize (id : String) (size : Int) : Call Unit := do
  call "resize"
  withVolume id fun v => ((), { v with size := size })

def setTags (id : String) (tags : KeyMap String) : Call Unit := do
  call "tag"
  withVolume id fun v => ((), { v with tags := tags })

def attach (id : String) (target : Option String) : Call Unit := do
  call "attach"
  withVolume id fun v => ((), { v with attachedTo := target })

/-- Delete a volume; one that does not exist is as good as deleted. -/
def deleteVolume (id : String) : Call Unit := do
  call "delete"
  Action.update fun c => c.forget id

end Cloud

end DesiredState
