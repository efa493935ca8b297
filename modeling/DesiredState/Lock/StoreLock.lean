import DesiredState.File.Disk

/-!
# Store locks

Whoever works on a state file first takes the lock file beside it. The lock file stays in place
when the lock is released; what matters is whether it is taken.
-/

namespace DesiredState

structure StoreLock where
  /-- The path of the lock file. -/
  path : String
  /-- Where the lock file is. -/
  place : Place
  deriving DecidableEq

namespace StoreLock

def lockPath (statePath : String) : String := statePath ++ ".lock"

/-- Open the lock file at a path, creating it if there is none; where it is. -/
def openFile (path : String) : Action Disk LockError Place := do
  Disk.createParent path fun _ cause => .lockFile path cause
  fun d =>
    match d.files.open? path with
    | .error cause => (.error (.lockFile path cause), d)
    | .ok (place, some _) => (.ok place, d)
    | .ok (place, none) => (.ok place, { d with files := d.files.create place (.text "") })

def take (path : String) (place : Place) : Action Disk LockError (Option StoreLock) := fun d =>
  if d.taken.contains place then (.ok none, d)
  else (.ok (some ⟨path, place⟩), { d with taken := place :: d.taken })

def tryAcquire (statePath : String) : Action Disk LockError (Option StoreLock) := do
  let path := lockPath statePath
  take path (← openFile path)

/-- Take the lock of a state file. Waiting for a lock that is held here would never end, so that
fails. -/
def acquire (statePath : String) : Action Disk LockError StoreLock := do
  match ← tryAcquire statePath with
  | some lock => return lock
  | none => Action.fail (.lock (lockPath statePath) .busy)

def release {ε : Type} (lock : StoreLock) : Action Disk ε Unit :=
  Action.update fun d => { d with taken := d.taken.erase lock.place }

/-- Run an action while the lock of a state file is held; it is given back whether the action
fails or not. -/
def holding {σ ε α : Type} (get : σ → Disk) (put : Disk → σ → σ) (ofLock : LockError → ε)
    (statePath : String) (action : StoreLock → Action σ ε α) : Action σ ε α := do
  let lock ← Action.zoom get put ((acquire statePath).mapError ofLock)
  let result ← (action lock).attempt
  Action.zoom get put lock.release
  Action.ofExcept result

def IsHeld (lock : StoreLock) (d : Disk) : Prop := lock.place ∈ d.taken

theorem lockPath_injective {a b : String} (h : lockPath a = lockPath b) : a = b := by
  have := congrArg String.toList h
  simp only [lockPath, String.toList_append] at this
  exact String.toList_inj.1 (List.append_cancel_right this)

end StoreLock

end DesiredState
