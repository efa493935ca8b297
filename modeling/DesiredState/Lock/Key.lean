import DesiredState.Action

/-!
# Composite keys and their mutexes

A key is a list of parts. Each key has one mutex, created when the key is first used and kept
from then on; mutexes are numbered by first use.
-/

namespace DesiredState

/-- A composite key such as `["attachment", "vol-1"]`. -/
structure LockKey where
  parts : List String
  deriving DecidableEq

namespace LockKey

def text (key : LockKey) : String := "/".intercalate key.parts

/-- Keys compare part by part; a key comes before its extensions. -/
def le (a b : LockKey) : Bool := go a.parts b.parts
where
  /-- Lexicographic comparison of the parts. -/
  go : List String → List String → Bool
    | [], _ => true
    | _ :: _, [] => false
    | a :: as, b :: bs => if a < b then true else if a = b then go as bs else false

/-- Keys in ascending order; equal ones keep their places. -/
def sort (keys : List LockKey) : List LockKey := keys.mergeSort le

end LockKey

structure Mutexes where
  /-- Keys used so far, in the order of first use. -/
  known : List LockKey
  /-- Keys whose mutex is taken at the moment. -/
  held : List LockKey
  deriving DecidableEq

namespace Mutexes

def empty : Mutexes := ⟨[], []⟩

/-- The number of keys used so far. -/
def size (m : Mutexes) : Nat := m.known.length

def number? (m : Mutexes) (key : LockKey) : Option Nat := m.known.findIdx? (· = key)

def know (m : Mutexes) (key : LockKey) : Mutexes :=
  if m.known.contains key then m else { m with known := m.known ++ [key] }

def isHeld (m : Mutexes) (key : LockKey) : Bool := m.held.contains key

def take (m : Mutexes) (key : LockKey) : Mutexes :=
  { m.know key with held := key :: m.held }

def release (m : Mutexes) (key : LockKey) : Mutexes := { m with held := m.held.erase key }

/-- Run an action while a key's mutex is held; it is given back whether the action fails or
not. No action asks for a key that it already holds. -/
def exclusive {σ ε α : Type} (get : σ → Mutexes) (put : Mutexes → σ → σ) (key : LockKey)
    (action : Action σ ε α) : Action σ ε α := fun s =>
  match action (put ((get s).take key) s) with
  | (result, t) => (result, put ((get t).release key) t)

end Mutexes

end DesiredState
