import DesiredState.Definition.Basic
import DesiredState.Json.Printer

/-!
# Differences

A difference lists, key by key, how a definition departs from what is recorded: keys to set, to
update and to unset. A value that another resource has not produced yet differs from everything.
-/

namespace DesiredState

namespace Diff

inductive Kind where
  /-- Wanted but not recorded. -/
  | set
  /-- Recorded with another value. -/
  | update
  /-- Recorded but not wanted. -/
  | unset
  deriving DecidableEq, Repr

def Kind.text : Kind → String
  | .set => "set"
  | .update => "update"
  | .unset => "unset"

/-- What a definition wants for a key once references are resolved. -/
inductive Desired where
  | value (v : Json)
  | pending (target : Reference)
  deriving DecidableEq

def Desired.text : Desired → String
  | .value v => v.render
  | .pending target => "<pending " ++ target.text ++ ">"

structure Entry where
  key : String
  kind : Kind
  current : Option Json
  desired : Option Desired
  deriving DecidableEq

def Entry.text (e : Entry) : String :=
  match e.current, e.desired with
  | some current, some desired =>
    e.kind.text ++ " " ++ e.key ++ ": " ++ current.render ++ " -> " ++ desired.text
  | none, some desired => e.kind.text ++ " " ++ e.key ++ " = " ++ desired.text
  | some current, none => e.kind.text ++ " " ++ e.key ++ " (was " ++ current.render ++ ")"
  | none, none => e.kind.text ++ " " ++ e.key

/-- How many keys change in which way. -/
structure Summary where
  sets : Nat
  updates : Nat
  unsets : Nat
  deriving DecidableEq, Repr

def Summary.total (s : Summary) : Nat := s.sets + s.updates + s.unsets

def Summary.text (s : Summary) : String :=
  toString s.sets ++ " to set, " ++ toString s.updates ++ " to update, " ++
    toString s.unsets ++ " to unset"

end Diff

structure Diff where
  changes : KeyMap Diff.Entry
  deriving DecidableEq

namespace Diff

def entries (d : Diff) : List Entry := d.changes.values

def changedKeys (d : Diff) : List String := d.changes.keys

def isEmpty (d : Diff) : Bool := d.changes.isEmpty

theorem isEmpty_iff {d : Diff} : d.isEmpty = true ↔ d.changedKeys = [] := by
  simp [isEmpty, KeyMap.isEmpty, changedKeys, KeyMap.keys]

def size (d : Diff) : Nat := d.changes.size

def get? (d : Diff) (key : String) : Option Entry := d.changes.find? key

def count (d : Diff) (kind : Kind) : Nat := d.entries.countP fun entry => entry.kind = kind

/-- How many keys change in which way. -/
def summary (d : Diff) : Summary := ⟨d.count .set, d.count .update, d.count .unset⟩

end Diff

end DesiredState
