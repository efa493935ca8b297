import DesiredState.Registry.Basic

/-!
# Accepting a registry

Handlers are accepted when their ids are distinct, every handler they wait for is registered and
no handler waits for itself, directly or through others. A cycle is reported as the closed path
that a depth-first walk in the order of registration finds first.
-/

namespace DesiredState.Registry

variable {ω : Type}

def repeatedId? : List String → List String → Option String
  | _, [] => none
  | seen, id :: rest => if seen.contains id then some id else repeatedId? (id :: seen) rest

/-- The first handler that waits for one that is not registered, with the id it names. -/
def unknownDependency? (ids : List String) : List (Handler ω) → Option (String × String)
  | [] => none
  | h :: rest =>
    match h.after.find? fun id => ¬ ids.contains id with
    | some id => some (h.id, id)
    | none => unknownDependency? ids rest

/-- The closed path from a place on the trail, innermost first, back to itself. -/
def closedPath (place : Nat) (trail : List Nat) : List Nat :=
  place :: ((trail.takeWhile (· ≠ place)).reverse ++ [place])

/-- Walk from a place along its edges. The trail holds the places on the way to it, innermost
first; places that are done lead to no cycle. The outcome is a closed path, or the places that
are done afterwards. -/
def walk (next : Nat → List Nat) :
    Nat → List Nat → List Nat → Nat → Except (List Nat) (List Nat)
  | 0, _, done, _ => .ok done
  | fuel + 1, trail, done, place => do
    let trail := place :: trail
    let done ← (next place).foldlM (fun done target =>
      if trail.contains target then .error (closedPath target trail)
      else if done.contains target then .ok done
      else walk next fuel trail done target) done
    .ok (place :: done)

/-- The first cycle among the places below `size`. A trail never holds a place twice, so no
walk is longer than the number of places. -/
def findCycle? (next : Nat → List Nat) (size : Nat) : Option (List Nat) :=
  let outcome := (List.range size).foldlM (fun done place =>
    if done.contains place then .ok done else walk next (size + 1) [] done place) []
  match outcome with
  | .error path => some path
  | .ok _ => none

/-- A validated registry of the listed handlers. -/
def build (handlers : List (Handler ω)) : Except Failure (Registry ω) :=
  let r : Registry ω := ⟨handlers⟩
  match repeatedId? [] r.ids with
  | some id => .error (.duplicateHandler id)
  | none =>
    match unknownDependency? r.ids handlers with
    | some (handler, dependency) => .error (.unknownHandler handler dependency)
    | none =>
      match findCycle? r.before r.size with
      | some path =>
        .error (.handlerCycle (path.filterMap fun place => (r.at? place).map Handler.id))
      | none => .ok r

end DesiredState.Registry
