import DesiredState.Diff.Basic
import DesiredState.Plan.Combination
import DesiredState.Registry.Basic

/-!
# Plans

A plan is the smallest combination of handlers that owns every changed key, the first in the
order of registration among those of equal size, in an order in which each handler comes after
the ones it waits for.
-/

namespace DesiredState

structure Plan (ω : Type) where
  handlers : List (Handler ω)

namespace Plan

variable {ω : Type}

def empty : Plan ω := ⟨[]⟩

def isEmpty (p : Plan ω) : Bool := p.handlers.isEmpty

def ids (p : Plan ω) : List String := p.handlers.map Handler.id

/-- Whether the handlers at some places own every one of the keys. -/
def covers (r : Registry ω) (keys : List String) (places : List Nat) : Bool :=
  keys.all fun key => places.any fun place => r.owns place key

/-- The first combination by size, then by order of registration, that owns every key. -/
def select? (r : Registry ω) (keys : List String) : Option (List Nat) :=
  (List.range r.size).findSome? fun k => Combination.find? r.size (k + 1) (covers r keys)

/-- The places seen so far and the chosen ones among them in their order. -/
structure Visited where
  seen : List Nat
  ordered : List Nat
  deriving DecidableEq

/-- Place what must come before a place, then the place itself if it is chosen. -/
def visit (before : Nat → List Nat) (chosen : List Nat) : Nat → Visited → Nat → Visited
  | 0, visited, _ => visited
  | fuel + 1, visited, place =>
    if visited.seen.contains place then visited
    else
      let visited := (before place).foldl (visit before chosen fuel)
        { visited with seen := place :: visited.seen }
      if chosen.contains place then { visited with ordered := visited.ordered ++ [place] }
      else visited

/-- The chosen places, each after those it waits for, directly or through others. Every step
down sees a new place, so no visit goes deeper than the number of places. -/
def order (r : Registry ω) (chosen : List Nat) : List Nat :=
  (chosen.foldl (visit r.before chosen (r.size + 1)) ⟨[], []⟩).ordered

def make (resourceType : String) (r : Registry ω) (d : Diff) : Except Failure (Plan ω) :=
  if d.isEmpty then .ok empty
  else
    let uncovered := d.changedKeys.filter fun key => ¬ r.coveredKeys.contains key
    if uncovered ≠ [] then .error (.coverage resourceType uncovered)
    else
      match select? r d.changedKeys with
      | none => .error (.coverage resourceType d.changedKeys)
      | some chosen => .ok ⟨(order r chosen).filterMap r.at?⟩

/-- The lines that show a plan: each change, then the handlers. Nothing is shown when nothing
changes. -/
def report (p : Plan ω) (d : Diff) : List String :=
  if d.isEmpty then []
  else (d.entries.map fun entry => "  " ++ entry.text) ++
    ["  handlers: " ++ ", ".intercalate p.ids]

end Plan

end DesiredState
