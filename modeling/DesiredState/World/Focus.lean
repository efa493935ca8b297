import DesiredState.World.Basic

/-!
# Acting on a part of the remote side

A task that knows one part of the remote side runs in a world with a larger one; what lies
outside the part stays as it is.
-/

namespace DesiredState.World

variable {ρ τ α : Type}

def withRemote (w : World ρ) (remote : τ) : World τ :=
  ⟨w.store, remote, w.services, w.mutexes, w.now, w.journal, w.obstacles⟩

/-- Run a task on a part of the remote side. -/
def focus (get : ρ → τ) (put : τ → ρ → ρ) (task : Task τ α) : Task ρ α := fun w =>
  let (result, v) := task (w.withRemote (get w.remote))
  (result, v.withRemote (put v.remote w.remote))

end DesiredState.World
