import DesiredState.Store.File
import DesiredState.World.Basic

/-!
# Operations on a state file

An operation runs in a world whose store is that of the file. If the file cannot be read, the
operation finds that out when it looks at the store.
-/

namespace DesiredState.StateFile

variable {ρ ε α : Type}

/-- Run an operation on the store in a file and keep the store that it leaves. -/
def running (f : StateFile) (w : World ρ) (operation : Action (World ρ) ε α) (d : Disk) :
    Except ε α × World ρ × StateFile × Disk :=
  match f.load d with
  | (.error fault, d) =>
    let (result, w) := operation { w with obstacles := ⟨some fault, none⟩ }
    (result, w, f, d)
  | (.ok (f, s), d) =>
    let (result, v) := operation { w with store := s, obstacles := ⟨none, f.obstacle? d⟩ }
    (result, v, f, if v.store = s then d else f.save v.store d)

end DesiredState.StateFile
