import DesiredState.Failure

/-!
# Failures of commands
-/

namespace DesiredState

inductive CommandError where
  | failure (cause : Failure)
  | store (cause : StoreError)
  | lock (cause : LockError)
  | message (text : String)
  /-- A failure of the store, told in other words. -/
  | explained (text : String) (cause : StoreError)
  deriving DecidableEq

def CommandError.text : CommandError → String
  | .failure cause => cause.message
  | .store cause => cause.message
  | .lock cause => cause.message
  | .message text => text
  | .explained text _ => text

end DesiredState
