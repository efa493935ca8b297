import DesiredState.Command.Backups
import DesiredState.Command.Resources

/-!
# Whatever is commanded

A run makes calls of the commands that change the records, one after the other, whether they fail
or not: deployments are created, deleted and restored, resources are renamed and forgotten.
-/

namespace DesiredState.Command

inductive Call where
  /-- The UUID is the one that is drawn for the deployment. -/
  | createDeployment (fresh : String) (name : Option String)
  | deleteDeployment (key : String) (force : Bool) (confirm : Confirmation)
  | renameResource (key source target : String)
  | purgeResource (key name : String) (confirm : Confirmation)
  | importBackup (text : String)

inductive Answer where
  | created (uuid : String)
  | deleted (uuid : Option String)
  | renamed
  | purged (agreed : Bool)
  | imported (uuids : List String)
  deriving DecidableEq

/-- Whether a command reports that the user said no. -/
def Answer.isDeclined : Answer → Bool
  | .deleted none | .purged false => true
  | _ => false

variable {ρ : Type}

def Call.perform : Call → Operation ρ Answer
  | .createDeployment fresh name => do return .created (← Command.createDeployment fresh name)
  | .deleteDeployment key force confirm => do
    return .deleted (← Command.deleteDeployment key force confirm)
  | .renameResource key source target => do
    Command.renameResource key source target
    return .renamed
  | .purgeResource key name confirm => do
    return .purged (← Command.purgeResource key name confirm)
  | .importBackup text => do return .imported (← Command.importBackup text)

def callAll : List Call → World ρ → List (Except CommandError Answer) × World ρ
  | [], w => ([], w)
  | call :: rest, w =>
    let (outcome, w) := call.perform.run w
    let (outcomes, w) := callAll rest w
    (outcome :: outcomes, w)

end DesiredState.Command
