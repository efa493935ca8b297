import DesiredState.Failure
import DesiredState.Journal
import DesiredState.Lock.Key
import DesiredState.Poll
import DesiredState.Store.Obstacles

/-!
# The world that operations act on

Operations act on the store and on something remote, use the shared policies and mutexes, read
the clock, and leave their traces in the journal.
-/

namespace DesiredState

structure Services where
  retry : Retry.Policy := {}
  poll : Poll.Policy := {}
  /-- The random sample used before a given attempt is repeated. -/
  sample : UInt32 → Float := fun _ => 0.5

/-- Everything an operation can see and change; `ρ` is the remote side. -/
structure World (ρ : Type) where
  store : Store
  remote : ρ
  services : Services
  mutexes : Mutexes
  /-- The time, in seconds of Unix time. -/
  now : Nat
  journal : Journal
  /-- What keeps the store from being read or changed. -/
  obstacles : Obstacles

abbrev Task (ρ α : Type) : Type := Action (World ρ) Failure α

namespace World

variable {ρ ε α : Type}

def start (remote : ρ) (services : Services) (now : Nat) : World ρ :=
  ⟨.empty, remote, services, .empty, now, [], {}⟩

def record (entry : JournalEntry) (w : World ρ) : World ρ :=
  { w with journal := w.journal ++ [entry] }

def log (level : LogLevel) (source : LogSource) (text : String) : Action (World ρ) ε Unit :=
  Action.update (record (.logged ⟨level, source, text⟩))

def progress (step : Progress) : Action (World ρ) ε Unit :=
  Action.update (record (.progressed step))

def onStore [StoreFailure ε] (a : Action Store ε α) : Action (World ρ) ε α := fun w =>
  Action.zoom World.store (fun s w => { w with store := s }) (w.obstacles.guard a) w

def inStore (a : Action Store StoreError α) : Task ρ α := onStore (a.mapError Failure.store)

def onRemote (a : Action ρ ε α) : Action (World ρ) ε α :=
  Action.zoom World.remote (fun r w => { w with remote := r }) a

def pauseAttempt (label : String) (notice : Retry.Notice Failure) (w : World ρ) : World ρ :=
  (w.record (.logged ⟨.warn, .engine, notice.text label Failure.message⟩)).record
    (.slept notice.delay)

/-- Run a remote call, again while its failures are transient. Additions are checked. -/
def retrying (label : String) (operation : Task ρ α) : Task ρ α := fun w =>
  w.services.retry.run Failure.decision w.services.sample (pauseAttempt label)
    (fun _ => .overflow) operation w

/-- Wait for a condition under the shared policy. -/
def polling (what : String) (condition : Task ρ Bool) : Task ρ Bool := fun w =>
  w.services.poll.await what Failure.lock (fun delay w => w.record (.slept delay)) condition w

/-- Run an operation while the mutex of a key is held. -/
def exclusive (key : LockKey) (operation : Action (World ρ) ε α) : Action (World ρ) ε α :=
  Mutexes.exclusive World.mutexes (fun m w => { w with mutexes := m }) key operation

end World

inductive Confirmation where
  /-- The user says yes or no. -/
  | answered (yes : Bool)
  /-- Yes, without asking. -/
  | assumed
  /-- The question cannot be shown or answered. -/
  | unanswerable (reason : String)
  deriving DecidableEq

def Confirmation.ask {ρ : Type} (c : Confirmation) (question : String) : Task ρ Bool := do
  Action.update (World.record (.asked question))
  match c with
  | .answered yes => return yes
  | .assumed =>
    World.log .debug .prompts ("Auto-confirmed: " ++ question)
    return true
  | .unanswerable reason => Action.fail (.prompt reason)

end DesiredState
