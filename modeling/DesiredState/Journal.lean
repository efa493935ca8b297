import DesiredState.Duration

/-!
# The journal of a run

Everything a run shows apart from its result is an entry of its journal, in the order in which
it happened: log lines, pauses, progress of handlers and questions asked.
-/

namespace DesiredState

inductive LogLevel where
  | error
  | warn
  | info
  | debug
  deriving DecidableEq, Repr

def LogLevel.text : LogLevel → String
  | .error => "ERROR"
  | .warn => "WARN"
  | .info => "INFO"
  | .debug => "DEBUG"

def LogLevel.detail : LogLevel → Nat
  | .error => 1
  | .warn => 2
  | .info => 3
  | .debug => 4

/-- The part of the program that a line comes from. -/
inductive LogSource where
  | application
  | paths
  | config
  | prompts
  | deployments
  | store
  | storeLock
  | state
  | engine
  deriving DecidableEq, Repr

/-- The name of a source as it stands in a line. -/
def LogSource.text : LogSource → String
  | .application => "stratus"
  | .paths => "stratus::paths"
  | .config => "stratus::config"
  | .prompts => "stratus::ui"
  | .deployments => "stratus::commands::deployments"
  | .store => "attrstore"
  | .storeLock => "lockkit::store_lock"
  | .state => "reconcile::state"
  | .engine => "reconcile"

structure LogLine where
  level : LogLevel
  source : LogSource
  text : String
  deriving DecidableEq

inductive Progress where
  | planned (resource : String) (handlers : List String)
  | started (resource handler : String)
  | completed (resource handler : String) (failure : Option String)
  deriving DecidableEq

inductive JournalEntry where
  | logged (line : LogLine)
  | slept (delay : Duration)
  | progressed (step : Progress)
  | asked (question : String)
  deriving DecidableEq

abbrev Journal : Type := List JournalEntry

namespace Journal

def lines (j : Journal) : List LogLine :=
  j.filterMap fun entry => match entry with
    | .logged line => some line
    | _ => none

def sleeps (j : Journal) : List Duration :=
  j.filterMap fun entry => match entry with
    | .slept delay => some delay
    | _ => none

def steps (j : Journal) : List Progress :=
  j.filterMap fun entry => match entry with
    | .progressed step => some step
    | _ => none

def questions (j : Journal) : List String :=
  j.filterMap fun entry => match entry with
    | .asked question => some question
    | _ => none

end Journal

end DesiredState
