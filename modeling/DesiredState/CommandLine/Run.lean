import DesiredState.Command.Backups
import DesiredState.Command.Resources
import DesiredState.CommandLine.Colouring
import DesiredState.CommandLine.LogText
import DesiredState.CommandLine.Screen
import DesiredState.CommandLine.Usage
import DesiredState.Config.Load
import DesiredState.Lock.StoreLock
import DesiredState.World.StateFile

/-!
# Running a request

A command works on a state file and shows what it did. Commands that change the file hold its lock
meanwhile. A run is a function of what the process starts with, so it can be repeated with the
answer to the question that it asked.
-/

namespace DesiredState.CommandLine

/-- A question stays open when there is no terminal. -/
def noTerminal : Confirmation := .unanswerable "IO error: not a terminal"

/-- What a process starts with besides the disk. -/
structure Process where
  env : Path.Environment
  arguments : List String
  input : String
  /-- The UUID of a deployment that is created. -/
  fresh : String
  /-- How a question is answered when it may not be skipped. -/
  confirm : Confirmation := noTerminal

structure Session where
  disk : Disk
  journal : Journal
  /-- What was shown so far. -/
  shown : String

structure Ending where
  code : Nat
  output : String
  errors : String
  disk : Disk
  /-- The questions that were asked. -/
  questions : List String

abbrev Step (α : Type) : Type := Action Session CommandError α

namespace Session

def record (entry : JournalEntry) (s : Session) : Session :=
  { s with journal := s.journal ++ [entry] }

def log (line : LogLine) : Step Unit := Action.update (record (.logged line))

def put (text : String) : Step Unit := Action.update fun s => { s with shown := s.shown ++ text }

def withDisk (disk : Disk) (s : Session) : Session := { s with disk := disk }

def onDisk {α : Type} (a : Action Disk CommandError α) : Step α :=
  Action.zoom Session.disk withDisk a

end Session

/-- What a command needs to know: the state file, the configuration and how to show things. -/
structure Context where
  statePath : String
  config : Config
  quiet : Bool
  /-- Whether what is shown is coloured. -/
  coloured : Bool

/-- Log the lines that come with a value, or fail with a message where there is no value. -/
def orMessage {α : Type} (text : String) (found : Option (α × List LogLine)) : Step α :=
  match found with
  | none => Action.fail (.message text)
  | some (x, lines) => do
    Action.forEach Session.log lines
    return x

/-- Load the configuration and find the state file. -/
def prepare (p : Process) (r : Request) : Step Context := do
  let dir ← orMessage Config.noHomeMessage (Path.configLocation.resolve? p.env)
  let files ← Action.view fun s => s.disk.files
  match Config.load files (Path.join dir Config.fileName) with
  | .error e => Action.fail (.message e.message)
  | .ok (config, lines) =>
    Action.forEach Session.log lines
    let path ← orMessage Config.noHomeMessage (config.stateFile? p.env r.stateFile)
    Session.log ⟨.debug, .application, "Using state file " ++ path⟩
    return ⟨path, config, r.quiet, (Colouring.ofEnvironment p.env).output⟩

def selected (c : Context) (given : Option String) : Step String :=
  match c.config.deployment? given with
  | some key => return key
  | none => Action.fail (.message Config.noDeploymentMessage)

def cannotOpenText (path : String) : String := "Could not open state file " ++ path

/-- Open the state file; nothing for a store that is kept in no file. -/
def openState (c : Context) : Step (Option StateFile) := do
  let file ← Session.onDisk ((StateFile.openAt c.statePath).mapError
    (CommandError.explained (cannotOpenText c.statePath)))
  Session.log ⟨.debug, .store, "Opened state file " ++ c.statePath⟩
  return file

/-- Run an operation on the store in a state file and leave the file; what it logs becomes part of
the session. No command looks at the clock. -/
def onStateFile {α : Type} (file : Option StateFile) (operation : Command.Operation Unit α) :
    Step α := fun s =>
  let (result, w, disk) := match file with
    | none =>
      let (result, w) := operation (World.start () {} 0)
      (result, w, s.disk)
    | some file =>
      let (result, w, file, disk) := file.running (World.start () {} 0) operation s.disk
      (result, w, file.close disk)
  (result, { s with disk := disk, journal := s.journal ++ w.journal })

/-- Open the state file and run an operation on it. -/
def reading {α : Type} (c : Context) (operation : Command.Operation Unit α) :
    Step α := do
  let file ← openState c
  onStateFile file operation

/-- Open the state file and run an operation on it while its lock is held. -/
def writing {α : Type} (c : Context) (operation : Command.Operation Unit α) :
    Step α :=
  StoreLock.holding Session.disk Session.withDisk CommandError.lock c.statePath fun lock => do
    Session.log ⟨.debug, .storeLock, "Acquired store lock " ++ lock.path⟩
    reading c operation

def confirmation (p : Process) (yes : Bool) : Confirmation := if yes then .assumed else p.confirm

def runList (c : Context) : Step Unit := do
  let records ← reading c (Command.onStore Store.listDeployments)
  if ¬ records.isEmpty then Session.put (Screen.deployments c.coloured records)
  else if ¬ c.quiet then
    Session.put (Screen.remark c.coloured ("No deployments in " ++ c.statePath))

def describe (key : String) :
    Command.Operation Unit (DeploymentRecord × List Command.ResourceRow) := do
  let record ← Command.onStore (Store.findDeployment key)
  return (record, ← Command.resourceRows record.uuid)

def runInfo (c : Context) (deployment : Option String) : Step Unit := do
  let key ← selected c deployment
  let (record, rows) ← reading c (describe key)
  Session.put (Screen.deployment c.coloured record rows)

def runExport (c : Context) (deployment : Option String) : Step Unit := do
  let backup ← reading c (Command.exportBackup deployment)
  Session.put (Screen.line backup.toJson.renderIndented)

def runImport (p : Process) (c : Context) : Step Unit := do
  let uuids ← writing c (Command.importBackup p.input)
  if uuids.isEmpty then Session.put (Screen.notice c.coloured "Nothing to import")
  Action.forEach
    (fun uuid => Session.put (Screen.success c.coloured ("Imported deployment " ++ uuid))) uuids

def runCreate (p : Process) (c : Context) (name : Option String) : Step Unit := do
  let uuid ← writing c (Command.createDeployment p.fresh name)
  Session.put (if c.quiet then Screen.line uuid
    else Screen.success c.coloured ("Created deployment " ++ uuid))

def runDelete (p : Process) (c : Context) (deployment : Option String) (force yes : Bool) :
    Step Unit := do
  let key ← selected c deployment
  match ← writing c (Command.deleteDeployment key force (confirmation p yes)) with
  | some uuid => Session.put (Screen.success c.coloured ("Deleted deployment " ++ uuid))
  | none => Session.put (Screen.notice c.coloured "Cancelled")

def runRename (c : Context) (deployment : Option String) (source target : String) :
    Step Unit := do
  let key ← selected c deployment
  writing c (Command.renameResource key source target)
  Session.put (Screen.success c.coloured ("Renamed '" ++ source ++ "' to '" ++ target ++ "'"))

def runPurge (p : Process) (c : Context) (deployment : Option String) (resource : String)
    (yes : Bool) : Step Unit := do
  let key ← selected c deployment
  if ← writing c (Command.purgeResource key resource (confirmation p yes)) then
    Session.put (Screen.success c.coloured ("Purged resource '" ++ resource ++ "'"))
  else Session.put (Screen.notice c.coloured "Cancelled")

def runCommand (p : Process) (c : Context) : Job → Step Unit
  | .list => runList c
  | .info deployment => runInfo c deployment
  | .exportBackup deployment => runExport c deployment
  | .importBackup => runImport p c
  | .create name => runCreate p c name
  | .delete deployment force yes => runDelete p c deployment force yes
  | .rename deployment source target => runRename c deployment source target
  | .purge deployment resource yes => runPurge p c deployment resource yes
  | .completions _ => return ()

/-- Run a request. Completions need neither configuration nor state file. -/
def runRequest (p : Process) (r : Request) : Step Unit :=
  match r.command with
  | .completions shell => Session.put (completionScript shell)
  | command => do
    let c ← prepare p r
    runCommand p c command

/-- The greatest detail of the lines that are written. -/
def Request.detail (r : Request) : Nat :=
  if r.quiet then LogLevel.error.detail else LogLevel.warn.detail + r.verbosity

def failureText (e : CommandError) : String := Screen.line ("Error: " ++ e.text)

def finish (p : Process) (r : Request) (disk : Disk) : Ending :=
  let (result, s) := runRequest p r ⟨disk, [], ""⟩
  let log := writtenLog (Colouring.ofEnvironment p.env).log r.detail s.journal
  match result with
  | .ok _ => ⟨0, s.shown, log, s.disk, s.journal.questions⟩
  | .error e => ⟨1, s.shown, log ++ failureText e, s.disk, s.journal.questions⟩

def run (p : Process) (disk : Disk) : Ending :=
  match read p.env p.arguments with
  | .usage reason => ⟨2, "", usageText reason, disk, []⟩
  | .help => ⟨0, helpText, "", disk, []⟩
  | .version name => ⟨0, versionText name, "", disk, []⟩
  | .run r => finish p r disk

end DesiredState.CommandLine
