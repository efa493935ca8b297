import DesiredState.CommandLine.Run
import DesiredState.File.Change
import DesiredState.Store.Encoding

/-!
# The program

The variables, the files and the answer to a question are gathered, the run itself is computed,
and what it changed is written back. The lock of the state file is held from before the file is
read until after it is written.
-/

namespace DesiredState.CommandLine

def knownVariables : List String :=
  [Path.Environment.homeVariable, stateVariable, deploymentVariable, Path.configLocation.override,
    Path.configLocation.base, Path.stateLocation.override, Path.stateLocation.base,
    colourVariable, noColourVariable]

def gatherVariables (names : List String) (env : Path.Environment) : IO Path.Environment :=
  names.foldlM (fun env name => do
    match ← IO.getEnv name with
    | some value => return env.set name value
    | none => return env) env

/-- The number of an account in what the system tells of a process. -/
def accountOf? (status : String) : Option String :=
  ((status.splitOn "\n").find? fun line => line.startsWith "Uid:").bind fun line =>
    (line.splitOn "\t")[1]?

def homeOf? (accounts account : String) : Option String :=
  ((accounts.splitOn "\n").map (·.splitOn ":")).findSome? fun fields =>
    if fields[2]? = some account then fields[5]? else none

def accountHome : IO (Option String) := do
  try
    let status ← IO.FS.readFile "/proc/self/status"
    let accounts ← IO.FS.readFile "/etc/passwd"
    return (accountOf? status).bind (homeOf? accounts)
  catch _ => return none

def pathOf (place : Place) : String := "/" ++ "/".intercalate place

/-- The number with which the operating system says that a path leads to a directory. -/
def directoryCode : UInt32 := 21

/-- What a file that cannot be read is taken to hold: something that is no store. -/
def unreadable : FileContent := .text "unreadable"

def contentOfText (text : String) : FileContent :=
  match Store.decode? text with
  | some s => .store s
  | none => .text text

def gatherPlace (files : FileTree) (place : Place) : IO FileTree := do
  if place.isEmpty ∨ (files.at? place).isSome then return files
  try
    return files.create place (contentOfText (← IO.FS.readFile (pathOf place)))
  catch
    | .noFileOrDirectory .. => return files
    | .inappropriateType _ code _ =>
      return if code = directoryCode then files.put place .directory else files
    | _ => return files.create place unreadable

/-- Follow a component without looking at what stands there. -/
def follow (place : Place) (part : String) : Place :=
  if part = "." then place
  else if part = ".." then place.dropLast
  else place ++ [part]

/-- Add to a tree what a path leads through and what it leads to. -/
def gatherPath (files : FileTree) (path : String) : IO FileTree :=
  let parts := Path.steps path
  ((List.range (parts.length + 1)).map fun count =>
    (parts.take count).foldl follow (files.origin path)).foldlM gatherPlace files

def besidePaths (path : String) : List String :=
  path :: SideFile.all.map fun side => path ++ side.suffix

/-- The paths that matter for a state file: its own, that of its lock file, and those that an
address names. -/
def statePaths (path : String) : List String :=
  StoreLock.lockPath path :: besidePaths path ++
    match Address.ofText? path with
    | some a => (a.path.toList.flatMap besidePaths) ++ a.model.toList
    | none => []

def writeContent (path : String) (content : FileContent) : IO Unit := do
  match content with
  | .text content => IO.FS.writeFile path content
  | .changes _ | .index => IO.FS.writeFile path "\x00"
  | .store s =>
    IO.FS.writeFile (path ++ ".new") s.encode
    IO.FS.rename (path ++ ".new") path

def writeChange (place : Place) (change : FileTree.Change) : IO Unit := do
  match change with
  | .madeDirectory => IO.FS.createDirAll (pathOf place)
  | .written content => writeContent (pathOf place) content
  | .removed => IO.FS.removeFile (pathOf place)

/-- Do to the disk what happened, directories first. -/
def writeChanges (changes : List (Place × FileTree.Change)) : IO Unit := do
  let (directories, files) := changes.partition fun change => change.2 = .madeDirectory
  for (place, change) in directories ++ files do
    writeChange place change

def randomUuid : IO String := do
  let bytes := (← IO.getRandomBytes 16).toList
  let marked := bytes.zipIdx.map fun (byte, i) =>
    if i = 6 then (byte &&& 0x0f) ||| 0x40
    else if i = 8 then (byte &&& 0x3f) ||| 0x80
    else byte
  let digits := marked.flatMap fun byte =>
    [Nat.digitChar (byte.toNat / 16), Nat.digitChar (byte.toNat % 16)]
  let part (start length : Nat) := String.ofList ((digits.drop start).take length)
  return "-".intercalate [part 0 8, part 8 4, part 12 4, part 16 4, part 20 12]

/-- Whether a command changes the state file. -/
def Job.writes : Job → Bool
  | .list | .info _ | .exportBackup _ | .completions _ => false
  | _ => true

def lockFile (statePath : String) (quiet coloured : Bool) : IO (Option IO.FS.Handle) := do
  try
    let path := StoreLock.lockPath statePath
    if let some dir := (Path.parent? path).filter (· ≠ "") then
      IO.FS.createDirAll dir
    let handle ← IO.FS.Handle.mk path .append
    unless ← handle.tryLock do
      unless quiet do
        (← IO.getStderr).putStr (logText coloured ⟨.warn, .storeLock,
          "Waiting for exclusive lock on " ++ statePath ++
            " (another process is using this state file)..."⟩)
      handle.lock
    return some handle
  catch _ => return none

def askTerminal (question : String) : IO Bool := do
  (← IO.getStderr).putStr (question ++ " [y/N] ")
  let answer := (← (← IO.getStdin).getLine).trimAscii.toString
  return answer = "y" ∨ answer = "Y" ∨ answer = "yes"

/-- Compute a run; if it asks a question and there is a terminal, compute it again with the
answer. -/
def runAsking (p : Process) (disk : Disk) : IO Ending := do
  let ending := run p disk
  match ending.questions with
  | question :: _ =>
    if ending.code = 1 ∧ (← (← IO.getStderr).isTty) then
      let yes ← askTerminal question
      return run { p with confirm := .answered yes } disk
    else return ending
  | [] => return ending

def gatherConfig : IO (Path.Environment × FileTree) := do
  let env ← gatherVariables knownVariables (.ofAccount (← accountHome))
  let env ← gatherVariables
    (env.values.values.flatMap fun v => Path.mentionedNames v.toList) env
  let start := Path.components (← IO.currentDir).toString
  let files ← gatherPath (.empty start) (pathOf start)
  match Path.configLocation.resolve? env with
  | none => return (env, files)
  | some (dir, _) =>
    let files ← gatherPath files (Path.join dir Config.fileName)
    let texts := files.contents.filterMap fun entry =>
      match entry.2 with
      | .text content => some content
      | _ => none
    return (← gatherVariables (texts.flatMap fun t => Path.mentionedNames t.toList) env, files)

def runOnDisk (p : Process) (r : Request) (files : FileTree) : IO Ending := do
  match (prepare p r ⟨.ofFiles files, [], ""⟩).1 with
  | .error _ => return run p (.ofFiles files)
  | .ok c =>
    let coloured := (Colouring.ofEnvironment p.env).log
    let handle ← if r.command.writes then lockFile c.statePath c.quiet coloured else pure none
    let files ← (statePaths c.statePath).foldlM gatherPath files
    let ending ← runAsking p (.ofFiles files)
    writeChanges (files.changes ending.disk.files)
    if let some handle := handle then
      handle.unlock
    return ending

/-- Run the program; the outcome is its exit code. -/
def start (arguments : List String) : IO UInt32 := do
  let (env, files) ← gatherConfig
  let input (r : Request) : IO String := do
    if r.command = .importBackup then (← IO.getStdin).readToEnd else return ""
  let ending ← match read env arguments with
    | .run r => runOnDisk ⟨env, arguments, ← input r, ← randomUuid, noTerminal⟩ r files
    | _ => pure (run ⟨env, arguments, "", "", noTerminal⟩ (.ofFiles files))
  (← IO.getStderr).putStr ending.errors
  (← IO.getStdout).putStr ending.output
  return UInt32.ofNat ending.code

end DesiredState.CommandLine

def main (arguments : List String) : IO UInt32 := DesiredState.CommandLine.start arguments
