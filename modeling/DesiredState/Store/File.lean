import DesiredState.File.Disk
import DesiredState.Store.Address
import DesiredState.Store.Header
import DesiredState.Store.Route
import DesiredState.Store.SideFile

/-!
# State files

A state file holds a store. Opening one that is missing or blank puts an empty store there; a
file with other content is refused. A store that is kept in no file starts empty and is gone at
the end.

Whoever comes to a state file first looks beside it. An undo file tells of a change that did not
end and is removed. A redo file is used from then on: changes go there as well, and the last one
to leave removes it. A blank state file makes no use of either, so they are left over and removed.
-/

namespace DesiredState

structure StateFile where
  /-- Where the file was when it was opened. -/
  place : Place
  number : Nat
  access : Access
  locking : Locking
  /-- Whether the file is taken to change never. -/
  frozen : Bool
  /-- Whether changes go to the redo file. -/
  redoing : Bool
  deriving DecidableEq

namespace StateFile

def form (f : StateFile) (d : Disk) : FileForm := .ofContent (d.files.contentOf f.number)

def sideNode? (f : StateFile) (side : SideFile) (d : Disk) : Option FileNode :=
  d.files.at? (side.beside f.place)

def removeSide (f : StateFile) (side : SideFile) (d : Disk) : Disk :=
  { d with files := d.files.removeFile (side.beside f.place) }

/-- Whether the file still stands where it was opened. -/
def isInPlace (f : StateFile) (d : Disk) : Bool := d.files.at? f.place = some (.file f.number)

/-- Whether a file tells of a change that did not end: not when it starts with a zero. -/
def tellsOfChange (c : FileContent) : Bool :=
  match c with
  | .text content => content.toList.head?.any (· ≠ '\x00')
  | _ => true

/-- Whether nothing stands any more where the file was opened. The rights of a side file are those
of what stands there, so no side file can be opened then. -/
def isGone (f : StateFile) (d : Disk) : Bool := (d.files.at? f.place).isNone

/-- Deal with an undo file. Only a file that may be changed can go back to what it was, and only
when nobody else uses its redo file. Where a mark tells that a file is in use, the change may well
be going on. -/
def undo (f : StateFile) : Action Disk DatabaseFault Unit := fun d =>
  match (if f.locking = .mark then none else f.sideNode? .undo d) with
  | none => (.ok (), d)
  | some .directory => (if f.form d = .blank then .ok () else .error .unreachable, d)
  | some (.file number) =>
    let content := d.files.contentOf number
    if f.form d = .blank then
      if content.isEmpty ∨ f.access = .reading then (.ok (), d) else (.ok (), f.removeSide .undo d)
    else if f.isGone d then (.error .unreachable, d)
    else if ¬ tellsOfChange content then (.ok (), d)
    else if f.access = .reading then (.error .readOnly, d)
    else if d.shared.contains f.number then (.error .locked, d)
    else (.ok (), f.removeSide .undo d)

/-- Whether an index is needed for which there is no room. Those who use the redo file need none
when they share their memory. -/
def lacksIndex (f : StateFile) (d : Disk) : Bool :=
  f.locking = .parts && f.sideNode? .index d = some .directory

def putIndex (f : StateFile) (d : Disk) : Disk :=
  if f.locking = .parts ∧ ¬ f.lacksIndex d then
    { d with files := d.files.putContent (SideFile.index.beside f.place) .index }
  else d

def startRedo (f : StateFile) : Action Disk DatabaseFault StateFile := fun d =>
  if f.redoing then (.ok f, d)
  else (.ok { f with redoing := true }, f.putIndex { d with shared := f.number :: d.shared })

/-- Whether a redo file is marked as one that holds changes. -/
def isMarkedRedo (c : FileContent) : Bool :=
  match c with
  | .text content =>
    let bytes := FileForm.bytesOf content
    32 ≤ bytes.length && FileForm.numberAt bytes 16 8 ≠ 0
  | _ => true

/-- Deal with a redo file; an empty one does not count. Without an index only a file without
changes makes sense. -/
def redo (f : StateFile) : Action Disk DatabaseFault StateFile := fun d =>
  match f.sideNode? .redo d with
  | none => (.ok f, d)
  | some .directory =>
    (.error (if f.form d = .blank then .unreachable else .cannotOpenBeside), d)
  | some (.file number) =>
    if (d.files.contentOf number).isEmpty then (.ok f, d)
    else if f.form d = .blank then (.ok f, f.removeSide .redo d)
    else if ¬ f.locking.allowsRedo then (.error .cannotOpenBeside, d)
    else if f.isGone d then (.error .unreachable, d)
    else if f.lacksIndex d ∧ isMarkedRedo (d.files.contentOf number) then (.error .noAgreement, d)
    else f.startRedo d

/-- Look beside the file before anything is read. A file that never changes is read as it is, and
who uses an index knows all there is to know. -/
def lookBeside (f : StateFile) : Action Disk DatabaseFault StateFile := do
  if f.frozen ∨ f.redoing ∧ ¬ f.lacksIndex (← Action.current) then return f
  if ¬ f.redoing then f.undo
  f.redo

/-- The changes in the redo file, once it is used. -/
def changed? (f : StateFile) (d : Disk) : Option Store :=
  match f.sideNode? .redo d with
  | some (.file number) =>
    match d.files.contentOf number with
    | .changes s => if f.redoing then some s else none
    | _ => none
  | _ => none

def settleChanges (f : StateFile) (d : Disk) : Disk :=
  match f.changed? d with
  | some s =>
    if f.form d = .foreign then d else { d with files := d.files.write f.number (.store s) }
  | none => d

/-- Leave the file. The last one to leave puts what is in the redo file where it belongs. -/
def close (f : StateFile) (d : Disk) : Disk :=
  if ¬ f.redoing then d
  else
    let d := { d with shared := d.shared.erase f.number }
    if d.shared.contains f.number ∨ f.access = .reading ∨ ¬ f.isInPlace d ∨ f.lacksIndex d then d
    else
      let d := f.removeSide .redo (f.settleChanges d)
      if f.locking = .parts then f.removeSide .index d else d

/-- The table in which deployments are. -/
def firstTable : String := "deployments"

/-- The store in the file. -/
def held (f : StateFile) : Action Disk DatabaseFault Store :=
  Action.reading fun d =>
    match f.form d, f.changed? d with
    | .foreign, _ => .error .notADatabase
    | _, some s | .holding s, none => .ok s
    | .damaged, none => .error .damaged
    | .blank, none | .prepared, none => .error (.tableMissing firstTable)

/-- Come to the file and read the store in it. Who used the redo file before knows how the file
began: another beginning does not matter to its changes, and without them it is damage. -/
def load (f : StateFile) : Action Disk DatabaseFault (StateFile × Store) := do
  let known ← Action.view f.changed?
  let g ← f.lookBeside
  match known with
  | some s => return (g, s)
  | none => return (g, ← g.held.mapError fun fault => if f.redoing then .damaged else fault)

/-- Why what is in the file cannot be changed, if it cannot. Where changes go to the redo file it
matters neither whether the file is in its place nor who else uses it in that way. -/
def obstacle? (f : StateFile) (d : Disk) : Option DatabaseFault :=
  if f.access = .reading ∨ f.frozen then some .readOnly
  else if f.redoing then if f.lacksIndex d then some .readOnly else none
  else if ¬ f.isInPlace d then some .moved
  else if d.shared.contains f.number then some .locked
  else none

def save (f : StateFile) (s : Store) (d : Disk) : Disk :=
  if f.redoing then
    { d with files := d.files.putContent (SideFile.redo.beside f.place) (.changes s) }
  else f.removeSide .undo { d with files := d.files.write f.number (.store s) }

def hasRoom (f : StateFile) (d : Disk) : Bool :=
  (f.place.getLast?.getD "").utf8ByteSize ≤ SideFile.longestName &&
    f.sideNode? .undo d ≠ some .directory

/-- Put an empty store into the file, for which an undo file is needed meanwhile. -/
def prepare (f : StateFile) : Action Disk DatabaseFault Unit := fun d =>
  match f.obstacle? d with
  | some fault => (.error fault, d)
  | none =>
    if f.hasRoom d then (.ok (), f.save .empty d) else (.error .cannotOpenBeside, d)

/-- Whether somebody left a mark beside the file. -/
def isMarked (f : StateFile) (d : Disk) : Bool :=
  f.locking = .mark && ¬ f.frozen &&
    (d.files.at? (f.place.dropLast ++ [f.place.getLast?.getD "" ++ ".lock"])).isSome

/-- Make sure that there is a store in the file. -/
def ensure (f : StateFile) : Action Disk DatabaseFault Unit := do
  match ← Action.view f.form with
  | .blank | .prepared => f.prepare
  | _ => discard f.held

/-- Come to a file that was just opened; who finds no store there leaves again. -/
def settle (f : StateFile) : Action Disk DatabaseFault StateFile := do
  if ← Action.view f.isMarked then Action.fail .locked
  let f ← f.lookBeside
  match ← f.ensure.attempt with
  | .ok _ => return f
  | .error fault =>
    Action.update f.close
    Action.fail fault

/-- The file at a place, created if there is none and that is allowed. -/
def openPlace (path : String) (a : Address) (place : Place) : Action Disk DatabaseFault StateFile :=
  fun d =>
    let file (number : Nat) : StateFile := ⟨place, number, a.access, a.locking, a.frozen, false⟩
    match d.files.at? place with
    | some (.file number) => (file number).settle d
    | some .directory => (.error (.cannotOpen path), d)
    | none =>
      if a.access = .creating ∧ d.files.at? place.dropLast = some .directory then
        (file d.files.nextNumber).settle { d with files := d.files.create place (.text "") }
      else (.error (.cannotOpen path), d)

/-- Whether the file whose rights are taken over is there, if there has to be one. -/
def hasModel (a : Address) (d : Disk) : Bool := a.model.all fun path => (d.files.find? path).isSome

/-- Open what an address asks for; nothing for a store that is kept in no file. -/
def openAddress (path : String) (a : Address) : Action Disk DatabaseFault (Option StateFile) :=
  match a.path with
  | none => if a.isWritable then return none else Action.fail .readOnly
  | some file => fun d =>
    match Route.locate? d.files file with
    | none => (.error (.cannotOpen path), d)
    | some place =>
      if hasModel a d then (some <$> openPlace path a place) d else (.error .unreachable, d)

/-- The number of bytes before the character that ends names. -/
def nulPosition? (path : String) : Option Nat :=
  if path.toList.contains '\x00' then
    some (String.ofList (path.toList.takeWhile (· ≠ '\x00'))).utf8ByteSize
  else none

def openAt (path : String) : Action Disk StoreError (Option StateFile) := do
  Disk.createParent path StoreError.createDirectory
  Action.mapError StoreError.database
    (match nulPosition? path, Address.ofText? path with
    | some position, _ => Action.fail (.nulInPath position)
    | none, some a => openAddress path a
    | none, none => Action.fail (.cannotOpen path))

end StateFile

end DesiredState
