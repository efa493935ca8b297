import DesiredState.Store.Address.Option

/-!
# Addresses of state files

A state file is named by its path or by an address that starts with `file:`. Behind the path an
address may have options, which say how the file is opened, and what follows a `#` does not count.
Some names stand for a store that is kept in no file.
-/

namespace DesiredState

/-- What may be done with a state file; each way includes those before it. -/
inductive Access where
  | reading
  | writing
  | creating
  deriving DecidableEq, Repr

def Access.rank : Access → Nat
  | .reading => 1
  | .writing => 2
  | .creating => 3

/-- How others are kept from a state file that is in use. -/
inductive Locking where
  /-- Parts of the file are locked, so several can work on it in turn. -/
  | parts
  /-- The file is locked as a whole. -/
  | whole
  /-- Something stands beside the file as long as it is in use. -/
  | mark
  | none
  deriving DecidableEq, Repr

/-- Whether changes may be kept beside a file that is locked in this way. -/
def Locking.allowsRedo : Locking → Bool
  | .parts | .whole => true
  | .mark | .none => false

structure Address where
  /-- The path of the file; nothing for a store that is kept in no file. -/
  path : Option String
  access : Access
  locking : Locking
  /-- Whether the file is taken to change never. -/
  frozen : Bool
  /-- The path of a file that has to be there, since its rights are taken over. -/
  model : Option String
  deriving DecidableEq

namespace Address

def isWritable (a : Address) : Bool := a.access ≠ .reading && ¬ a.frozen

/-- The path of the file with a name, unless the name stands for no file. -/
def file? (name : String) : Option String :=
  if name = "" ∨ name = ":memory:" then none else some name

/-- What follows the host; the only host is this one. -/
def afterHost? : List Char → Option (List Char)
  | '/' :: '/' :: rest =>
    let host := String.ofList (rest.takeWhile (· ≠ '/'))
    if host = "" ∨ host = "localhost" then some (rest.dropWhile (· ≠ '/')) else none
  | rest => some rest

/-- The way of reaching files that keeps them in memory. -/
def memorySystem : String := "memdb"

/-- How files are locked that are reached in some way. -/
def lockingOf? : String → Option Locking
  | "unix" => some .parts
  | "unix-excl" => some .whole
  | "unix-dotfile" => some .mark
  | "unix-none" => some .none
  | _ => none

/-- How options say that a file is opened. -/
structure Opening where
  /-- What may be done with the file; nothing for a store in memory. -/
  access : Option Access
  /-- The way in which files are reached. -/
  system : String

/-- Choose what may be done: never more than was chosen before, unless that was a store in
memory. -/
def Opening.choose? (o : Opening) (access : Access) : Option Opening :=
  match o.access with
  | some chosen => if access.rank ≤ chosen.rank then some { o with access := access } else none
  | none => some { o with access := access }

/-- Take over an option; unknown ones say nothing. -/
def Opening.apply? (o : Opening) : String × String → Option Opening
  | ("mode", "ro") => o.choose? .reading
  | ("mode", "rw") => o.choose? .writing
  | ("mode", "rwc") => o.choose? .creating
  | ("mode", "memory") => some { o with access := none }
  | ("mode", _) => none
  | ("cache", value) => if value = "shared" ∨ value = "private" then some o else none
  | ("vfs", name) => some { o with system := name }
  | _ => some o

/-- The address of a file, or of a store in memory if there is none. A store in memory that has a
name, like a file, can be taken to change never. -/
def Opening.address? (o : Opening) (file : Option String) (options : List (String × String)) :
    Option Address :=
  let named := file.filter fun _ => o.access.isSome
  let frozen := named.isSome && optionSaysYes options "immutable"
  let address (path : Option String) (locking : Locking) : Address :=
    ⟨path, o.access.getD .creating, locking, frozen, optionValue? options "modeof"⟩
  if o.system = memorySystem then some (address none .none)
  else (lockingOf? o.system).map fun locking =>
    address named (if optionSaysYes options "nolock" then .none else locking)

def ofParts? (text : List Char) : Option Address := do
  let body := (← afterHost? text).takeWhile (· ≠ '#')
  let options := optionsOf ((body.dropWhile (· ≠ '?')).drop 1)
  let o ← options.foldlM Opening.apply? ⟨some .creating, "unix"⟩
  o.address? (file? (decoded (body.takeWhile (· ≠ '?')))) options

/-- The address of a file that is opened without further ado. -/
def ofPath (path : String) : Address := ⟨file? path, .creating, .parts, false, none⟩

/-- The address in a text; nothing where its options make no sense. -/
def ofText? (text : String) : Option Address :=
  match text.toList with
  | 'f' :: 'i' :: 'l' :: 'e' :: ':' :: rest => ofParts? rest
  | _ => some (ofPath text)

end Address

end DesiredState
