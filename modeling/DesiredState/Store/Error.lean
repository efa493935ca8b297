import DesiredState.Json.Decode
import DesiredState.Lock.Error

/-!
# Failures of the store
-/

namespace DesiredState

inductive DatabaseFault where
  /-- An attribute was written for an owner that does not exist. -/
  | ownerMissing
  /-- The file holds something else. -/
  | notADatabase
  /-- The file starts like a database and goes on otherwise. -/
  | damaged
  /-- There is no table of a name in the file. -/
  | tableMissing (name : String)
  /-- The path cannot be opened as a file. -/
  | cannotOpen (path : String)
  /-- A file beside the one that is open cannot be opened. -/
  | cannotOpenBeside
  /-- What should be a file can be neither read nor removed. -/
  | unreachable
  /-- Somebody else is at work on the file. -/
  | locked
  /-- Those who use the file have no way to tell each other what they do. -/
  | noAgreement
  /-- The path holds the character that ends names, at a position in bytes. -/
  | nulInPath (position : Nat)
  /-- The file may only be read. -/
  | readOnly
  /-- The file no longer stands where it was opened. -/
  | moved
  deriving DecidableEq

def DatabaseFault.message : DatabaseFault → String
  | .ownerMissing => "FOREIGN KEY constraint failed"
  | .notADatabase => "file is not a database"
  | .damaged => "database disk image is malformed"
  | .tableMissing name => "no such table: " ++ name
  | .cannotOpen path => "unable to open database file: " ++ path
  | .cannotOpenBeside => "unable to open database file"
  | .unreachable => "disk I/O error"
  | .locked => "database is locked"
  | .noAgreement => "locking protocol"
  | .nulInPath position => "nul byte found in provided data at position: " ++ toString position
  | .readOnly | .moved => "attempt to write a readonly database"

/-- Why an operation on the store failed. -/
inductive StoreError where
  | database (fault : DatabaseFault)
  | invalidValue (cause : Json.DecodeError)
  | createDirectory (path : String) (cause : FileError)
  | deploymentNotFound (key : String)
  | ambiguousDeployment (name : String)
  | deploymentExists (uuid : String)
  | resourceNotFound (deployment name : String)
  | resourceExists (deployment name : String)
  | typeMismatch (name existing requested : String)
  deriving DecidableEq

def StoreError.message : StoreError → String
  | .database fault => "database error: " ++ fault.message
  | .invalidValue cause => "invalid attribute value: " ++ cause.message
  | .createDirectory path cause =>
    "cannot create state directory " ++ path ++ ": " ++ cause.message
  | .deploymentNotFound key => "deployment not found: " ++ key
  | .ambiguousDeployment name =>
    "deployment name '" ++ name ++ "' is ambiguous; use the UUID instead"
  | .deploymentExists uuid => "deployment already exists: " ++ uuid
  | .resourceNotFound deployment name =>
    "resource '" ++ name ++ "' not found in deployment " ++ deployment
  | .resourceExists deployment name =>
    "resource '" ++ name ++ "' already exists in deployment " ++ deployment
  | .typeMismatch name existing requested =>
    "resource '" ++ name ++ "' has type '" ++ existing ++ "', cannot redeclare it as '" ++
      requested ++ "'"

/-- Failures among which those of the store are. -/
class StoreFailure (ε : Type) where
  ofStore : StoreError → ε
  /-- The failure of the store that a failure is. -/
  store? : ε → Option StoreError

instance : StoreFailure StoreError := ⟨id, some⟩

end DesiredState
