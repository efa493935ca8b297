/-!
# Failures of locks and waits
-/

namespace DesiredState

/-- Why the operating system refused to open or create a file. -/
inductive FileError where
  | notFound
  | exists
  | notDirectory
  | isDirectory
  | busy
  | nameTooLong
  /-- The path holds the character that ends names. -/
  | nulInName
  deriving DecidableEq, Repr

/-- A refusal in words, with the operating system's number for it. -/
def FileError.message : FileError → String
  | .notFound => "No such file or directory (os error 2)"
  | .exists => "File exists (os error 17)"
  | .notDirectory => "Not a directory (os error 20)"
  | .isDirectory => "Is a directory (os error 21)"
  | .busy => "Resource temporarily unavailable (os error 11)"
  | .nameTooLong => "File name too long (os error 36)"
  | .nulInName => "file name contained an unexpected NUL byte"

/-- Why a lock was not taken or a wait ended. -/
inductive LockError where
  /-- The lock file cannot be opened. -/
  | lockFile (path : String) (cause : FileError)
  /-- The lock file is open but cannot be locked. -/
  | lock (path : String) (cause : FileError)
  /-- A condition did not come true within the number of tries. -/
  | timedOut (what : String) (tries : UInt32)
  deriving DecidableEq

def LockError.message : LockError → String
  | .lockFile path cause => "cannot open lock file " ++ path ++ ": " ++ cause.message
  | .lock path cause => "cannot lock " ++ path ++ ": " ++ cause.message
  | .timedOut what tries =>
    "timed out waiting for " ++ what ++ " after " ++ toString tries.toNat ++ " tries"

end DesiredState
