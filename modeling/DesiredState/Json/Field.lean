import DesiredState.Json.Basic

/-!
# Members of records

A record with fixed members is read from an object in which members that nobody asks for are
ignored, and the ones asked for must not be repeated.
-/

namespace DesiredState.Json

/-- A member of a record as found in an object. -/
inductive Field where
  | absent
  | once (v : Json)
  | repeated
  deriving DecidableEq

/-- How often a key occurs, and its value if that is once. -/
def Field.find (key : String) (members : List (String × Json)) : Field :=
  match members.filter fun member => member.1 = key with
  | [] => .absent
  | [(_, v)] => .once v
  | _ => .repeated

def Field.string? : Field → Option String
  | .once (.str s) => some s
  | _ => none

end DesiredState.Json
