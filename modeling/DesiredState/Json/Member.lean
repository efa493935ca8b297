import DesiredState.Json.Basic

/-!
# Optional members

Reading the members of an object that may be left out. A member that is missing reads as `null`,
and one of an unexpected kind reads as the default.
-/

namespace DesiredState.Json

def member (v : Json) (key : String) : Json :=
  match v with
  | .obj members => (findEntry key members).getD .null
  | _ => .null

/-- The member at a key unless it is `null`. -/
def given? (v : Json) (key : String) : Option Json :=
  if (v.member key).isNull then none else some (v.member key)

def text? (v : Json) (key : String) : Option String := (v.member key).string?

/-- The text at a key, or an empty one. -/
def text (v : Json) (key : String) : String := (v.text? key).getD ""

def flag (v : Json) (key : String) : Bool := (v.member key).bool?.getD false

def whole? (v : Json) (key : String) : Option Int := (v.member key).int?

def natural (v : Json) (key : String) (default : Nat) : Nat :=
  ((v.whole? key).map Int.toNat).getD default

def list (v : Json) (key : String) : List Json := (v.member key).items?.getD []

def texts (v : Json) (key : String) : List String :=
  (v.list key).map fun item => item.string?.getD ""

def pairs (v : Json) (key : String) : List (String × Json) :=
  match v.member key with
  | .obj members => members
  | _ => []

def mapping (v : Json) (key : String) : KeyMap Json := KeyMap.ofList (v.pairs key)

end DesiredState.Json
