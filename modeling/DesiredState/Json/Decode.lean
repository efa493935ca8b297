import DesiredState.Json.Document
import DesiredState.Json.Number
import DesiredState.Text.Hidden

/-!
# Expecting a kind of value

A stored value is read as text, whole number and so on. The cause of a failure tells what was
found and what was expected.
-/

namespace DesiredState.Json

/-- Why a text or a value could not be read as what was expected. -/
inductive DecodeError where
  /-- The text denotes no value. -/
  | unreadable
  /-- A value of another kind. -/
  | wrongKind (found : Json) (expected : String)
  /-- A whole number outside the expected range. -/
  | outOfRange (found : Int) (expected : String)
  deriving DecidableEq

/-- A character of a quoted text in a message; what cannot be shown is told by its code. -/
def quoteChar (c : Char) : List Char :=
  if c = '"' then ['\\', '"']
  else if c = '\\' then ['\\', '\\']
  else if c = '\n' then ['\\', 'n']
  else if c = '\r' then ['\\', 'r']
  else if c = '\t' then ['\\', 't']
  else if c = '\x00' then ['\\', '0']
  else if Text.isHidden c then ['\\', 'u', '{'] ++ Text.hexDigits c.toNat ++ ['}']
  else [c]

def quoted (s : String) : String :=
  String.ofList ('"' :: (s.toList.flatMap quoteChar ++ ['"']))

def kindText : Json → String
  | .null => "null"
  | .bool b => "boolean \x60" ++ (if b then "true" else "false") ++ "\x60"
  | .num (.int i) => "integer \x60" ++ String.ofList (intChars i) ++ "\x60"
  | .num (.float x) => "floating point \x60" ++ String.ofList (floatChars x) ++ "\x60"
  | .str s => "string " ++ quoted s
  | .arr _ => "sequence"
  | .obj _ => "map"

def DecodeError.message : DecodeError → String
  | .unreadable => "not a value"
  | .wrongKind found expected => "invalid type: " ++ kindText found ++ ", expected " ++ expected
  | .outOfRange found expected =>
    "invalid value: " ++ kindText (ofInt found) ++ ", expected " ++ expected

/-- The value that a stored text denotes. -/
def decode (text : String) : Except DecodeError Json :=
  match parse? text with
  | some v => .ok v
  | none => .error .unreadable

def expectString (v : Json) : Except DecodeError String :=
  match v with
  | .str s => .ok s
  | v => .error (.wrongKind v "a string")

def expectBool (v : Json) : Except DecodeError Bool :=
  match v with
  | .bool b => .ok b
  | v => .error (.wrongKind v "a boolean")

/-- A whole number from `low` up to but not including `high`. -/
def expectInt (low high : Int) (expected : String) (v : Json) : Except DecodeError Int :=
  match v with
  | .num (.int i) => if low ≤ i ∧ i < high then .ok i else .error (.outOfRange i expected)
  | v => .error (.wrongKind v expected)

/-- A whole number in a signed word of 64 bits. -/
def expectInt64 (v : Json) : Except DecodeError Int :=
  expectInt (Word.least 63) (Word.size 63) "i64" v

def expectList {α : Type} (item : Json → Except DecodeError α) (v : Json) :
    Except DecodeError (List α) :=
  match v with
  | .arr items => items.mapM item
  | v => .error (.wrongKind v "a sequence")

def expectMap {α : Type} (item : Json → Except DecodeError α) (v : Json) :
    Except DecodeError (KeyMap α) :=
  match v with
  | .obj members => (KeyMap.ofList members).mapM? item
  | v => .error (.wrongKind v "a map")

end DesiredState.Json
