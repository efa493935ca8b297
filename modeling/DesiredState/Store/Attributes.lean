import DesiredState.Json.Printer
import DesiredState.Store.Basic

/-!
# Attributes

Reading and writing the attributes of one owner. A `null` is never stored: setting it removes
the key. Reading an owner that does not exist finds nothing, removing from it does nothing, and
writing to it fails.
-/

namespace DesiredState.Store

/-- Put a text at a key, as it is. -/
def put (scope : Scope) (key text : String) : Action Store StoreError Unit := fun s =>
  match s.changeAttributes? scope fun m => m.insert key text with
  | some s => (.ok (), s)
  | none => (.error (.database .ownerMissing), s)

def delete (scope : Scope) (key : String) : Action Store StoreError Unit :=
  Action.update fun s => (s.changeAttributes? scope fun m => m.erase key).getD s

def clear (scope : Scope) : Action Store StoreError Unit :=
  Action.update fun s => (s.changeAttributes? scope fun _ => .empty).getD s

def get (scope : Scope) (key : String) : Action Store StoreError (Option Json) :=
  Action.reading fun s =>
    match s.textOf? scope key with
    | none => .ok none
    | some text => (decodeText text).map some

def getOr (scope : Scope) (key : String) (default : Json) : Action Store StoreError Json := do
  return (← get scope key).getD default

def getAs {α : Type} (scope : Scope) (key : String) (expect : Json → Except Json.DecodeError α) :
    Action Store StoreError (Option α) := do
  match ← get scope key with
  | none => return none
  | some v => Action.ofExcept (((expect v).mapError .invalidValue).map some)

/-- Put a value at a key; `null` removes the key. -/
def set (scope : Scope) (key : String) (v : Json) : Action Store StoreError Unit :=
  if v.isNull then delete scope key else put scope key v.render

/-- Put several values in turn. -/
def setEach (scope : Scope) (values : List (String × Json)) : Action Store StoreError Unit :=
  Action.forEach (fun entry => set scope entry.1 entry.2) values

/-- Put several values, all or none. -/
def setMany (scope : Scope) (values : List (String × Json)) : Action Store StoreError Unit :=
  Action.transaction (setEach scope values)

def keys (scope : Scope) : Action Store StoreError (List String) :=
  Action.view fun s => (s.attributesOf scope).keys

def exportAttributes (scope : Scope) : Action Store StoreError (KeyMap Json) :=
  Action.reading fun s => (s.attributesOf scope).mapM? decodeText

def replaceAttributes (scope : Scope) (values : KeyMap Json) : Action Store StoreError Unit := do
  clear scope
  setEach scope values.entries

/-- Replace all attributes of an owner, or none. -/
def importAttributes (scope : Scope) (values : KeyMap Json) : Action Store StoreError Unit :=
  Action.transaction (replaceAttributes scope values)

end DesiredState.Store
