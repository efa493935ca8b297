import DesiredState.Diff.Basic
import DesiredState.Failure

/-!
# Comparing a definition with what is recorded

Reserved keys take no part. A literal `null` asks for the key to be unset. References are
resolved in the order of their keys, and the first one that cannot be resolved stops the
comparison.
-/

namespace DesiredState

inductive Resolution where
  /-- The other resource is up and has the attribute. -/
  | ready (v : Json)
  /-- The other resource has not produced the attribute yet. -/
  | pending
  /-- No such resource is declared. -/
  | unknown
  deriving DecidableEq

def Resolver : Type := Reference → Except Failure Resolution

def Resolver.unresolved : Resolver := fun _ => .ok .pending

namespace Diff

/-- What a setting wants; nothing for a literal `null`. -/
def desired (d : Definition) (resolve : Resolver) : Setting → Except Failure (Option Desired)
  | .value v => .ok (if v.isNull then none else some (.value v))
  | .reference target =>
    match resolve target with
    | .error cause => .error cause
    | .ok (.ready v) => .ok (some (.value v))
    | .ok .pending => .ok (some (.pending target))
    | .ok .unknown => .error (.danglingReference d.name target.resource)

/-- How a key changes between what is recorded and what is wanted, if it does. -/
def classify : Option Json → Option Desired → Option Kind
  | none, none => none
  | none, some _ => some .set
  | some _, none => some .unset
  | some v, some (.value wanted) => if v.same wanted then none else some .update
  | some _, some (.pending _) => some .update

def changeAt? (key : String) (recorded : Option Json) (wanted : Option Desired) : Option Entry :=
  (classify recorded wanted).map fun kind => ⟨key, kind, recorded, wanted⟩

def settingChanges (d : Definition) (current : KeyMap Json) (reserved : List String)
    (resolve : Resolver) : List (String × Setting) → Except Failure (List Entry)
  | [] => .ok []
  | (key, setting) :: rest =>
    if reserved.contains key then settingChanges d current reserved resolve rest
    else do
      let wanted ← desired d resolve setting
      let changes ← settingChanges d current reserved resolve rest
      .ok ((changeAt? key (current.find? key) wanted).toList ++ changes)

/-- The recorded keys that the definition does not mention. -/
def leftovers (d : Definition) (current : KeyMap Json) (reserved : List String) : List Entry :=
  (current.entries.filter fun entry =>
    ¬ reserved.contains entry.1 ∧ ¬ d.settings.contains entry.1).map fun entry =>
      ⟨entry.1, .unset, some entry.2, none⟩

/-- Every change between a definition and what is recorded. -/
def compute (d : Definition) (current : KeyMap Json) (reserved : List String)
    (resolve : Resolver) : Except Failure Diff := do
  let changes ← settingChanges d current reserved resolve d.settings.entries
  .ok ⟨KeyMap.ofList
    ((changes ++ leftovers d current reserved).map fun entry => (entry.key, entry))⟩

end Diff

end DesiredState
