import DesiredState.Proofs.Resource.Keeps
import DesiredState.Proofs.Resource.Replace
import DesiredState.Proofs.Store.Edits
import DesiredState.Proofs.Volume.Handlers

/-!
# What the work on one volume keeps

The engine works on a volume by editing its records and by calls for the id that they name. So its
work keeps a relation that each edit keeps, each call for an id that may be recorded, and the
creation of a volume together with the record of it. Deleting a volume and asking for another size
are left to those who need them.
-/

namespace DesiredState.Volume

open DesiredState.Action DesiredState.World

variable {r : ResourceRecord} {d : Definition} {consent : Consent} {options : PassOptions}

/-- Give the volume the size of the definition, which is asked for with some call. -/
def resizeBy (call : String → Int → Cloud.Call Unit) (r : ResourceRecord) : Handling Cloud :=
    fun d consent => do
  let id ← requireId r
  match definedSize? d with
  | none => World.inStore (Store.delete r.scope "size")
  | some size =>
    let old ← recorded r "size" Json.expectInt64
    if old = some size then return ()
    else if old.any fun old => size < old then
      Action.fail (.config r.name "volumes cannot shrink")
    else
      let attached ← World.inStore (Store.get r.scope "attachedTo")
      if attached.isSome ∧ ¬ consent.allowReboot then
        Action.fail (.rebootRequired r.name "resizing an attached volume restarts its server")
      else
        remotely "resize volume" (call id size)
        writeDown r "size" (.ofInt size)

/-- A volume for which other sizes are asked for with some call. -/
def resourceBy (call : String → Int → Cloud.Call Unit) (r : ResourceRecord) : Resource Cloud :=
  (resource r).replace "resize" (resizeBy call r)

/-- A volume asks for other sizes with the provider's own call. -/
theorem resourceBy_resize (r : ResourceRecord) : resourceBy Cloud.resize r = resource r := by
  have hresize : resizeBy Cloud.resize r = resize r := rfl
  simp [resourceBy, Resource.replace, Registry.replace, Handler.replace, resource, registry,
    hresize]

/-- An edit of the records of a volume that gives it no other identity. -/
abbrev Edits (r : ResourceRecord) : Store → Store → Prop :=
  Store.Edits r.id State.resourceIdKey fun _ => False

theorem set_edits {key : String} (h : key ≠ State.resourceIdKey) (v : Json) :
    Keeps (Edits r) (Store.set r.scope key v) := Store.set_edits fun he => absurd he h

theorem setStatus_edits (status : Status) : Keeps (Edits r) (State.setStatus r status) :=
  (set_edits (by decide) _).mapError

theorem markDestroyed_edits (keys : List String) :
    Keeps (Edits r) (State.markDestroyed r keys) := by
  refine Keeps.transaction (Keeps.bind ?_ fun _ => setStatus_edits .missing)
  exact keeps_forEach fun key _ => (Store.delete_edits key).mapError

theorem key_of_mem_drift {recorded : Option Int} {observed : Int} {target found : Option String}
    {drift : Drift} (h : drift ∈ sizeDrift recorded observed ++ attachmentDrift target found) :
    drift.key = "size" ∨ drift.key = "attachedTo" := by
  rcases List.mem_append.mp h with h | h
  · unfold sizeDrift at h
    split at h
    · cases h
    · split at h
      · cases h
      · exact Or.inl (List.mem_singleton.mp h ▸ rfl)
  · unfold attachmentDrift at h
    split at h
    · cases h
    · exact Or.inr (List.mem_singleton.mp h ▸ rfl)

/-- What every piece of work on a volume keeps, other than deleting it and changing its size, as
long as the ids that are recorded for it are of a kind. -/
structure Tended (r : ResourceRecord) (mine : String → Prop)
    (R : World Cloud → World Cloud → Prop) : Prop where
  edit : ∀ {a : State.Step Unit}, Keeps (Edits r) a → Keeps R (onStore a : Task Cloud Unit)
  name : ∀ {α : Type} {f : Option String → Task Cloud α}, Keeps R (f none) →
    (∀ id, mine id → Keeps R (f (some id))) → Keeps R (onStore (State.resourceId r) >>= f)
  create : ∀ {α : Type} (region : String) (d : Definition) {f : String → Task Cloud α},
    (∀ id, mine id → Keeps R (f id)) → Keeps R (do
      let id ← remotely "create volume"
        (Cloud.createVolume region ((definedSize? d).getD defaultSize) (Tags.all r d))
      let now ← Action.view World.now
      onStore (State.recordCreated r now id (outputs region d))
      f id)
  ready : ∀ id, mine id → Keeps R (onRemote (Cloud.isReady id) : Task Cloud Bool)
  describe : ∀ id, mine id →
    Keeps R (onRemote (Cloud.describe id) : Task Cloud (Option CloudVolume))
  tags : ∀ id tags, mine id → Keeps R (onRemote (Cloud.setTags id tags) : Task Cloud Unit)
  attach : ∀ id target, mine id → Keeps R (onRemote (Cloud.attach id target) : Task Cloud Unit)

section

variable {mine : String → Prop} {R : World Cloud → World Cloud → Prop}

namespace Tended

theorem writeDown (h : Tended r mine R) {key : String} (hkey : key ≠ State.resourceIdKey)
    (v : Json) : Keeps R (writeDown r key v) := h.edit (set_edits hkey v).mapError

theorem destroyed (h : Tended r mine R) (keys : List String) :
    Keeps R (onStore (State.markDestroyed r keys) : Task Cloud Unit) :=
  h.edit (markDestroyed_edits keys)

theorem absorb (h : Tended r mine R) {drift : List Drift}
    (hkeys : ∀ d ∈ drift, d.key ≠ State.resourceIdKey) : Keeps R (absorb r drift) :=
  h.edit (keeps_forEach fun d hd => set_edits (hkeys d hd) _).transaction.mapError

end Tended

variable [Quiet R]

theorem remotely_keeps {α : Type} {call : Cloud.Call α} (h : Keeps R (onRemote call : Task Cloud α))
    (label : String) : Keeps R (remotely label call) := retrying_keeps h label

theorem recorded_keeps {α : Type} {key : String} {expect : Json → Except Json.DecodeError α} :
    Keeps R (recorded r key expect) := (onStore_reads Store.getAs_reads.mapError).keeps

theorem status_keeps : Keeps R (onStore (State.status r) : Task Cloud Status) :=
  (onStore_reads (State.status_reads r)).keeps

variable (h : Tended r mine R)

include h

/-- What goes on with a recorded id may rely on its kind. -/
theorem requireId_bind_keeps {α : Type} {f : String → Task Cloud α}
    (hf : ∀ id, mine id → Keeps R (f id)) : Keeps R (requireId r >>= f) := by
  rw [requireId, Action.bind_assoc]
  exact h.name (fun w => refl_of R w) fun id hid => hf id hid

theorem createNew_keeps (region : String) : Keeps R (createNew r d region) :=
  h.create region d fun id hid =>
    (polling_keeps (h.ready id hid) _).bind fun _ => keeps_pure _

/-- The old volume is deleted with consent only. -/
theorem provision_keeps (hdelete : consent.allowRecreate = true →
    ∀ id, mine id → Keeps R (onRemote (Cloud.deleteVolume id) : Task Cloud Unit)) :
    Keeps R (provision r d consent) := by
  unfold provision
  split
  · exact keeps_fail _
  refine h.name (createNew_keeps h _) fun id hid => recorded_keeps.bind fun old => ?_
  split
  · exact keeps_pure ()
  split
  · exact keeps_fail _
  · rename_i hconsent
    refine Keeps.bind ?_ fun _ => createNew_keeps h _
    refine (record_keeps _).bind fun _ => ?_
    exact (remotely_keeps (hdelete (by simpa using hconsent) id hid) _).bind fun _ =>
      h.destroyed ownedKeys

theorem resizeBy_keeps {call : String → Int → Cloud.Call Unit}
    (hcall : ∀ id size, mine id → Keeps R (onRemote (call id size) : Task Cloud Unit)) :
    Keeps R (resizeBy call r d consent) := by
  refine requireId_bind_keeps h fun id hid => ?_
  split
  · exact h.edit (Store.delete_edits "size").mapError
  refine recorded_keeps.bind fun old => ?_
  split
  · exact keeps_pure ()
  split
  · exact keeps_fail _
  refine (onStore_reads (reads_reading _).mapError).keeps.bind fun attached => ?_
  split
  · exact keeps_fail _
  · exact (remotely_keeps (hcall id _ hid) _).bind fun _ => h.writeDown (by decide) _

theorem tag_keeps (consent : Consent) : Keeps R (tag r d consent) :=
  requireId_bind_keeps h fun id hid =>
    (remotely_keeps (h.tags id _ hid) _).bind fun _ => h.writeDown (by decide) _

theorem attach_keeps (consent : Consent) : Keeps R (attach r d consent) :=
  requireId_bind_keeps h fun id hid => attachmentTarget_reads.keeps.bind fun target =>
    (exclusive_keeps (remotely_keeps (h.attach id target hid) _) _).bind fun _ =>
      h.writeDown (by decide) _

theorem check_keeps : Keeps R (check r) := by
  refine h.name (status_keeps.bind fun _ => keeps_pure _) fun id hid => ?_
  refine (remotely_keeps (h.describe id hid) _).bind fun observed => ?_
  cases observed with
  | none =>
    exact (record_keeps _).bind fun _ => (h.destroyed ownedKeys).bind fun _ => keeps_pure _
  | some observed =>
    refine recorded_keeps.bind fun size => recorded_keeps.bind fun target => ?_
    refine (h.absorb fun d hd => ?_).bind fun _ => status_keeps.bind fun _ => keeps_pure _
    rcases key_of_mem_drift hd with hkey | hkey <;> rw [hkey] <;> decide

/-- A creating pass keeps what the calls keep that it may make. -/
theorem resourceBy_keeps {call : String → Int → Cloud.Call Unit}
    (hdelete : options.consent.allowRecreate = true →
      ∀ id, mine id → Keeps R (onRemote (Cloud.deleteVolume id) : Task Cloud Unit))
    (hcall : ∀ id size, mine id → Keeps R (onRemote (call id size) : Task Cloud Unit)) :
    Keeps R ((resourceBy call r).create d options) := by
  refine Resource.create_keeps (fun status => h.edit (setStatus_edits status)) (check_keeps h)
    fun _ hmem => ?_
  obtain ⟨handler, hm, rfl⟩ := List.mem_map.mp hmem
  simp only [resource, registry, List.mem_cons, List.not_mem_nil, or_false] at hm
  rcases hm with rfl | rfl | rfl | rfl
  · exact provision_keeps h hdelete
  · exact resizeBy_keeps h hcall
  · exact tag_keeps h options.consent
  · exact attach_keeps h options.consent

/-- Destroying a volume keeps what deleting it keeps. -/
theorem destroy_keeps
    (hdelete : ∀ id, mine id → Keeps R (onRemote (Cloud.deleteVolume id) : Task Cloud Unit))
    (wipe : Bool) (confirm : Confirmation) : Keeps R (destroy r wipe confirm) := by
  have hremove : ∀ id, mine id → Keeps R (remove r id) := fun id hid =>
    (h.edit (setStatus_edits .stopping)).bind fun _ =>
      (exclusive_keeps (remotely_keeps (hdelete id hid) _) _).bind fun _ => h.destroyed ownedKeys
  refine h.name ((h.destroyed ownedKeys).bind fun _ => keeps_pure true) fun id hid => ?_
  cases wipe with
  | false => exact (hremove id hid).bind fun _ => keeps_pure true
  | true =>
    refine (ask_keeps confirm _).bind fun agreed => ?_
    cases agreed with
    | false => exact keeps_pure false
    | true => exact (hremove id hid).bind fun _ => keeps_pure true

end

end DesiredState.Volume
