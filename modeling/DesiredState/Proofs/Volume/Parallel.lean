import DesiredState.Proofs.Resource.Parallel
import DesiredState.Volume.Basic

/-!
# Passes over a volume side by side

Handlers of a volume read and write the attributes of its record, except for the time of its
creation, and call the provider. So passes over one volume go side by side as long as these steps
do. Two things are left open: how a volume is created, and what a reference leads to, which may be
any attribute.
-/

namespace DesiredState.Volume

open DesiredState.Action

/-- Stores stay related while attributes of one resource are read and written, its creation time
apart. -/
structure Local (i : Int) (K : Store → Store → Prop) : Prop where
  get : ∀ {key}, key ≠ State.creationTimeKey →
    Parallel K K (Store.get (.resource i) key) (Store.get (.resource i) key)
  set : ∀ {key} v, key ≠ State.creationTimeKey →
    Parallel K K (Store.set (.resource i) key v) (Store.set (.resource i) key v)
  delete : ∀ key, Parallel K K (Store.delete (.resource i) key) (Store.delete (.resource i) key)

namespace Local

variable {r : ResourceRecord} {K : Store → Store → Prop}

theorem getAs {α : Type} (h : Local r.id K) {key : String} (hk : key ≠ State.creationTimeKey)
    (expect : Json → Except Json.DecodeError α) :
    Parallel K K (Store.getAs r.scope key expect) (Store.getAs r.scope key expect) := by
  unfold Store.getAs
  refine (h.get hk).bind fun found => ?_
  cases found with
  | none => exact parallel_pure none
  | some v => exact parallel_ofExcept _

theorem status (h : Local r.id K) : Parallel K K (State.status r) (State.status r) := by
  unfold State.status State.readStatus State.attempt
  exact (h.get (by decide)).mapError.bind fun found => parallel_ofExcept _

theorem resourceId (h : Local r.id K) : Parallel K K (State.resourceId r) (State.resourceId r) :=
  (h.getAs (by decide) _).mapError

theorem setStatus (h : Local r.id K) (status : Status) :
    Parallel K K (State.setStatus r status) (State.setStatus r status) :=
  (h.set _ (by decide)).mapError

theorem markDestroyed (h : Local r.id K) (keys : List String) :
    Parallel K K (State.markDestroyed r keys) (State.markDestroyed r keys) := by
  unfold State.markDestroyed
  refine Parallel.transaction (Parallel.bind ?_ fun _ => h.setStatus .missing)
  exact parallel_forEach fun key _ => (h.delete key).mapError

end Local

/-- A store with the resource stays beside itself. -/
theorem local_alone (i : Int) : Local i (Alone (Store.Knows i)) where
  get _ := (reads_reading _).parallel_alone
  set v _ := parallel_alone fun _ ⟨_, h⟩ =>
    Ends.state ((Store.set_ends h _ v).imp fun _ _ ht => ⟨_, ht.records⟩)
  delete key := parallel_alone fun _ ⟨_, h⟩ =>
    Ends.state ((Store.delete_ends h key).imp fun _ _ ht => ⟨_, ht.records⟩)

theorem key_of_mem_sizeDrift {recorded : Option Int} {observed : Int} {drift : Drift}
    (h : drift ∈ sizeDrift recorded observed) : drift.key = "size" := by
  unfold sizeDrift at h
  split at h
  · cases h
  · split at h
    · cases h
    · rw [List.mem_singleton.mp h]

theorem key_of_mem_attachmentDrift {recorded observed : Option String} {drift : Drift}
    (h : drift ∈ attachmentDrift recorded observed) : drift.key = "attachedTo" := by
  unfold attachmentDrift at h
  split at h
  · cases h
  · rw [List.mem_singleton.mp h]

/-- Worlds stay related while steps of a task on a volume are taken side by side. -/
structure Conduct (r : ResourceRecord) (K : Store → Store → Prop)
    (I : World Cloud → World Cloud → Prop) : Prop where
  store : Local r.id K
  record : ∀ entry {w w'}, I w w' → I (w.record entry) (w'.record entry)
  onStore : ∀ {α} {a b : Action Store Failure α}, Parallel K K a b →
    Parallel I I (World.onStore a) (World.onStore b)
  exclusive : ∀ {α} {key} {a : Task Cloud α}, Parallel I I a a →
    Parallel I I (World.exclusive key a) (World.exclusive key a)
  describe : ∀ label id,
    Parallel I I (remotely label (Cloud.describe id)) (remotely label (Cloud.describe id))
  resize : ∀ label id size, Parallel I I (remotely label (Cloud.resize id size))
    (remotely label (Cloud.resize id size))
  setTags : ∀ label id tags, Parallel I I (remotely label (Cloud.setTags id tags))
    (remotely label (Cloud.setTags id tags))
  attach : ∀ label id target, Parallel I I (remotely label (Cloud.attach id target))
    (remotely label (Cloud.attach id target))
  deleteVolume : ∀ label id, Parallel I I (remotely label (Cloud.deleteVolume id))
    (remotely label (Cloud.deleteVolume id))

namespace Conduct

variable {r : ResourceRecord} {K K₀ : Store → Store → Prop}
  {I I₀ : World Cloud → World Cloud → Prop} {d : Definition} {consent : Consent}

theorem inStore {α : Type} (h : Conduct r K I) {a : Action Store StoreError α}
    (ha : Parallel K K a a) : Parallel I I (World.inStore a) (World.inStore a) :=
  h.onStore ha.mapError

theorem shows (h : Conduct r K I) (entry : JournalEntry) :
    Parallel I I (update (World.record entry) : Task Cloud Unit) (update (World.record entry)) :=
  parallel_update (h.record entry)

theorem steered (h : Conduct r K I) : (Volume.resource r).Steered I where
  record := h.record
  status := h.onStore h.store.status
  identity := h.onStore h.store.resourceId
  setStatus status := h.onStore (h.store.setStatus status)

theorem requireId (h : Conduct r K I) :
    Parallel I I (Volume.requireId r) (Volume.requireId r) := by
  unfold Volume.requireId
  refine (h.onStore h.store.resourceId).bind fun found => ?_
  cases found with
  | none => exact parallel_fail _
  | some id => exact parallel_pure id

theorem writeDown (h : Conduct r K I) {key : String} (hk : key ≠ State.creationTimeKey)
    (v : Json) : Parallel I I (Volume.writeDown r key v) (Volume.writeDown r key v) :=
  h.inStore (h.store.set v hk)

theorem deleteOld (h : Conduct r K I) (id region : String) :
    Parallel I I (Volume.deleteOld r id region) (Volume.deleteOld r id region) := by
  unfold Volume.deleteOld
  refine (h.shows _).bind fun _ => (h.deleteVolume _ id).bind fun _ => ?_
  exact h.onStore (h.store.markDestroyed _)

theorem provision (h : Conduct r K I)
    (hnew : ∀ region, Parallel I I (createNew r d region) (createNew r d region)) :
    Parallel I I (Volume.provision r d consent) (Volume.provision r d consent) := by
  unfold Volume.provision
  split
  · exact parallel_fail _
  refine (h.onStore h.store.resourceId).bind fun found => ?_
  cases found with
  | none => exact hnew _
  | some id =>
    refine (h.inStore (h.store.getAs (by decide) _)).bind fun old => ?_
    split
    · exact parallel_pure ()
    split
    · exact parallel_fail _
    · exact (h.deleteOld _ _).bind fun _ => hnew _

theorem resizing (h : Conduct r K I) :
    Parallel I I (Volume.resize r d consent) (Volume.resize r d consent) := by
  unfold Volume.resize
  refine h.requireId.bind fun id => ?_
  split
  · exact h.inStore (h.store.delete _)
  refine (h.inStore (h.store.getAs (by decide) _)).bind fun old => ?_
  split
  · exact parallel_pure ()
  split
  · exact parallel_fail _
  refine (h.inStore (h.store.get (by decide))).bind fun attached => ?_
  split
  · exact parallel_fail _
  · exact (h.resize _ _ _).bind fun _ => h.writeDown (by decide) _

theorem tagging (h : Conduct r K I) (consent : Consent) :
    Parallel I I (Volume.tag r d consent) (Volume.tag r d consent) := by
  unfold Volume.tag
  exact h.requireId.bind fun id => (h.setTags _ _ _).bind fun _ => h.writeDown (by decide) _

theorem attaching (h : Conduct r K I) (consent : Consent)
    (htarget : Parallel I I (attachmentTarget r d) (attachmentTarget r d)) :
    Parallel I I (Volume.attach r d consent) (Volume.attach r d consent) := by
  unfold Volume.attach
  refine h.requireId.bind fun id => htarget.bind fun target => ?_
  exact (h.exclusive (h.attach _ _ _)).bind fun _ => h.writeDown (by decide) _

theorem operation (h : Conduct r K I)
    (hnew : ∀ region, Parallel I I (createNew r d region) (createNew r d region))
    (htarget : Parallel I I (attachmentTarget r d) (attachmentTarget r d))
    {handler : Handler (Handling Cloud)} (hh : handler ∈ (registry r).handlers) :
    Parallel I I (handler.operation d consent) (handler.operation d consent) := by
  simp only [registry, List.mem_cons, List.not_mem_nil, or_false] at hh
  rcases hh with rfl | rfl | rfl | rfl
  · exact h.provision hnew
  · exact h.resizing
  · exact h.tagging consent
  · exact h.attaching consent htarget

theorem compare (h : Conduct r K I) (observed : CloudVolume) :
    Parallel I I (Volume.compare r observed) (Volume.compare r observed) := by
  unfold Volume.compare absorb
  refine (h.inStore (h.store.getAs (by decide) _)).bind fun size => ?_
  refine (h.inStore (h.store.getAs (by decide) _)).bind fun target => ?_
  refine Parallel.bind (h.inStore (parallel_forEach fun drift hm => h.store.set _ ?_).transaction)
    fun _ => (h.onStore h.store.status).bind fun status => parallel_pure _
  rcases List.mem_append.mp hm with hm | hm
  · exact key_of_mem_sizeDrift hm ▸ by decide
  · exact key_of_mem_attachmentDrift hm ▸ by decide

theorem check (h : Conduct r K I) : Parallel I I (Volume.check r) (Volume.check r) := by
  unfold Volume.check
  refine (h.onStore h.store.resourceId).bind fun found => ?_
  cases found with
  | none => exact (h.onStore h.store.status).bind fun status => parallel_pure _
  | some id =>
    refine (h.describe _ id).bind fun observed => ?_
    cases observed with
    | some observed => exact h.compare observed
    | none =>
      refine (h.shows _).bind fun _ => ?_
      exact (h.onStore (h.store.markDestroyed _)).bind fun _ => parallel_pure _

theorem ask (h : Conduct r K I) (confirm : Confirmation) (question : String) :
    Parallel I I (confirm.ask question : Task Cloud Bool) (confirm.ask question) := by
  unfold Confirmation.ask
  refine (h.shows _).bind fun _ => ?_
  cases confirm with
  | answered yes => exact parallel_pure yes
  | assumed => exact (h.shows _).bind fun _ => parallel_pure true
  | unanswerable reason => exact parallel_fail _

theorem remove (h : Conduct r K I) (id : String) :
    Parallel I I (Volume.remove r id) (Volume.remove r id) := by
  unfold Volume.remove
  refine (h.onStore (h.store.setStatus .stopping)).bind fun _ => ?_
  refine (h.exclusive (h.deleteVolume _ id)).bind fun _ => ?_
  exact h.onStore (h.store.markDestroyed _)

theorem destroy (h : Conduct r K I) (wipe : Bool) (confirm : Confirmation) :
    Parallel I I (Volume.destroy r wipe confirm) (Volume.destroy r wipe confirm) := by
  unfold Volume.destroy
  refine (h.onStore h.store.resourceId).bind fun found => ?_
  cases found with
  | none => exact (h.onStore (h.store.markDestroyed _)).bind fun _ => parallel_pure true
  | some id =>
    have hremove := (h.remove id).bind fun _ => parallel_pure (I := I) true
    cases wipe with
    | false => exact hremove
    | true =>
      simp only [if_true]
      refine (h.ask confirm _).bind fun agreed => ?_
      split
      · exact parallel_pure false
      · exact hremove

/-- Creating passes go side by side. -/
theorem create (h₀ : Conduct r K₀ I₀) (h : Conduct r K I) (hI : ∀ {w w'}, I₀ w w' → I w w')
    {options : PassOptions}
    (hdiff : Parallel I₀ I₀ ((resource r).difference d (resource r).siblings)
      ((resource r).difference d (resource r).siblings))
    (hnew : ∀ region, Parallel I I (createNew r d region) (createNew r d region))
    (htarget : Parallel I I (attachmentTarget r d) (attachmentTarget r d)) :
    Parallel I₀ I ((resource r).create d options) ((resource r).create d options) :=
  h.steered.converge hI h₀.record h₀.check hdiff fun _ hm => h.operation hnew htarget hm

end Conduct

end DesiredState.Volume
