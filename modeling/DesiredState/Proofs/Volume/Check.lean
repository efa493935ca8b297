import DesiredState.Proofs.Volume.CheckAll

/-!
# What a check reads and corrects

A check reads the records of a volume, asks the provider for it, and corrects what drifted or
forgets a volume that is gone. All it writes, it writes in one turn.
-/

namespace DesiredState

open DesiredState.Action

theorem Action.Reads.run_ok {σ ε α : Type} {a : Action σ ε α} (h : a.Reads) {s : σ} {x : α}
    (hx : (a.run s).1 = .ok x) : a.run s = (.ok x, s) := Prod.ext hx (h s)

theorem Action.run_of_mapError_ok {σ ε δ α : Type} {f : ε → δ} {a : Action σ ε α} {s t : σ} {x : α}
    (h : (mapError f a).run s = (.ok x, t)) : a.run s = (.ok x, t) := by
  rw [run_mapError] at h
  obtain ⟨houtcome, rfl⟩ := Prod.mk.inj h
  refine Prod.ext ?_ rfl
  cases hr : (a.run s).1 with
  | error e =>
    rw [hr] at houtcome
    cases houtcome
  | ok y =>
    rw [hr] at houtcome
    cases houtcome
    rfl

namespace Store

variable {s t : Store} {scope : Scope} {key : String}

theorem get_congr (h : t.textOf? scope key = s.textOf? scope key) :
    ((get scope key).run t).1 = ((get scope key).run s).1 := by
  rw [get, run_reading, run_reading, h]

theorem getAs_congr {α : Type} {expect : Json → Except Json.DecodeError α}
    (h : t.textOf? scope key = s.textOf? scope key) :
    ((getAs scope key expect).run t).1 = ((getAs scope key expect).run s).1 := by
  obtain ⟨outcome, ho⟩ : ∃ outcome, (get scope key).run s = (outcome, s) := ⟨_, rfl⟩
  have hother : (get scope key).run t = (outcome, t) :=
    Prod.ext (by rw [get_congr h, ho]) rfl
  rw [getAs, run_bind, run_bind, ho, hother]
  cases outcome with
  | error e => rfl
  | ok v => cases v <;> rfl

/-- What was read is what the text denotes. -/
theorem denoted_of_getAs {α : Type} {expect : Json → Except Json.DecodeError α} {encode : α → Json}
    (hexpect : ∀ v x, expect v = .ok x → v = encode x) {x : Option α}
    (h : (getAs scope key expect).run s = (.ok x, t)) :
    denoted (s.textOf? scope key) = .ok (x.map encode) := by
  have hget : (get scope key).run s = (denoted (s.textOf? scope key), s) := by
    rw [get, run_reading]
    cases s.textOf? scope key <;> rfl
  rw [getAs, run_bind, hget] at h
  cases hv : denoted (s.textOf? scope key) with
  | error e =>
    rw [hv] at h
    cases h
  | ok v =>
    rw [hv] at h
    cases v with
    | none =>
      cases h
      rfl
    | some v =>
      cases hx : expect v with
      | error e =>
        simp only [hx] at h
        cases h
      | ok y =>
        simp only [hx] at h
        cases h
        rw [hexpect v y hx]
        rfl

/-- Where there is no text, nothing is read. -/
theorem getAs_of_no_text {α : Type} (h : s.textOf? scope key = none)
    (expect : Json → Except Json.DecodeError α) :
    (getAs scope key expect).run s = (.ok none, s) := by
  have hget : (get scope key).run s = (.ok none, s) := by rw [get, run_reading, h]
  rw [getAs, run_bind_ok hget]
  rfl

end Store

namespace State

variable {s t : Store} {r : ResourceRecord}

theorem resourceId_congr (h : t.textOf? r.scope resourceIdKey = s.textOf? r.scope resourceIdKey) :
    ((resourceId r).run t).1 = ((resourceId r).run s).1 :=
  congrArg (Except.mapError Failure.store) (Store.getAs_congr h)

theorem status_congr (h : t.textOf? r.scope statusKey = s.textOf? r.scope statusKey) :
    ((status r).run t).1 = ((status r).run s).1 := by
  obtain ⟨outcome, ho⟩ : ∃ outcome, (attempt (Store.get r.scope statusKey)).run s = (outcome, s) :=
    ⟨_, rfl⟩
  have hother : (attempt (Store.get r.scope statusKey)).run t = (outcome, t) :=
    Prod.ext ((congrArg (Except.mapError Failure.store) (Store.get_congr h)).trans
      (congrArg Prod.fst ho)) rfl
  rw [status, readStatus, run_bind, run_bind, ho, hother]
  cases outcome <;> rfl

/-- A resource of which an identity is recorded exists. -/
theorem records_of_resourceId {name : String}
    (h : (resourceId r).run s = (.ok (some name), s)) :
    s.Records r.id (s.textOf? r.scope) := by
  have hattributes : s.attributesOf? (.resource r.id) ≠ none := by
    intro hnone
    have htext : s.textOf? r.scope resourceIdKey = Store.textOf? .empty r.scope resourceIdKey := by
      rw [Store.textOf?, Store.attributesOf, ResourceRecord.scope, hnone]
      rfl
    have hread := resourceId_congr htext
    rw [h] at hread
    cases hread
  obtain ⟨m, hm⟩ := Option.ne_none_iff_exists'.mp hattributes
  refine ⟨m, hm, fun key => ?_⟩
  rw [Store.textOf?, Store.attributesOf, ResourceRecord.scope, hm]
  rfl

end State

namespace Volume

variable {r : ResourceRecord} {s t : Store} {w v : World Cloud} {name : String}
  {id target : Option String} {size : Option Int} {status : Status} {observed : CloudVolume}

/-- Where the records drifted from a volume. -/
def driftOf (size : Option Int) (target : Option String) (observed : CloudVolume) : List Drift :=
  sizeDrift size observed.size ++ attachmentDrift target observed.attachedTo

/-- What is set because of a drift. -/
def correction (d : Drift) : String × Json := (d.key, d.observed.getD .null)

theorem mem_driftOf_iff {d : Drift} : d ∈ driftOf size target observed ↔
    (∃ old, size = some old ∧ old ≠ observed.size ∧
      d = ⟨"size", some (.ofInt old), some (.ofInt observed.size)⟩) ∨
    (target ≠ observed.attachedTo ∧
      d = ⟨"attachedTo", target.map .str, observed.attachedTo.map .str⟩) := by
  have hsize : d ∈ sizeDrift size observed.size ↔ ∃ old, size = some old ∧ old ≠ observed.size ∧
      d = ⟨"size", some (.ofInt old), some (.ofInt observed.size)⟩ := by
    cases size with
    | none => simp [sizeDrift]
    | some old => by_cases hold : old = observed.size <;> simp [sizeDrift, hold]
  have htarget : d ∈ attachmentDrift target observed.attachedTo ↔ target ≠ observed.attachedTo ∧
      d = ⟨"attachedTo", target.map .str, observed.attachedTo.map .str⟩ := by
    by_cases hsame : target = observed.attachedTo <;> simp [attachmentDrift, hsame]
  rw [driftOf, List.mem_append, hsize, htarget]

theorem nodup_keys_driftOf : ((driftOf size target observed).map Drift.key).Nodup := by
  have hsize : ((sizeDrift size observed.size).map Drift.key).Sublist ["size"] := by
    unfold sizeDrift
    split
    · exact List.nil_sublist _
    · split
      · exact List.nil_sublist _
      · exact .refl _
  have htarget : ((attachmentDrift target observed.attachedTo).map Drift.key).Sublist
      ["attachedTo"] := by
    unfold attachmentDrift
    split
    · exact List.nil_sublist _
    · exact .refl _
  rw [driftOf, List.map_append]
  exact List.Nodup.sublist (hsize.append htarget) (by decide)

theorem map_correction (drift : List Drift) :
    (drift.map correction).map Prod.fst = drift.map Drift.key := by
  rw [List.map_map]
  rfl

theorem mem_keys_driftOf_iff {key : String} :
    key ∈ (driftOf size target observed).map Drift.key ↔
      (key = "size" ∧ ∃ old, size = some old ∧ old ≠ observed.size) ∨
        key = "attachedTo" ∧ target ≠ observed.attachedTo := by
  constructor
  · intro hm
    obtain ⟨d, hd, rfl⟩ := List.mem_map.mp hm
    rcases mem_driftOf_iff.mp hd with ⟨old, hsize, hne, rfl⟩ | ⟨hne, rfl⟩
    · exact Or.inl ⟨rfl, old, hsize, hne⟩
    · exact Or.inr ⟨rfl, hne⟩
  · rintro (⟨rfl, old, hsize, hne⟩ | ⟨rfl, hne⟩)
    · exact List.mem_map.mpr ⟨_, mem_driftOf_iff.mpr (Or.inl ⟨old, hsize, hne, rfl⟩), rfl⟩
    · exact List.mem_map.mpr ⟨_, mem_driftOf_iff.mpr (Or.inr ⟨hne, rfl⟩), rfl⟩

theorem not_mem_keys_driftOf {key : String} (hsize : key ≠ "size") (htarget : key ≠ "attachedTo") :
    key ∉ (driftOf size target observed).map Drift.key := fun hm =>
  (mem_keys_driftOf_iff.mp hm).elim (fun h => hsize h.1) fun h => htarget h.1

/-- The records after a drift was absorbed: what drifted is as it was observed, and nothing else
has changed. -/
structure Corrected (r : ResourceRecord) (drift : List Drift) (s t : Store) : Prop where
  becomes : Store.Becomes r.id s (Store.putAll (s.textOf? r.scope) (drift.map correction)) t
  same : drift = [] → t = s

theorem Corrected.textOf?_other {drift : List Drift} (h : Corrected r drift s t) {key : String}
    (hkey : key ∉ drift.map Drift.key) : t.textOf? r.scope key = s.textOf? r.scope key :=
  (h.becomes.records.textOf? key).trans
    (Store.putAll_of_not_mem (by rwa [map_correction]))

theorem Corrected.textOf?_drift (h : Corrected r (driftOf size target observed) s t) {d : Drift}
    (hd : d ∈ driftOf size target observed) :
    t.textOf? r.scope d.key = Store.stored (d.observed.getD .null) := by
  have hnodup : (((driftOf size target observed).map correction).map Prod.fst).Nodup := by
    rw [map_correction]
    exact nodup_keys_driftOf
  exact (h.becomes.records.textOf? d.key).trans
    (Store.putAll_of_mem hnodup (List.mem_map_of_mem hd))

theorem Corrected.status_eq (h : Corrected r (driftOf size target observed) s t) :
    ((State.status r).run t).1 = ((State.status r).run s).1 :=
  State.status_congr (h.textOf?_other (not_mem_keys_driftOf (by decide) (by decide)))

/-- The identity, the size and the attachment that are recorded can be read. -/
structure Legible (s : Store) (r : ResourceRecord) (id : Option String) (size : Option Int)
    (target : Option String) : Prop where
  id : (State.resourceId r).run s = (.ok id, s)
  size : (Store.getAs r.scope "size" Json.expectInt64).run s = (.ok size, s)
  target : (Store.getAs r.scope "attachedTo" Json.expectString).run s = (.ok target, s)

theorem expectInt64_ofInt {i : Int} (h : Fits i) : Json.expectInt64 (.ofInt i) = .ok i := by
  simp [Json.expectInt64, Json.expectInt, Json.ofInt, h.1, h.2]

theorem eq_of_expectInt64 {v : Json} {i : Int} (h : Json.expectInt64 v = .ok i) : v = .ofInt i := by
  unfold Json.expectInt64 Json.expectInt at h
  split at h
  · split at h
    · cases h
      rfl
    · cases h
  · cases h

theorem eq_of_expectString {v : Json} {text : String} (h : Json.expectString v = .ok text) :
    v = .str text := by
  unfold Json.expectString at h
  split at h
  · cases h
    rfl
  · cases h

/-- A drift tells what was recorded. -/
theorem Legible.denoted (hl : Legible s r id size target) {d : Drift}
    (hd : d ∈ driftOf size target observed) :
    Store.denoted (s.textOf? r.scope d.key) = .ok d.recorded := by
  rcases mem_driftOf_iff.mp hd with ⟨old, rfl, -, rfl⟩ | ⟨-, rfl⟩
  · exact Store.denoted_of_getAs (fun _ _ => eq_of_expectInt64) hl.size
  · exact Store.denoted_of_getAs (fun _ _ => eq_of_expectString) hl.target

/-- A recorded size becomes the one that was observed. -/
theorem Corrected.getAs_size (h : Corrected r (driftOf size target observed) s t)
    (hfits : Fits observed.size)
    (hsize : (Store.getAs r.scope "size" Json.expectInt64).run s = (.ok size, s)) :
    (Store.getAs r.scope "size" Json.expectInt64).run t =
      (.ok (size.map fun _ => observed.size), t) := by
  by_cases hold : ∃ old, size = some old ∧ old ≠ observed.size
  · obtain ⟨old, rfl, hne⟩ := hold
    have htext := h.textOf?_drift (mem_driftOf_iff.mpr (Or.inl ⟨old, rfl, hne, rfl⟩))
    exact Store.getAs_some h.becomes.records ((h.becomes.records.textOf? _).symm.trans htext)
      (decodeText_ofInt hfits.inWords) (expectInt64_ofInt hfits)
  · have hkept : size.map (fun _ => observed.size) = size := by
      cases size with
      | none => rfl
      | some old => exact congrArg some (not_not.mp fun hne => hold ⟨old, rfl, Ne.symm hne⟩)
    have hkey : "size" ∉ (driftOf size target observed).map Drift.key := fun hm =>
      (mem_keys_driftOf_iff.mp hm).elim (fun h => hold h.2) fun h => absurd h.1 (by decide)
    refine Store.getAs_reads.run_ok ((Store.getAs_congr (h.textOf?_other hkey)).trans ?_)
    rw [hsize, hkept]

/-- The recorded attachment becomes the one that was observed. -/
theorem Corrected.getAs_attachedTo (h : Corrected r (driftOf size target observed) s t)
    (htarget : (Store.getAs r.scope "attachedTo" Json.expectString).run s = (.ok target, s)) :
    (Store.getAs r.scope "attachedTo" Json.expectString).run t = (.ok observed.attachedTo, t) := by
  by_cases hsame : target = observed.attachedTo
  · have hkey : "attachedTo" ∉ (driftOf size target observed).map Drift.key := fun hm =>
      (mem_keys_driftOf_iff.mp hm).elim (fun h => absurd h.1 (by decide)) fun h => h.2 hsame
    refine Store.getAs_reads.run_ok ((Store.getAs_congr (h.textOf?_other hkey)).trans ?_)
    rw [htarget, hsame]
  · have htext := h.textOf?_drift (mem_driftOf_iff.mpr (Or.inr ⟨hsame, rfl⟩))
    have hlook := (h.becomes.records.textOf? _).symm.trans htext
    cases hfound : observed.attachedTo with
    | none =>
      rw [hfound] at hlook
      exact Store.getAs_none h.becomes.records hlook _
    | some found =>
      rw [hfound] at hlook
      exact Store.getAs_some h.becomes.records hlook (decodeText_str found) rfl

/-- Records that were corrected can be read as what was observed. -/
theorem Legible.corrected (hl : Legible s r id size target) (hfits : Fits observed.size)
    (h : Corrected r (driftOf size target observed) s t) :
    Legible t r id (size.map fun _ => observed.size) observed.attachedTo where
  id := by
    have hsame := State.resourceId_congr
      (h.textOf?_other (not_mem_keys_driftOf (by decide) (by decide)))
    rw [hl.id] at hsame
    exact (State.resourceId_reads r).run_ok hsame
  size := h.getAs_size hfits hl.size
  target := h.getAs_attachedTo hl.target

/-- Where no drift is left, what is recorded is what was observed. -/
theorem driftOf_eq_nil_iff : driftOf size target observed = [] ↔
    size.map (fun _ => observed.size) = size ∧ target = observed.attachedTo := by
  rw [driftOf, List.append_eq_nil_iff]
  refine and_congr ?_ ?_
  · cases size with
    | none => simp [sizeDrift]
    | some old => simp [sizeDrift, eq_comm]
  · simp [attachmentDrift]

/-- What was read once is read again. -/
theorem Legible.unique {id' target' : Option String} {size' : Option Int}
    (h : Legible s r id size target) (k : Legible s r id' size' target') :
    id' = id ∧ size' = size ∧ target' = target := by
  refine ⟨?_, ?_, ?_⟩
  · exact Except.ok.inj (Prod.mk.inj (k.id.symm.trans h.id)).1
  · exact Except.ok.inj (Prod.mk.inj (k.size.symm.trans h.size)).1
  · exact Except.ok.inj (Prod.mk.inj (k.target.symm.trans h.target)).1

/-- Correcting a drift changes the records. -/
theorem Legible.corrected_ne (hl : Legible s r id size target) (hfits : Fits observed.size)
    (h : Corrected r (driftOf size target observed) s t)
    (hdrift : driftOf size target observed ≠ []) : t ≠ s := by
  rintro rfl
  obtain ⟨-, hsize, htarget⟩ := hl.unique (hl.corrected hfits h)
  exact hdrift (driftOf_eq_nil_iff.mpr ⟨hsize, htarget.symm⟩)

/-- To set what drifted is to set its corrections. -/
theorem forEach_correction (scope : Scope) (drift : List Drift) :
    forEach (fun d => Store.set scope d.key (d.observed.getD .null)) drift =
      Store.setEach scope (drift.map correction) := by
  induction drift with
  | nil => rfl
  | cons d drift ih =>
    exact congrArg (Store.set scope d.key (d.observed.getD .null)).andThen (funext fun _ => ih)

/-- Only what is in the way of the store keeps a drift from being absorbed. -/
theorem absorb_ends (h : w.store.Records r.id (w.store.textOf? r.scope)) (drift : List Drift) :
    (absorb r drift).Ends w
      (fun _ t => t = { w with store := t.store } ∧ Corrected r drift w.store t.store ∧
        (t.store ≠ w.store → w.obstacles = {}))
      fun _ t => t = w ∧ w.obstacles ≠ {} := by
  have hset : (mapError Failure.store (transaction
      (forEach (fun d => Store.set r.scope d.key (d.observed.getD .null)) drift))).Ends w.store
      (fun _ t => Store.Becomes r.id w.store
        (Store.putAll (w.store.textOf? r.scope) (drift.map correction)) t) fun _ _ => False := by
    rw [forEach_correction]
    exact Ends.mapError (Ends.transaction_never (Store.setEach_ends h _))
  have hany := World.onStore_ends_any (hset.mono (fun _ _ _ => trivial) fun _ _ q => q.elim)
  refine ⟨fun {x t} hr => ?_, fun {e t} hr => ⟨hany.error hr, fun hclear => ?_⟩⟩
  · obtain ⟨hrun, hleft, hclear⟩ := hany.ok hr
    refine ⟨hleft, ⟨hset.ok hrun, ?_⟩, hclear⟩
    rintro rfl
    exact (Prod.mk.inj hrun).2.symm
  · have hnever : (absorb r drift).Ends w (fun _ _ => True) fun _ _ => False :=
      World.onStore_ends hclear (hset.imp fun _ _ _ => trivial)
    exact hnever.error hr

/-- The texts that are left of a volume that is gone. -/
def forgotten (look : String → Option String) : String → Option String :=
  Function.update (Store.removeAll look (State.resourceIdKey :: State.creationTimeKey :: ownedKeys))
    State.statusKey (Store.stored (.ofInt Status.missing.ordinal))

theorem markDestroyed_forgets {look : String → Option String} (h : s.Records r.id look) :
    (State.markDestroyed r ownedKeys).Ends s
      (fun _ t => Store.Becomes r.id s (forgotten look) t) fun _ _ => False := by
  unfold State.markDestroyed
  refine Ends.transaction_never (Ends.bind ?_)
  refine (Store.deleteEach_ends Failure.store h _).imp fun _ t ht => Ends.mapError ?_
  exact (Store.set_ends ht.records State.statusKey _).imp fun _ u hu => ht.trans hu

theorem recorded_ends {α : Type} (key : String) (expect : Json → Except Json.DecodeError α) :
    (recorded r key expect).Ends w
      (fun x t => (Store.getAs r.scope key expect).run w.store = (.ok x, w.store) ∧ t = w)
      fun _ t => t = w :=
  (World.onStore_reads_ends Store.getAs_reads.mapError).imp fun _ _ ⟨hrun, ht⟩ =>
    ⟨run_of_mapError_ok hrun, ht⟩

/-- The worlds have the same records, the same volumes, and the same in the way of the store. -/
structure Undisturbed (w v : World Cloud) : Prop where
  store : v.store = w.store
  volumes : v.remote.volumes = w.remote.volumes
  obstacles : v.obstacles = w.obstacles

theorem Undisturbed.refl (w : World Cloud) : Undisturbed w w := ⟨rfl, rfl, rfl⟩

theorem Undisturbed.record (h : Undisturbed w v) (entry : JournalEntry) :
    Undisturbed w (v.record entry) :=
  ⟨h.store, h.volumes, h.obstacles⟩

theorem describe_ends (name : String) (w : World Cloud) :
    (remotely "describe volume" (Cloud.describe name)).Ends w
      (fun found v => found = w.remote.volume? name ∧ Undisturbed w v)
      fun _ v => Undisturbed w v := by
  refine World.retrying_ends (fun entry v hv => hv.record entry) (fun v hv => ?_)
    (Undisturbed.refl w)
  refine World.onRemote_ends (Ends.bind ((call_ends "describe" v.remote).mono ?_ ?_))
  · rintro _ c ⟨-, rfl⟩
    refine ends_view ⟨?_, hv.store, hv.volumes, hv.obstacles⟩
    rw [Cloud.volume?, Cloud.volume?, hv.volumes]
  · rintro cause c ⟨rest, -, rfl⟩
    exact ⟨hv.store, hv.volumes, hv.obstacles⟩

/-- What a check that returns has reported and left, the volumes of the provider apart. -/
inductive Returned (r : ResourceRecord) (w : World Cloud) : CheckReport → World Cloud → Prop
  /-- No identity is recorded. -/
  | unnamed {status : Status} (hid : (State.resourceId r).run w.store = (.ok none, w.store))
      (hstatus : (State.status r).run w.store = (.ok status, w.store)) :
      Returned r w (.inSync status) w
  /-- The volume is gone. -/
  | gone {name : String} {t : World Cloud}
      (hid : (State.resourceId r).run w.store = (.ok (some name), w.store))
      (hgone : w.remote.volume? name = none)
      (h : Store.Becomes r.id w.store (forgotten (w.store.textOf? r.scope)) t.store) :
      Returned r w (.inSync .missing) t
  /-- The volume was found. -/
  | found {name : String} {size : Option Int} {target : Option String} {observed : CloudVolume}
      {status : Status} {t : World Cloud} (hl : Legible w.store r (some name) size target)
      (hfound : w.remote.volume? name = some observed)
      (hstatus : (State.status r).run w.store = (.ok status, w.store))
      (h : Corrected r (driftOf size target observed) w.store t.store) :
      Returned r w ⟨status, driftOf size target observed⟩ t

/-- What a check that fails has left, the volumes of the provider apart. -/
inductive Failed (r : ResourceRecord) (w : World Cloud) : Failure → World Cloud → Prop
  /-- The records are as they were, and without an identity everything is. -/
  | left {cause : Failure} {t : World Cloud} (h : t.store = w.store)
      (hidle : (State.resourceId r).run w.store = (.ok none, w.store) → t = w) : Failed r w cause t
  /-- The volume was found and the records were corrected, but their status is none. -/
  | late {name : String} {size : Option Int} {target : Option String} {observed : CloudVolume}
      {cause : Failure} {t : World Cloud} (hl : Legible w.store r (some name) size target)
      (hasked : ∃ v, (remotely "describe volume" (Cloud.describe name)).run w =
        (.ok (some observed), v))
      (hclear : w.obstacles = {})
      (hstatus : (State.status r).run w.store = (.error cause, w.store))
      (h : Corrected r (driftOf size target observed) w.store t.store) (hne : t.store ≠ w.store) :
      Failed r w cause t

/-- The status is read once the records are corrected. -/
theorem compare_ends (hid : (State.resourceId r).run w.store = (.ok (some name), w.store))
    (observed : CloudVolume) : (compare r observed).Ends w
      (fun report t => ∃ size target, Legible w.store r (some name) size target ∧
        report.drift = driftOf size target observed ∧
        (State.status r).run w.store = (.ok report.status, w.store) ∧
        Corrected r report.drift w.store t.store ∧ t = { w with store := t.store })
      fun cause t => t = { w with store := t.store } ∧ (t.store ≠ w.store →
        ∃ size target, Legible w.store r (some name) size target ∧ w.obstacles = {} ∧
          (State.status r).run w.store = (.error cause, w.store) ∧
          Corrected r (driftOf size target observed) w.store t.store) := by
  have hkept : ∀ {P : Prop} {t : World Cloud}, t = w →
      t = { w with store := t.store } ∧ (t.store ≠ w.store → P) := by
    rintro P t rfl
    exact ⟨rfl, fun hne => absurd rfl hne⟩
  have hrecords := State.records_of_resourceId hid
  refine Ends.bind ((recorded_ends _ _).mono (fun size v ⟨hsize, hv⟩ => ?_) fun _ t ht => hkept ht)
  rw [hv]
  refine Ends.bind ((recorded_ends _ _).mono (fun target v ⟨htarget, hv⟩ => ?_)
    fun _ t ht => hkept ht)
  rw [hv]
  refine Ends.bind ((absorb_ends hrecords _).mono (fun _ t ⟨hleft, hcorrected, hclear⟩ => ?_)
    fun _ t ht => hkept ht.1)
  have hl : Legible w.store r (some name) size target := ⟨hid, hsize, htarget⟩
  have hstatus := Corrected.status_eq hcorrected
  have hreads := State.status_reads r w.store
  refine Ends.bind ((World.onStore_reads_fails (State.status_reads r)).mono ?_ ?_)
  · rintro status _ ⟨hrun, rfl⟩
    rw [hrun] at hstatus
    exact ends_pure ⟨size, target, hl, rfl, Prod.ext hstatus.symm hreads, hcorrected, hleft⟩
  · rintro cause _ ⟨rfl, hfails⟩
    refine ⟨hleft, fun hne => ⟨size, target, hl, hclear hne, Prod.ext ?_ hreads, hcorrected⟩⟩
    rw [hfails (by rw [hleft]; exact hclear hne)] at hstatus
    exact hstatus.symm

/-- With nothing in the way of the store, the records are corrected whatever their status is. -/
theorem run_compare (hl : Legible w.store r (some name) size target) (hclear : w.obstacles = {})
    (observed : CloudVolume) :
    ∃ t : World Cloud, Corrected r (driftOf size target observed) w.store t.store ∧
      (compare r observed).run w =
        (((State.status r).run w.store).1.map (⟨·, driftOf size target observed⟩), t) := by
  have hrecorded : ∀ {α : Type} {key : String} {expect : Json → Except Json.DecodeError α}
      {x : Option α}, (Store.getAs r.scope key expect).run w.store = (.ok x, w.store) →
      (recorded r key expect).run w = (.ok x, w) := fun h =>
    World.onStore_run hclear (by rw [run_mapError, h]; rfl)
  unfold compare
  rw [run_bind_ok (hrecorded hl.size), run_bind_ok (hrecorded hl.target)]
  refine (absorb_ends (State.records_of_resourceId hl.id) _).elim
    (fun _ t habsorb ⟨hleft, hcorrected, _⟩ => ⟨t, hcorrected, ?_⟩)
    fun _ _ _ hfail => absurd hclear hfail.2
  have hstatus : (World.onStore (State.status r) : Task Cloud _).run t =
      (((State.status r).run w.store).1, t) := by
    rw [World.run_onStore (by rw [hleft]; exact hclear), State.status_reads r t.store,
      hcorrected.status_eq]
  refine (run_bind_ok habsorb).trans ?_
  rw [run_bind, hstatus]
  cases ((State.status r).run w.store).1 <;> rfl

/-- A volume that is gone is forgotten. -/
theorem forget_ends (hid : (State.resourceId r).run w.store = (.ok (some name), w.store))
    (text : String) : (do
      World.log .warn .engine text
      World.onStore (State.markDestroyed r ownedKeys)
      return CheckReport.inSync .missing : Task Cloud CheckReport).Ends w
      (fun report t => report = .inSync .missing ∧ t.remote = w.remote ∧
        Store.Becomes r.id w.store (forgotten (w.store.textOf? r.scope)) t.store)
      fun _ t => t.remote = w.remote ∧ t.store = w.store := by
  refine Ends.bind (ends_update ?_)
  have hforgets := markDestroyed_forgets (State.records_of_resourceId hid)
  have hlogged := World.onStore_ends_any (w := w.record (.logged ⟨.warn, .engine, text⟩))
    (hforgets.mono (fun _ _ _ => trivial) fun _ _ q => q.elim)
  refine Ends.bind (hlogged.mono ?_ ?_)
  · rintro _ t ⟨hrun, hleft, -⟩
    refine ends_pure ⟨rfl, ?_, hforgets.ok hrun⟩
    rw [hleft]
    rfl
  · rintro _ _ rfl
    exact ⟨rfl, rfl⟩

/-- However a check ends, it has left the volumes of the provider alone. -/
theorem check_ends (r : ResourceRecord) (w : World Cloud) : (check r).Ends w
    (fun report t => t.remote.volumes = w.remote.volumes ∧ Returned r w report t)
    fun cause t => t.remote.volumes = w.remote.volumes ∧ Failed r w cause t := by
  have hunread : ∀ (cause : Failure) t, t = w →
      t.remote.volumes = w.remote.volumes ∧ Failed r w cause t := by
    rintro cause _ rfl
    exact ⟨rfl, .left rfl fun _ => rfl⟩
  unfold check
  refine Ends.bind ((World.onStore_reads_ends (State.resourceId_reads r)).mono
    (fun found v ⟨hid, hv⟩ => ?_) hunread)
  rw [hv]
  cases found with
  | none =>
    refine Ends.bind ((World.onStore_reads_ends (State.status_reads r)).mono
      (fun status v ⟨hstatus, hv⟩ => ?_) hunread)
    rw [hv]
    exact ends_pure ⟨rfl, .unnamed hid hstatus⟩
  | some name =>
    have hkept : ∀ (cause : Failure) t, t.store = w.store → Failed r w cause t := by
      refine fun cause t ht => .left ht fun hnone => ?_
      rw [hid] at hnone
      cases hnone
    refine Ends.bind ((describe_ends name w).traced.mono ?_ fun cause v hv =>
      ⟨hv.volumes, hkept cause v hv.store⟩)
    rintro found v ⟨hasked, hfound, hv⟩
    have hidv : (State.resourceId r).run v.store = (.ok (some name), v.store) := by
      rw [hv.store, hid]
    cases found with
    | none =>
      refine (forget_ends hidv _).mono ?_ ?_
      · rintro _ t ⟨rfl, hremote, hbecomes⟩
        rw [hv.store] at hbecomes
        exact ⟨by rw [hremote, hv.volumes], .gone hid hfound.symm hbecomes⟩
      · rintro cause t ⟨hremote, ht⟩
        exact ⟨by rw [hremote, hv.volumes], hkept cause t (ht.trans hv.store)⟩
    | some observed =>
      refine (compare_ends hidv observed).mono ?_ ?_
      · rintro ⟨status, drift⟩ t ⟨size, target, hl, rfl, hstatus, hcorrected, hleft⟩
        rw [hv.store] at hl hstatus hcorrected
        exact ⟨by rw [hleft, hv.volumes], .found hl hfound.symm hstatus hcorrected⟩
      · rintro cause t ⟨hleft, hlate⟩
        refine ⟨by rw [hleft, hv.volumes], ?_⟩
        rw [hv.store, hv.obstacles] at hlate
        by_cases ht : t.store = w.store
        · exact hkept cause t ht
        · obtain ⟨size, target, hl, hclear, hstatus, hcorrected⟩ := hlate ht
          exact .late hl ⟨v, hasked⟩ hclear hstatus hcorrected ht

end Volume

end DesiredState
