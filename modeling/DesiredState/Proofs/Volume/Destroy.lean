import DesiredState.Proofs.Volume.Settled

/-!
# How a volume is destroyed

Before anything is written the user may decline or be out of reach. Then the volume is marked as
stopping, the provider is asked to delete it, and only after the provider has done so are the
records cleared. Whatever interrupts this leaves the volume where it is and its identity recorded,
so that destroying it can be taken up again.
-/

namespace DesiredState.Volume

open DesiredState.Action

variable {r : ResourceRecord} {s t : Store} {w v : World Cloud} {id : Option String}
  {name : String} {wipe : Bool} {confirm : Confirmation}

theorem records_of_known (h : Store.Knows r.id s) : s.Records r.id (s.textOf? r.scope) := by
  obtain ⟨look, hlook⟩ := h
  have hsame : s.textOf? r.scope = look := funext hlook.textOf?
  rwa [hsame]

/-- The user was asked about a volume that exists and said no. -/
def Declined (id : Option String) (wipe : Bool) (confirm : Confirmation) : Prop :=
  id.isSome ∧ wipe = true ∧ confirm = .answered false

/-- What can keep a volume from being destroyed. -/
inductive Hindered (w : World Cloud) (wipe : Bool) (confirm : Confirmation) : Prop where
  | provider (h : w.remote.failures ≠ [])
  /-- The user has to be asked and cannot be. -/
  | user {reason : String} (hwipe : wipe = true) (hconfirm : confirm = .unanswerable reason)

theorem setStatus_ends {look : String → Option String} (h : s.Records r.id look)
    (status : Status) : (State.setStatus r status).Ends s
      (fun _ t => Store.Becomes r.id s
        (Function.update look State.statusKey (Store.stored (.ofInt status.ordinal))) t)
      fun _ _ => False :=
  Ends.mapError (Store.set_ends h State.statusKey _)

/-- A volume is deleted, or the provider has failed and it is still there. -/
theorem deleteVolume_ends (name : String) (w : World Cloud) :
    (remotely "delete volume" (Cloud.deleteVolume name)).Ends w
      (fun _ t => t.store = w.store ∧ t.obstacles = w.obstacles ∧
        t.remote.volumes = w.remote.volumes.erase name)
      fun _ t => Undisturbed w t ∧ w.remote.failures ≠ [] := by
  by_cases hcalm : w.remote.failures = []
  · exact Ends.of_ok (run_remotely_ok _ (run_bind_ok (run_call_calm hcalm "delete")))
      ⟨rfl, rfl, rfl⟩
  · refine (World.retrying_ends (fun entry v hv => hv.record entry) (fun v hv => ?_)
      (Undisturbed.refl w)).mono (fun _ _ h => h) fun _ _ h => ⟨h, hcalm⟩
    refine World.onRemote_ends (Ends.bind ((call_ends "delete" v.remote).mono ?_ ?_))
    · rintro _ c ⟨-, rfl⟩
      refine ends_update ⟨hv.store, hv.obstacles, ?_⟩
      exact congrArg (KeyMap.erase · name) hv.volumes
    · rintro cause c ⟨rest, -, rfl⟩
      exact ⟨hv.store, hv.volumes, hv.obstacles⟩

/-- What was forgotten is forgotten whatever status it had. -/
theorem forgotten_update_status (look : String → Option String) (text : Option String) :
    forgotten (Function.update look State.statusKey text) = forgotten look := by
  funext key
  by_cases hkey : key = State.statusKey
  · simp [forgotten, hkey]
  · simp [forgotten, hkey, Store.removeAll]

/-- The volume is gone and forgotten; its row and all other volumes are still there. -/
structure Removed (r : ResourceRecord) (id : Option String) (w t : World Cloud) : Prop where
  absent : ∀ name, id = some name → t.remote.volume? name = none
  others : ∀ other, id ≠ some other → t.remote.volume? other = w.remote.volume? other
  forgotten : Forgotten r w.store t.store
  known : Store.Knows r.id t.store
  clear : t.obstacles = {}

/-- No volume was touched, and nothing that is recorded, unless it is now recorded that the volume
is being stopped. -/
structure Interrupted (r : ResourceRecord) (w t : World Cloud) : Prop where
  volumes : t.remote.volumes = w.remote.volumes
  beside : Store.Beside r.id w.store t.store
  others : ∀ key, key ≠ State.statusKey →
    t.store.textOf? r.scope key = w.store.textOf? r.scope key
  status : t.store = w.store ∨ (State.status r).run t.store = (.ok .stopping, t.store)
  known : Store.Knows r.id t.store

theorem interrupted_of_same (hknown : Store.Knows r.id w.store) {t : World Cloud}
    (hstore : t.store = w.store) (hvolumes : t.remote.volumes = w.remote.volumes) :
    Interrupted r w t := by
  refine ⟨hvolumes, ?_, fun key _ => by rw [hstore], Or.inl hstore, by rwa [hstore]⟩
  rw [hstore]
  exact .refl _ _

/-- The identity is recorded as before. -/
theorem Interrupted.resourceId {t : World Cloud} (h : Interrupted r w t)
    (hid : (State.resourceId r).run w.store = (.ok id, w.store)) :
    (State.resourceId r).run t.store = (.ok id, t.store) := by
  have hsame := State.resourceId_congr (h.others State.resourceIdKey (by decide))
  rw [hid] at hsame
  exact (State.resourceId_reads r).run_ok hsame

section

variable (hclear : w.obstacles = {}) (hknown : Store.Knows r.id w.store)

include hclear hknown

/-- Without an identity there is nothing to ask for and nothing to delete. -/
theorem run_destroy_unnamed (hid : (State.resourceId r).run w.store = (.ok none, w.store))
    (wipe : Bool) (confirm : Confirmation) : ∃ s,
      (destroy r wipe confirm).run w = (.ok true, { w with store := s }) ∧
        Removed r none w { w with store := s } := by
  unfold destroy
  rw [run_bind_ok (World.onStore_run hclear hid)]
  refine (markDestroyed_forgets (records_of_known hknown)).elim (fun _ s hrun hs => ?_)
    fun _ _ _ q => q.elim
  have hmark : (World.onStore (State.markDestroyed r ownedKeys) : Task Cloud Unit).run w =
      (.ok (), { w with store := s }) := by
    rw [World.run_onStore hclear, hrun]
  refine ⟨s, run_bind_ok hmark, nofun, fun _ _ => rfl, forgotten_of_becomes hs,
    ⟨_, hs.records⟩, hclear⟩

theorem remove_ends (name : String) :
    (remove r name).Ends w (fun _ t => Removed r (some name) w t)
      fun _ t => Interrupted r w t ∧ w.remote.failures ≠ [] := by
  have hrecords := records_of_known hknown
  unfold remove
  refine Ends.bind (World.onStore_ends hclear ((setStatus_ends hrecords .stopping).mono
    (fun _ s hs => ?_) fun _ _ q => q.elim))
  refine Ends.bind (World.exclusive_ends ((deleteVolume_ends name _).mono ?_ ?_))
  · rintro _ v ⟨hstore, hobstacles, hvolumes⟩
    obtain rfl : v.store = s := hstore
    refine World.onStore_ends (hobstacles.trans hclear) ?_
    refine (markDestroyed_forgets hs.records).mono (fun _ t ht => ?_) fun _ _ q => q.elim
    rw [forgotten_update_status] at ht
    have hbecomes := hs.trans ht
    refine ⟨?_, ?_, forgotten_of_becomes hbecomes, ⟨_, ht.records⟩, hobstacles.trans hclear⟩
    · rintro _ ⟨⟩
      exact (congrArg (KeyMap.find? · name) hvolumes).trans (KeyMap.find?_erase_self ..)
    · intro other hother
      have hne : other ≠ name := fun he => hother (congrArg some he.symm)
      exact (congrArg (KeyMap.find? · other) hvolumes).trans (KeyMap.find?_erase_ne hne _)
  · rintro cause v ⟨hv, hfails⟩
    obtain rfl : v.store = s := hv.store
    refine ⟨⟨hv.volumes, hs.beside, fun key hkey => ?_, Or.inr ?_, ⟨_, hs.records⟩⟩, hfails⟩
    · exact (hs.records.textOf? key).trans (Function.update_of_ne hkey _ _)
    · exact status_of_text hs.records (Function.update_self ..)

/-- Destroying a volume fails only if the user cannot be asked or the provider fails. -/
theorem destroy_ends (hid : (State.resourceId r).run w.store = (.ok id, w.store)) (wipe : Bool)
    (confirm : Confirmation) : (destroy r wipe confirm).Ends w
      (fun done t => (done = false ↔ Declined id wipe confirm) ∧
        if done then Removed r id w t else t.store = w.store ∧ t.remote = w.remote)
      fun _ t => ¬ Declined id wipe confirm ∧ Interrupted r w t ∧ Hindered w wipe confirm := by
  cases id with
  | none =>
    obtain ⟨s, hrun, hremoved⟩ := run_destroy_unnamed hclear hknown hid wipe confirm
    exact Ends.of_ok hrun ⟨by simp [Declined], hremoved⟩
  | some name =>
    -- what the question may have changed does not matter to the removal
    have hremove : ∀ v : World Cloud, v = { w with journal := v.journal } →
        ¬ Declined (some name) wipe confirm →
        (do remove r name; return true : Task Cloud Bool).Ends v
          (fun done t => (done = false ↔ Declined (some name) wipe confirm) ∧
            if done then Removed r (some name) w t else t.store = w.store ∧ t.remote = w.remote)
          fun _ t => ¬ Declined (some name) wipe confirm ∧ Interrupted r w t ∧
            Hindered w wipe confirm := by
      intro v hv hdeclined
      rw [hv]
      refine Ends.bind ((remove_ends (w := { w with journal := v.journal }) hclear hknown name).mono
        (fun _ t h => ends_pure ⟨by simp [hdeclined], ?_⟩)
        fun _ t h => ⟨hdeclined, ?_, .provider h.2⟩)
      · exact ⟨h.absent, h.others, h.forgotten, h.known, h.clear⟩
      · exact ⟨h.1.volumes, h.1.beside, h.1.others, h.1.status, h.1.known⟩
    unfold destroy
    refine Ends.bind (Ends.of_ok (World.onStore_run hclear hid) ?_)
    cases wipe with
    | false => exact hremove w rfl (by simp [Declined])
    | true =>
      simp only [if_true]
      refine Ends.bind ((confirm.ask_ends _ w).mono (fun yes v h => ?_) fun _ t h => ?_)
      · obtain ⟨hanswer, hv⟩ := h
        cases yes with
        | true =>
          rw [if_neg (not_not.mpr rfl)]
          exact hremove v hv (by simp [Declined, ← hanswer])
        | false =>
          rw [if_pos Bool.false_ne_true]
          refine ends_pure ⟨by simp [Declined, ← hanswer], ?_⟩
          rw [hv]
          exact ⟨rfl, rfl⟩
      · obtain ⟨⟨reason, rfl⟩, hv⟩ := h
        refine ⟨by simp [Declined], ?_, .user rfl rfl⟩
        rw [hv]
        exact interrupted_of_same hknown rfl rfl

end

/-- Destroying a volume in a store that nothing is in the way of, whatever its identity is and
however the provider fails. It returns that the user declined just if the user was asked and said
no, and then neither the store nor the provider has changed. If it returns that the volume was
destroyed, the volume is gone and forgotten, and destroying it again asks for nothing and calls
nobody. If it fails, every volume is still there and only the status may have changed, so that
destroying it succeeds without wiping as soon as the provider does not fail. -/
theorem destroy_outcomes {r : ResourceRecord} {w : World Cloud} {id : Option String}
    (hclear : w.obstacles = {}) (hknown : Store.Knows r.id w.store)
    (hid : (State.resourceId r).run w.store = (.ok id, w.store)) (wipe : Bool)
    (confirm : Confirmation) :
    let outcome := (destroy r wipe confirm).run w
    (outcome.1 = .ok false ↔ id.isSome ∧ wipe = true ∧ confirm = .answered false) ∧
    (∀ t, outcome = (.ok false, t) → t.store = w.store ∧ t.remote = w.remote) ∧
    (∀ t, outcome = (.ok true, t) → Removed r id w t ∧
      ∀ wipe' confirm', ∃ u, (destroy r wipe' confirm').run t = (.ok true, u) ∧
        u.remote = t.remote ∧ u.journal = t.journal) ∧
    ∀ cause t, outcome = (.error cause, t) → Interrupted r w t ∧
      ∀ v confirm', v.store = t.store → v.obstacles = {} → v.remote.failures = [] →
        ∃ u, (destroy r false confirm').run v = (.ok true, u) := by
  intro outcome
  have hends := destroy_ends hclear hknown hid wipe confirm
  refine ⟨?_, fun t ht => ?_, fun t ht => ⟨?_, fun wipe' confirm' => ?_⟩,
    fun cause t ht => ⟨?_, fun v confirm' hstore hvclear hcalm => ?_⟩⟩
  · refine hends.elim (fun done t hr h => ?_) fun cause t hr h => ?_
    · have houtcome : outcome.1 = .ok done := congrArg Prod.fst hr
      rw [houtcome, Except.ok.injEq]
      exact h.1
    · have houtcome : outcome.1 = .error cause := congrArg Prod.fst hr
      rw [houtcome]
      exact ⟨nofun, fun hdeclined => absurd hdeclined h.1⟩
  · exact (hends.ok ht).2
  · exact (hends.ok ht).2
  · have hremoved : Removed r id w t := (hends.ok ht).2
    obtain ⟨s, hrun, -⟩ := run_destroy_unnamed hremoved.clear hremoved.known
      hremoved.forgotten.legible.id wipe' confirm'
    exact ⟨_, hrun, rfl, rfl⟩
  · exact (hends.error ht).2.1
  · have hinterrupted : Interrupted r w t := (hends.error ht).2.1
    have hvid : (State.resourceId r).run v.store = (.ok id, v.store) :=
      hstore ▸ hinterrupted.resourceId hid
    refine (destroy_ends hvclear (hstore ▸ hinterrupted.known) hvid false confirm').elim
      (fun done u hr h => ?_) fun cause' u hr h => ?_
    · cases done with
      | true => exact ⟨u, hr⟩
      | false => exact absurd (h.1.mp rfl).2.1 Bool.false_ne_true
    · rcases h.2.2 with hfails | ⟨hwipe, -⟩
      · exact absurd hcalm hfails
      · exact absurd hwipe Bool.false_ne_true

/-- The provider refuses the next call. -/
def refusing : World Cloud :=
  { tamperedWorld with
    remote := tamperedWorld.remote.failNext (.provider "vol-1" "VolumeInUse") }

theorem destroy_outcomes_refusing :
    let r : ResourceRecord := ⟨1, "dep", "grown", volumeType⟩
    ((destroy r true (.answered false)).run refusing).1 = .ok false ∧
    ∃ t u, (destroy r false .assumed).run refusing =
        (.error (.provider "vol-1" "VolumeInUse"), t) ∧
      Interrupted r refusing t ∧ (destroy r false .assumed).run t = (.ok true, u) ∧
      u.remote.volume? "vol-1" = none ∧ ∃ v, (destroy r true .assumed).run u = (.ok true, v) := by
  intro r
  have hid : (State.resourceId r).run refusing.store = (.ok (some "vol-1"), refusing.store) :=
    (State.resourceId_reads r).run_ok (by decide +kernel)
  have hknown : Store.Knows r.id refusing.store := ⟨_, State.records_of_resourceId hid⟩
  obtain ⟨hdeclined, -⟩ := destroy_outcomes rfl hknown hid true (.answered false)
  obtain ⟨-, -, -, hfails⟩ := destroy_outcomes rfl hknown hid false .assumed
  refine ⟨hdeclined.mpr ⟨rfl, rfl, rfl⟩, ?_⟩
  have hleft : ((destroy r false .assumed).run refusing).1 =
        .error (.provider "vol-1" "VolumeInUse") ∧
      ((destroy r false .assumed).run refusing).2.obstacles = {} ∧
      ((destroy r false .assumed).run refusing).2.remote.failures = [] := by
    decide +kernel
  rcases ht : (destroy r false .assumed).run refusing with ⟨outcome, t⟩
  rw [ht] at hleft
  obtain ⟨rfl, hclear, hcalm⟩ := hleft
  obtain ⟨hinterrupted, hagain⟩ := hfails _ t ht
  obtain ⟨u, hu⟩ := hagain t .assumed rfl hclear hcalm
  obtain ⟨-, -, hdone, -⟩ := destroy_outcomes hclear hinterrupted.known
    (hinterrupted.resourceId hid) false .assumed
  obtain ⟨hremoved, hidle⟩ := hdone u hu
  obtain ⟨v, hv, -⟩ := hidle true .assumed
  exact ⟨t, u, rfl, hinterrupted, hu, hremoved.absent _ rfl, v, hv⟩

end DesiredState.Volume
