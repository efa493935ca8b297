import DesiredState.Proofs.Volume.Converge
import DesiredState.Proofs.Volume.Run

/-!
# Repeating a pass

A pass that repeats one that ended well finds nothing to do, calls nobody and leaves the store.
The only exception is a volume that the first pass moved while it was attached as the definition
says: the new volume was left unattached, so the second pass attaches it.
-/

namespace DesiredState.Volume

open DesiredState.Action

/-- A pass finds nothing to do, calls nobody and leaves the store. -/
def Idle (r : ResourceRecord) (d : Definition) (options : PassOptions) (w : World Cloud) : Prop :=
  ∃ t, ((resource r).create d options).run w = (.ok .unchanged, t) ∧ t.remote = w.remote ∧
    t.store = w.store

/-- A volume is recorded in another region than the definition says, and attached as it says. -/
def Uproots (r : ResourceRecord) (d : Definition) (s : Store) : Prop := ∃ region target,
  Recorded s r.id "region" (.str region) ∧ d.string? "region" ≠ some region ∧
    Recorded s r.id "attachedTo" (.str target) ∧ d.string? "attachedTo" = some target

variable {r : ResourceRecord} {d : Definition} {e e₀ : Entry} {w w₀ t : World Cloud}
  {consent : Consent} {p q : Site}

theorem difference_run (hw : w.store.Records r.id e.text?) (hclear : w.obstacles = {})
    (hd : Asks d) (hall : ∀ key, ∃ v, Store.denoted (e.text? key) = .ok v)
    (resolve : Store → Resolver) :
    ∃ diff, ((resource r).difference d resolve).run w = (.ok diff, w) ∧ Differs e d diff := by
  obtain ⟨current, hcurrent⟩ := Store.exportAttributes_run hw hall
  have hlook := ((Store.exportAttributes_ends hw).ok hcurrent).2
  have hdiff : ∃ diff, Diff.compute d current State.reservedKeys (resolve w.store) = .ok diff :=
    Diff.compute_isOk hd.literal
  obtain ⟨diff, hdiff⟩ := hdiff
  have hsnapshot : (World.onStore (State.snapshot r) : Task Cloud _).run w = (.ok current, w) :=
    World.onStore_run hclear (by
      rw [State.snapshot, State.attempt, run_mapError, ResourceRecord.scope, hcurrent]
      rfl)
  refine ⟨diff, ?_, current, _, hlook, hdiff⟩
  unfold Resource.difference
  exact (run_bind_ok hsnapshot).trans (congrArg (Prod.mk · w) hdiff)

/-- A volume that is up has nothing to settle. -/
theorem settle_run (hw : w.store.Records r.id e.text?) (hclear : w.obstacles = {})
    (hp : e.placement.isSome) (hup : e.state = .up) :
    ∃ entry, (resource r).settle.run w = (.ok (), w.record entry) := by
  obtain ⟨placement, hp⟩ := Option.isSome_iff_exists.mp hp
  have hid : (World.onStore (State.resourceId r) : Task Cloud _).run w =
      (.ok (some placement.id), w) :=
    World.onStore_run hclear ((resourceId_run hw).trans (by rw [hp]; rfl))
  have hstatus : (World.onStore (State.status r) : Task Cloud _).run w = (.ok .up, w) :=
    World.onStore_run hclear ((status_run hw).trans (by rw [hup]))
  refine ⟨.logged ⟨.debug, .engine, r.name ++ ": no change"⟩, ?_⟩
  unfold Resource.settle
  exact (run_bind_ok hid).trans (run_bind_ok hstatus)

/-- A pass over a volume that is up and in sync only writes to the log. -/
theorem create_run_of_inSync (hw : w.store.Records r.id e.text?) (hclear : w.obstacles = {})
    (hd : Asks d) (htype : d.resourceType = volumeType) (hup : e.state = .up)
    (hall : ∀ key, ∃ v, Store.denoted (e.text? key) = .ok v)
    (hsync : ∀ key ∉ State.reservedKeys, e.InSync d key) :
    ∃ entry, ((resource r).create d ⟨false, consent⟩).run w = (.ok .unchanged, w.record entry) := by
  obtain ⟨diff, hdiff, hdiffers⟩ := difference_run hw hclear hd hall (resource r).siblings
  have hnone : diff.changedKeys = [] := by
    refine List.eq_nil_iff_forall_not_mem.mpr fun key hk => ?_
    obtain ⟨hr, hnot⟩ := (mem_changedKeys_iff_not_inSync hd hdiffers).mp hk
    exact hnot (hsync key hr)
  have hplan : (resource r).planFor diff = .ok Plan.empty := Plan.make_of_no_change hnone _ _
  have hp : e.placement.isSome := by
    obtain ⟨region, hregion⟩ := Option.isSome_iff_exists.mp hd.region
    have hmap := (inSync_region_iff hregion).mp (hsync _ (by decide))
    exact Option.isSome_map.symm.trans (by rw [hmap]; rfl)
  obtain ⟨entry, hsettle⟩ := settle_run hw hclear hp hup
  refine ⟨entry, ?_⟩
  have hchecked : (resource r).checkType d = .ok () := if_pos htype
  unfold Resource.create Resource.converge Resource.pass
  rw [run_bind_ok (by rw [run_ofExcept, hchecked]), if_neg Bool.false_ne_true, run_bind_ok hdiff,
    run_bind_ok (by rw [run_ofExcept, hplan])]
  simp only [Plan.isEmpty, Plan.empty, List.isEmpty_nil, if_true]
  rw [run_bind_ok hsettle]
  rfl

/-- A pass over a volume that is not in sync does something, if it ends well. -/
theorem create_not_unchanged (hd : Asks d) {key : String} (hr : key ∉ State.reservedKeys)
    (hnot : ¬ p.entry.InSync d key) :
    Leads r w₀ ((resource r).create d ⟨false, consent⟩) p (fun s _ => s ≠ .unchanged)
      fun _ => True := by
  refine create_leads (fun hcheck => by cases hcheck) trivial fun q _ hq => ?_
  obtain rfl := hq rfl
  refine pass_leads (J := fun _ => True) trivial (fun diff plan hdiff hplan hnil => ?_)
    (fun diff plan _ hplan => ?_) fun diff plan q' hne _ hs => ?_
  · have hk := (mem_changedKeys_iff_not_inSync hd hdiff).mpr ⟨hr, hnot⟩
    rw [Plan.changedKeys_of_make hplan hnil] at hk
    cases hk
  · refine leads_forEach (fun handler hm _ _ => runHandler_leads ?_) trivial
    exact (operation_leads (Plan.mem_registry_of_make hplan hm)).mono (fun _ _ _ => trivial)
      fun _ _ => trivial
  · have hids : plan.ids = [] := congrArg Summary.handlers hs
    exact hne (List.map_eq_nil_iff.mp hids)

/-- A pass that ends well was over a definition of a volume. -/
theorem resourceType_of_create {options : PassOptions} {s : Summary}
    (h : ((resource r).create d options).run w = (.ok s, t)) : d.resourceType = volumeType := by
  by_contra hne
  have hchecked : ∃ cause, (resource r).checkType d = .error cause := ⟨_, if_neg hne⟩
  obtain ⟨cause, hcause⟩ := hchecked
  unfold Resource.create Resource.converge at h
  rw [run_bind_error (by rw [run_ofExcept, hcause])] at h
  cases h

theorem Mirrored.uproots_iff {ledger : Int → Option Entry} (h : Mirrored True ledger w)
    (he : ledger r.id = some e) : Uproots r d w.store ↔ e.Uprooted d := by
  have hregion : ∀ {region}, Recorded w.store r.id "region" (.str region) ↔
      e.placement.map Placement.region = some region := by
    intro region
    rw [Recorded, h.get he, ← denoted_str_iff, e.text?_region, Option.map_map]
    rfl
  have htarget : ∀ {target}, Recorded w.store r.id "attachedTo" (.str target) ↔
      e.placement.bind Placement.attachedTo = some target := by
    intro target
    rw [Recorded, h.get he, ← denoted_str_iff, e.text?_attachedTo]
  simp only [Uproots, hregion, htarget]
  constructor
  · rintro ⟨region, target, hr, hne, ha, ht⟩
    obtain ⟨placement, hp, rfl⟩ := Option.map_eq_some_iff.mp hr
    rw [hp, Option.bind_some] at ha
    exact ⟨placement, target, hp, hne, ha, ht⟩
  · rintro ⟨placement, target, hp, hne, ha, ht⟩
    exact ⟨placement.region, target, by rw [hp]; rfl, hne, by rw [hp]; exact ha, ht⟩

/-- Without tampering, a pass that repeats one that ended well is idle just if the first one did
not move a volume that was attached as the definition says. -/
theorem idle_iff_not_uproots {deployment : String} {w : World Cloud} (hw : Reached deployment w)
    {r : ResourceRecord} (hr : Declared deployment w r) {d : Definition} (hd : Asks d)
    {options : PassOptions} {s : Summary} {t : World Cloud}
    (hok : ((resource r).create d options).run w = (.ok s, t)) :
    Idle r d { options with check := false } t ↔ ¬ Uproots r d w.store := by
  obtain ⟨ledger, h⟩ := hw.mirrored
  obtain ⟨e, he⟩ := h.entry_of_declared hr
  obtain ⟨q, hq, hup, hadvanced⟩ :=
    (create_advances hd h.timely (h.sound he) _ (h.shows he)).ok hok
  rw [h.uproots_iff he]
  constructor
  · rintro ⟨t', hrun, -⟩ hroot
    -- The attachment is out of sync, and a pass that ends well has done something about it.
    have hnot : ¬ (siteOf t q.entry).entry.InSync d "attachedTo" := fun hsync =>
      (hadvanced.attached not_false).mp hsync hroot
    have hshows : Shows r t (siteOf t q.entry) t :=
      ⟨Store.Beside.refl _ _, hq.records, ⟨fun _ => rfl, rfl⟩, rfl, hq.clear⟩
    obtain ⟨-, -, hne⟩ := (create_not_unchanged hd (by decide) hnot t hshows).ok hrun
    exact hne rfl
  · intro hroot
    obtain ⟨entry, hrun⟩ := create_run_of_inSync hq.records hq.clear hd
      (resourceType_of_create hok) hup hadvanced.denoted fun key hk => hadvanced.inSync hd hroot hk
    exact ⟨_, hrun, rfl, rfl⟩

/-- Options with consent to recreate a volume. -/
def recreating : PassOptions := { consent := { allowRecreate := true } }

def moving : Task Cloud Summary := (resource firstVolume).create (attachedIn "eu-west-1") recreating

theorem idle_iff_not_uproots_moving :
    Reached "dep" attachedWorld ∧ Declared "dep" attachedWorld firstVolume ∧
    Asks (attachedIn "eu-west-1") ∧
    moving.run attachedWorld = (.ok ⟨["provision"], ["region"]⟩, (moving.run attachedWorld).2) ∧
    (Idle firstVolume (attachedIn "eu-west-1") { recreating with check := false }
        (moving.run attachedWorld).2 ↔
      ¬ Uproots firstVolume (attachedIn "eu-west-1") attachedWorld.store) := by
  have hw : Reached "dep" attachedWorld := ⟨0, {}, 0, _, by decide, rfl⟩
  have hr : Declared "dep" attachedWorld firstVolume := by decide +kernel
  have hd : Asks (attachedIn "eu-west-1") := by decide +kernel
  have hok : moving.run attachedWorld =
      (.ok ⟨["provision"], ["region"]⟩, (moving.run attachedWorld).2) :=
    run_of_toOption (by decide +kernel)
  exact ⟨hw, hr, hd, hok, idle_iff_not_uproots hw hr hd hok⟩

/-- Repeating the move attaches the new volume. -/
theorem not_idle_moving : ∃ s t, moving.run attachedWorld = (.ok s, t) ∧
    ¬ Idle firstVolume (attachedIn "eu-west-1") { recreating with check := false } t := by
  have hok : moving.run attachedWorld =
      (.ok ⟨["provision"], ["region"]⟩, (moving.run attachedWorld).2) :=
    run_of_toOption (by decide +kernel)
  have hagain : (moving.run (moving.run attachedWorld).2).1 = .ok ⟨["attach"], ["attachedTo"]⟩ :=
    ok_of_toOption (by decide +kernel)
  have hunchecked : ({ recreating with check := false } : PassOptions) = recreating := rfl
  refine ⟨_, _, hok, ?_⟩
  rw [hunchecked]
  rintro ⟨t, hrun, -⟩
  have hrun : moving.run (moving.run attachedWorld).2 = (.ok .unchanged, t) := hrun
  rw [hrun] at hagain
  cases hagain

end DesiredState.Volume
