import DesiredState.Proofs.Volume.Check

/-!
# A check tells the truth and settles

What a check that returns reports is true of the records and of the provider. It leaves records that
agree with the provider, so that the next check has nothing to report. If it fails, the records are
as they were.
-/

namespace DesiredState.Volume

open DesiredState.Action

variable {r : ResourceRecord} {s t : Store} {w v : World Cloud} {name : String}
  {id target : Option String} {size : Option Int} {status : Status}

theorem leaves_onStore {α : Type} {a : Action Store Failure α} (h : a.Reads) :
    (Thread.once (World.onStore a : Task Cloud α)).Leaves World.store :=
  Thread.leaves_once fun w => congrArg World.store (World.onStore_reads h w)

theorem leaves_describe (name : String) :
    (World.retryingTurns "describe volume"
      (Thread.once (World.onRemote (Cloud.describe name)))).Leaves World.store := by
  have hservices : (Thread.once (view World.services) :
      Thread (World Cloud) Failure Services).Leaves World.store := Thread.leaves_once fun _ => rfl
  refine hservices.bind fun _ => Thread.leaves_attempts ?_ ?_ _ _
  · exact fun _ _ => rfl
  · exact Thread.leaves_once fun _ => rfl

theorem leaves_reportStatus (r : ResourceRecord) (report : Status → CheckReport) :
    (do return report (← Thread.once (World.onStore (State.status r))) :
      Thread (World Cloud) Failure CheckReport).Leaves World.store :=
  (leaves_onStore (State.status_reads r)).bind fun _ => Thread.leaves_pure _

/-- All that a check writes it writes in one turn. -/
theorem changesAtOnce_checkTurns (r : ResourceRecord) (w : World Cloud) :
    (checkTurns r).ChangesAtOnce World.store w := by
  refine (leaves_onStore (State.resourceId_reads r)).bind_changesAtOnce fun found v _ => ?_
  cases found with
  | none => exact (leaves_reportStatus r _).changesAtOnce v
  | some name =>
    refine (leaves_describe name).bind_changesAtOnce fun found v _ => ?_
    cases found with
    | none =>
      refine (Thread.leaves_once fun _ => rfl).bind_changesAtOnce fun _ v _ => ?_
      exact Thread.changesAtOnce_once_bind _ (fun _ => Thread.leaves_pure _) v
    | some observed =>
      refine (leaves_onStore Store.getAs_reads.mapError).bind_changesAtOnce fun size v _ => ?_
      refine (leaves_onStore Store.getAs_reads.mapError).bind_changesAtOnce fun target v _ => ?_
      exact Thread.changesAtOnce_once_bind _ (fun _ => leaves_reportStatus r _) v

/-- Nothing is in the way of the store, and if the provider is asked it answers, at once or when it
is asked again. -/
structure Reachable (r : ResourceRecord) (w : World Cloud) : Prop where
  clear : w.obstacles = {}
  answers : ∀ name, (State.resourceId r).run w.store = (.ok (some name), w.store) →
    ∃ found v, (remotely "describe volume" (Cloud.describe name)).run w = (.ok found, v)

theorem reachable_of_calm (hclear : w.obstacles = {}) (hcalm : w.remote.failures = []) :
    Reachable r w :=
  ⟨hclear, fun name _ => ⟨_, _, run_remotely_ok _ (Cloud.run_describe_calm hcalm name)⟩⟩

theorem Reachable.returns (h : Reachable r w) (hl : Legible w.store r id size target)
    (hstatus : (State.status r).run w.store = (.ok status, w.store)) :
    ∃ report t, (check r).run w = (.ok report, t) := by
  have hnever : (check r).Ends w (fun _ _ => True) fun _ _ => False := by
    unfold check
    refine Ends.bind (Ends.of_ok (World.onStore_run h.clear hl.id) ?_)
    cases id with
    | none => exact Ends.bind (Ends.of_ok (World.onStore_run h.clear hstatus) (ends_pure trivial))
    | some name =>
      obtain ⟨found, v, hasked⟩ := h.answers name hl.id
      obtain ⟨-, hv⟩ := (describe_ends name w).ok hasked
      have hclear : v.obstacles = {} := hv.obstacles.trans h.clear
      rw [← hv.store] at hl hstatus
      refine Ends.bind (Ends.of_ok hasked ?_)
      cases found with
      | none =>
        have hrecords := State.records_of_resourceId hl.id
        refine Ends.bind (ends_update (Ends.bind (World.onStore_ends hclear ?_)))
        exact (markDestroyed_forgets hrecords).imp fun _ _ _ => ends_pure trivial
      | some observed =>
        obtain ⟨t, -, hrun⟩ := run_compare hl hclear observed
        rw [hstatus] at hrun
        exact Ends.of_ok hrun trivial
  exact hnever.elim (fun report t hr _ => ⟨report, t, hr⟩) fun _ _ _ q => q.elim

/-- What is recorded agrees with the provider. -/
structure Steady (r : ResourceRecord) (w : World Cloud) (status : Status) : Prop where
  status : (State.status r).run w.store = (.ok status, w.store)
  agrees : ∃ id size target, Legible w.store r id size target ∧ ∀ name, id = some name →
    ∃ observed, w.remote.volume? name = some observed ∧ driftOf size target observed = []

theorem Steady.of_same (h : Steady r w status) (hstore : v.store = w.store)
    (hvolumes : v.remote.volumes = w.remote.volumes) : Steady r v status := by
  obtain ⟨hstatus, id, size, target, hl, hagrees⟩ := h
  refine ⟨by rwa [hstore], id, size, target, by rwa [hstore], fun name hname => ?_⟩
  rw [Cloud.volume?, hvolumes]
  exact hagrees name hname

/-- Where the records agree with the provider, a check changes nothing, and it returns unless it
cannot reach the store or the provider. -/
theorem Steady.check (h : Steady r w status) :
    (check r).Ends w
      (fun report t => report = .inSync status ∧ t.store = w.store ∧
        t.remote.volumes = w.remote.volumes)
      (fun _ t => t.store = w.store ∧ t.remote.volumes = w.remote.volumes) ∧
    (Reachable r w → ∃ t, (Volume.check r).run w = (.ok (.inSync status), t)) := by
  obtain ⟨hstatus, id, size, target, hl, hagrees⟩ := h
  have hends : (Volume.check r).Ends w
      (fun report t => report = .inSync status ∧ t.store = w.store ∧
        t.remote.volumes = w.remote.volumes)
      fun _ t => t.store = w.store ∧ t.remote.volumes = w.remote.volumes := by
    refine (check_ends r w).mono ?_ ?_
    · rintro report t ⟨hvolumes, hreturned⟩
      cases hreturned with
      | unnamed hid hread =>
        cases hstatus.symm.trans hread
        exact ⟨rfl, rfl, rfl⟩
      | gone hid hgone =>
        cases hl.id.symm.trans hid
        obtain ⟨observed, hfound, -⟩ := hagrees _ rfl
        cases hgone.symm.trans hfound
      | found hl' hfound hread hcorrected =>
        cases hstatus.symm.trans hread
        obtain ⟨rfl, rfl, rfl⟩ := hl.unique hl'
        obtain ⟨observed, hfound', hsame⟩ := hagrees _ rfl
        cases hfound.symm.trans hfound'
        rw [hsame]
        exact ⟨rfl, hcorrected.same hsame, hvolumes⟩
    · rintro cause t ⟨hvolumes, hfailed⟩
      cases hfailed with
      | left h => exact ⟨h, hvolumes⟩
      | late _ _ _ hread =>
        rw [hstatus] at hread
        cases hread
  refine ⟨hends, fun hreach => ?_⟩
  obtain ⟨report, t, hrun⟩ := hreach.returns hl hstatus
  obtain ⟨rfl, -⟩ := hends.ok hrun
  exact ⟨t, hrun⟩

/-- The keys that are cleared when a volume is gone. -/
def clearedKeys : List String := State.resourceIdKey :: State.creationTimeKey :: ownedKeys

/-- A volume was forgotten: it is missing, and nothing else has changed. -/
structure Forgotten (r : ResourceRecord) (s t : Store) : Prop where
  beside : Store.Beside r.id s t
  cleared : ∀ key ∈ clearedKeys, t.textOf? r.scope key = none
  status : (State.status r).run t = (.ok .missing, t)
  others : ∀ key, key ≠ State.statusKey → key ∉ clearedKeys →
    t.textOf? r.scope key = s.textOf? r.scope key

/-- What was recorded of a volume is as it was observed, and nothing else has changed. -/
structure Repaired (r : ResourceRecord) (id : Option String) (size : Option Int) (status : Status)
    (observed : CloudVolume) (drift : List Drift) (s t : Store) : Prop where
  beside : Store.Beside r.id s t
  legible : Legible t r id (size.map fun _ => observed.size) observed.attachedTo
  status : (State.status r).run t = (.ok status, t)
  others : ∀ key, key ∉ drift.map Drift.key → t.textOf? r.scope key = s.textOf? r.scope key

theorem forgotten_of_becomes
    (h : Store.Becomes r.id s (forgotten (s.textOf? r.scope)) t) : Forgotten r s t := by
  have htext : ∀ key, t.textOf? r.scope key = forgotten (s.textOf? r.scope) key :=
    h.records.textOf?
  refine ⟨h.beside, fun key hkey => ?_, ?_, fun key hstatus hkey => ?_⟩
  · have hne : key ≠ State.statusKey := by
      rintro rfl
      revert hkey
      decide
    rw [htext, forgotten, Function.update_of_ne hne, Store.removeAll]
    exact if_pos hkey
  · exact status_of_text h.records (Function.update_self ..)
  · rw [htext, forgotten, Function.update_of_ne hstatus, Store.removeAll]
    exact if_neg hkey

/-- Nothing is read of a volume that was forgotten. -/
theorem Forgotten.legible (h : Forgotten r s t) : Legible t r none none none where
  id := by
    have hread := Store.getAs_of_no_text (h.cleared State.resourceIdKey (by decide))
      Json.expectString
    rw [State.resourceId, State.attempt, run_mapError, hread]
    rfl
  size := Store.getAs_of_no_text (h.cleared "size" (by decide)) _
  target := Store.getAs_of_no_text (h.cleared "attachedTo" (by decide)) _

theorem repaired_of_corrected {observed : CloudVolume} (hl : Legible s r id size target)
    (hfits : Fits observed.size) (hstatus : (State.status r).run s = (.ok status, s))
    (h : Corrected r (driftOf size target observed) s t) :
    Repaired r id size status observed (driftOf size target observed) s t := by
  have hsame := h.status_eq
  rw [hstatus] at hsame
  exact ⟨h.becomes.beside, hl.corrected hfits h, (State.status_reads r).run_ok hsame,
    fun key => h.textOf?_other⟩

/-- What a check reports is true, and its report goes with what it left: without an identity
nothing happened, a volume that is gone was forgotten, and the records of one that exists are as it
was observed, with what drifted in the report. -/
structure Truthful (r : ResourceRecord) (w : World Cloud) (id : Option String) (size : Option Int)
    (target : Option String) (status : Status) (report : CheckReport) (t : World Cloud) : Prop where
  volumes : t.remote.volumes = w.remote.volumes
  unnamed : id = none → report = .inSync status ∧ t = w
  gone : ∀ name, id = some name → w.remote.volume? name = none →
    report = .inSync .missing ∧ Forgotten r w.store t.store
  found : ∀ name observed, id = some name → w.remote.volume? name = some observed →
    report.status = status ∧ (report.drift.map Drift.key).Nodup ∧
    (∀ d, d ∈ report.drift ↔
      (∃ old, size = some old ∧ old ≠ observed.size ∧
        d = ⟨"size", some (.ofInt old), some (.ofInt observed.size)⟩) ∨
      (target ≠ observed.attachedTo ∧
        d = ⟨"attachedTo", target.map .str, observed.attachedTo.map .str⟩)) ∧
    Repaired r id size status observed report.drift w.store t.store

section

variable (hl : Legible w.store r id size target)
  (hstatus : (State.status r).run w.store = (.ok status, w.store))
  (hfits : ∀ name observed, w.remote.volume? name = some observed → Fits observed.size)
  {report : CheckReport} {t : World Cloud}

include hl hstatus hfits

theorem Returned.truthful (h : Returned r w report t)
    (hvolumes : t.remote.volumes = w.remote.volumes) :
    Truthful r w id size target status report t := by
  cases h with
  | unnamed hid hread =>
    cases hstatus.symm.trans hread
    cases hl.id.symm.trans hid
    exact ⟨rfl, fun _ => ⟨rfl, rfl⟩, nofun, nofun⟩
  | gone hid hgone hbecomes =>
    cases hl.id.symm.trans hid
    refine ⟨hvolumes, nofun, fun _ _ _ => ⟨rfl, forgotten_of_becomes hbecomes⟩, ?_⟩
    rintro _ observed ⟨⟩ hfound
    cases hgone.symm.trans hfound
  | found hl' hfound hread hcorrected =>
    cases hstatus.symm.trans hread
    obtain ⟨rfl, rfl, rfl⟩ := hl.unique hl'
    refine ⟨hvolumes, nofun, ?_, ?_⟩
    · rintro _ ⟨⟩ hgone
      cases hgone.symm.trans hfound
    · rintro _ observed ⟨⟩ hagain
      cases hfound.symm.trans hagain
      exact ⟨rfl, nodup_keys_driftOf, fun _ => mem_driftOf_iff,
        repaired_of_corrected hl (hfits _ _ hfound) hstatus hcorrected⟩

omit hfits in
/-- A check that returns leaves records that agree with the provider. -/
theorem Truthful.steady (h : Truthful r w id size target status report t) :
    Steady r t report.status := by
  cases id with
  | none =>
    obtain ⟨rfl, rfl⟩ := h.unnamed rfl
    exact ⟨hstatus, none, size, target, hl, nofun⟩
  | some name =>
    cases hfound : w.remote.volume? name with
    | none =>
      obtain ⟨rfl, hforgotten⟩ := h.gone name rfl hfound
      exact ⟨hforgotten.status, none, none, none, hforgotten.legible, nofun⟩
    | some observed =>
      obtain ⟨rfl, -, -, hrepaired⟩ := h.found name observed rfl hfound
      refine ⟨hrepaired.status, _, _, _, hrepaired.legible, ?_⟩
      rintro _ ⟨⟩
      refine ⟨observed, ?_, driftOf_eq_nil_iff.mpr ⟨?_, rfl⟩⟩
      · rw [Cloud.volume?, h.volumes]
        exact hfound
      · rw [Option.map_map]
        rfl

end

/-- Checking a volume whose identity, size, attachment and status can be read, whatever volumes the
provider has, with sizes that are words, and however it fails. What is written is written in one
step, and the volumes of the provider stay as they are. A check that returns tells the truth and has
left records that agree with the provider: while they stay and the volumes stay, another check
reports no drift and changes nothing. A check that fails has left the records as they were. Both
checks return if nothing is in the way of the store and the provider answers. -/
theorem check_settles {r : ResourceRecord} {w : World Cloud} {id target : Option String}
    {size : Option Int} {status : Status} (hl : Legible w.store r id size target)
    (hstatus : (State.status r).run w.store = (.ok status, w.store))
    (hfits : ∀ name observed, w.remote.volume? name = some observed → Fits observed.size) :
    (check r).Ends w
      (fun report t => Truthful r w id size target status report t ∧
        ∀ v, v.store = t.store → v.remote.volumes = t.remote.volumes →
          (check r).Ends v
            (fun again u => again = .inSync report.status ∧ u.store = v.store ∧
              u.remote.volumes = v.remote.volumes)
            (fun _ u => u.store = v.store ∧ u.remote.volumes = v.remote.volumes) ∧
          (Reachable r v → ∃ u, (check r).run v = (.ok (.inSync report.status), u)))
      (fun _ t => t.store = w.store ∧ t.remote.volumes = w.remote.volumes ∧ (id = none → t = w)) ∧
    (Reachable r w → ∃ report t, (check r).run w = (.ok report, t)) ∧
    (checkTurns r).alone = check r ∧
    ∃ m n, ((checkTurns r).passed w).map World.store =
      List.replicate m w.store ++ List.replicate n ((check r).run w).2.store := by
  have honce := changesAtOnce_checkTurns r w
  rw [Thread.ChangesAtOnce, alone_checkTurns] at honce
  refine ⟨(check_ends r w).mono ?_ ?_, fun h => h.returns hl hstatus, alone_checkTurns r, honce⟩
  · rintro report t ⟨hvolumes, hreturned⟩
    have htrue := hreturned.truthful hl hstatus hfits hvolumes
    exact ⟨htrue, fun v hstore hv => ((htrue.steady hl hstatus).of_same hstore hv).check⟩
  · rintro cause t ⟨hvolumes, hfailed⟩
    cases hfailed with
    | left hsame hidle => exact ⟨hsame, hvolumes, fun hid => hidle (hid ▸ hl.id)⟩
    | late _ _ _ hread =>
      rw [hstatus] at hread
      cases hread

theorem fits_tampered (name : String) (observed : CloudVolume)
    (h : tamperedWorld.remote.volume? name = some observed) : Fits observed.size := by
  have hall : ∀ entry ∈ tamperedWorld.remote.volumes.entries, Fits entry.2.size := by decide
  exact hall (name, observed) (KeyMap.find?_eq_some_iff.mp h)

theorem check_settles_tampered :
    ∃ t, (check ⟨1, "dep", "grown", volumeType⟩).run tamperedWorld =
        (.ok ⟨.up, [⟨"size", some (.ofInt 8), some (.ofInt 20)⟩]⟩, t) ∧
      Legible t.store ⟨1, "dep", "grown", volumeType⟩ (some "vol-1") (some 20) none ∧
      ∃ u, (check ⟨1, "dep", "grown", volumeType⟩).run t = (.ok (.inSync .up), u) ∧
        u.store = t.store := by
  generalize hr : (⟨1, "dep", "grown", volumeType⟩ : ResourceRecord) = r
  have hl : Legible tamperedWorld.store r (some "vol-1") (some 8) none := by
    subst hr
    exact ⟨(State.resourceId_reads _).run_ok (by decide +kernel),
      Store.getAs_reads.run_ok (by decide +kernel), Store.getAs_reads.run_ok (by decide +kernel)⟩
  have hstatus : (State.status r).run tamperedWorld.store = (.ok .up, tamperedWorld.store) := by
    subst hr
    exact (State.status_reads _).run_ok (by decide +kernel)
  have hleft : ((check r).run tamperedWorld).1 =
        .ok ⟨.up, [⟨"size", some (.ofInt 8), some (.ofInt 20)⟩]⟩ ∧
      ((check r).run tamperedWorld).2.obstacles = {} ∧
      ((check r).run tamperedWorld).2.remote.failures = [] := by
    subst hr
    decide +kernel
  obtain ⟨hends, hreturns, -, -⟩ := check_settles hl hstatus fits_tampered
  obtain ⟨report, t, hrun⟩ := hreturns (reachable_of_calm rfl rfl)
  rw [hrun] at hleft
  obtain ⟨houtcome, hclear, hcalm⟩ := hleft
  cases houtcome
  obtain ⟨htrue, hagain⟩ := hends.ok hrun
  obtain ⟨-, -, -, hrepaired⟩ := htrue.found "vol-1" _ rfl rfl
  obtain ⟨hsettled, hreturns⟩ := hagain t rfl rfl
  obtain ⟨u, hsecond⟩ := hreturns (reachable_of_calm hclear hcalm)
  exact ⟨t, hrun, hrepaired.legible, u, hsecond, (hsettled.ok hsecond).2.1⟩

end DesiredState.Volume
