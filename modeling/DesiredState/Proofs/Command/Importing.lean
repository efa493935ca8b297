import DesiredState.Proofs.Command.Effects
import DesiredState.Proofs.Store.Batch

/-!
# Backups are restored whole or not at all

What a command checks before it restores a backup is what the store checks: where nothing is
repeated and nothing clashes, everything is restored, and otherwise nothing is.
-/

namespace DesiredState.Command

open DesiredState.Action

variable {ρ : Type} {w t : World ρ} {snapshots : List Snapshot} {uuid : String}

theorem run_importAll_fresh (hw : w.obstacles = {}) (hs : w.store.IdsBounded)
    (h : w.store.Fresh (snapshots.map Snapshot.uuid)) :
    ∃ t, (World.importDeployments snapshots).run w = (.ok (snapshots.map Snapshot.uuid), t) ∧
      w.store.GrowsBy snapshots t.store := by
  cases snapshots with
  | nil => exact ⟨w, rfl, fun _ _ => rfl, fun _ hm => absurd hm List.not_mem_nil⟩
  | cons first rest =>
    obtain ⟨s, himport, hgrows⟩ := Store.run_importDeployments_fresh hs h
    have hstore := World.run_onStore hw (Store.importDeployments (first :: rest))
    rw [himport] at hstore
    obtain ⟨journal, hlog⟩ := World.run_forEach_log (ε := StoreError) .info .store
      World.restoredText (first :: rest) { w with store := s }
    exact ⟨_, (run_bind_ok hstore).trans (run_bind_ok hlog), hgrows⟩

theorem run_importAll_taken (hw : w.obstacles = {}) (hs : w.store.IdsBounded)
    (h : w.store.FirstTaken (snapshots.map Snapshot.uuid) uuid) :
    (World.importDeployments snapshots).run w = (.error (.deploymentExists uuid), w) := by
  cases snapshots with
  | nil =>
    obtain ⟨before, after, hsplit, -⟩ := h
    simp at hsplit
  | cons first rest =>
    have hstore := World.run_onStore hw (Store.importDeployments (first :: rest))
    rw [Store.run_importDeployments_taken hs h] at hstore
    exact run_bind_error hstore

/-- What restoring snapshots makes of a store: deployments that were there have the snapshots that
they had, and a restored one has the snapshot that was given but for the nulls, just if each of its
values is read back from its text. Of plain values that are those that are not nested too deeply;
where one is, no snapshot can be taken. -/
structure Gains (s : Store) (snapshots : List Snapshot) (t : Store) : Prop where
  rows : ∀ uuid, uuid ∈ t.deploymentRows ↔
    uuid ∈ s.deploymentRows ∨ uuid ∈ snapshots.map Snapshot.uuid
  others : ∀ uuid ∈ s.deploymentRows,
    ((Store.exportDeployment uuid).run t).1 = ((Store.exportDeployment uuid).run s).1
  restored : ∀ snapshot ∈ snapshots,
    (Store.exportDeployment snapshot.uuid).run t = (.ok snapshot.withoutNull, t) ↔
      ∀ v ∈ snapshot.withoutNull.values, Store.Faithful v
  plain : ∀ snapshot ∈ snapshots, (∀ v ∈ snapshot.withoutNull.values, v.plain = true) →
    ((∀ v ∈ snapshot.withoutNull.values, v.depth ≤ Json.maxDepth) →
      (Store.exportDeployment snapshot.uuid).run t = (.ok snapshot.withoutNull, t)) ∧
    ((∃ v ∈ snapshot.withoutNull.values, Json.maxDepth < v.depth) →
      (Store.exportDeployment snapshot.uuid).run t = (.error Store.unreadable, t))

theorem gains_of_growsBy {s t : Store} (h : s.GrowsBy snapshots t)
    (hfresh : s.Fresh (snapshots.map Snapshot.uuid)) : Gains s snapshots t where
  rows _ := h.mem_deploymentRows_iff
  others _ hrow := h.run_exportDeployment_old fun hm => hfresh.absent _ hm hrow
  restored _ hm := h.run_exportDeployment_iff hm
  plain snapshot hm hplain := by
    refine ⟨fun hshallow => (h.run_exportDeployment_iff hm).mpr fun v hv => ?_, fun hdeep => ?_⟩
    · exact Store.decodeText_render (hplain v hv) (hshallow v hv)
    · have hfails := (((h.restored snapshot hm).exportDeployment_hinges hplain).resolve_left
        fun hclear => hclear.1 hdeep).2
      exact congrArg (·, t) hfails

/-- What comes of a backup. -/
inductive Judged (w : World ρ) (snapshots : List Snapshot) :
    Except CommandError (List String) × World ρ → Prop
  /-- The UUIDs that stand in it more than once are named in ascending order. -/
  | repeats {names : List String} (hsome : names ≠ []) (hsorted : names.Pairwise (· < ·))
      (hnames : ∀ uuid, uuid ∈ names ↔ 2 ≤ (snapshots.map Snapshot.uuid).count uuid) :
      Judged w snapshots
        (.error (.message ("Duplicate deployments in input: " ++ ", ".intercalate names)), w)
  /-- The deployments that are there cannot be listed. -/
  | unlisted {cause : StoreError} (hnodup : (snapshots.map Snapshot.uuid).Nodup)
      (hlist : Store.deploymentRecords w.store = .error cause) :
      Judged w snapshots (.error (.store cause), w)
  /-- The UUIDs that deployments have are named in the order of the backup. -/
  | clashes {names : List String} (hnodup : (snapshots.map Snapshot.uuid).Nodup)
      (hnames : names = (snapshots.map Snapshot.uuid).filter (· ∈ w.store.deploymentRows))
      (hsome : names ≠ []) :
      Judged w snapshots
        (.error (.message ("Deployments already exist: " ++ ", ".intercalate names)), w)
  /-- Everything is restored. -/
  | restored {t : World ρ} (hfresh : w.store.Fresh (snapshots.map Snapshot.uuid))
      (hrun : (World.importDeployments snapshots).run w = (.ok (snapshots.map Snapshot.uuid), t)) :
      Judged w snapshots (.ok (snapshots.map Snapshot.uuid), t)

theorem run_onStore_error {α : Type} {a : Action Store StoreError α} {e : StoreError}
    (hw : w.obstacles = {}) (h : a.run w.store = (.error e, w.store)) :
    (onStore a : Operation ρ α).run w = (.error (.store e), w) := by
  rw [onStore, run_mapError, World.run_onStore hw, h]
  rfl

/-- The deployments that are listed are those that are there. -/
theorem filter_listed {s : Store} {records : List DeploymentRecord}
    (h : Store.listDeployments.run s = (.ok records, s)) (uuids : List String) :
    uuids.filter (fun uuid => records.any fun r => r.uuid = uuid) =
      uuids.filter (· ∈ s.deploymentRows) := by
  refine List.filter_congr fun uuid _ => ?_
  rw [← ((Store.listDeployments_ends s).ok h).1]
  simp [List.any_eq, eq_comm]

theorem judged_importBackup (hw : w.obstacles = {}) (hs : w.store.IdsBounded) {text : String}
    {b : Backup} (hparse : Backup.parse? text = some b) :
    Judged w b.snapshots ((importBackup text : Operation ρ _).run w) := by
  unfold importBackup
  simp only [hparse]
  by_cases hrepeated : repeatedUuids (b.snapshots.map Snapshot.uuid) = []
  · have hnodup := repeatedUuids_eq_nil_iff.mp hrepeated
    rw [if_neg (not_not.mpr hrepeated)]
    cases hlist : Store.deploymentRecords w.store with
    | error cause =>
      have hfails : Store.listDeployments.run w.store = (.error cause, w.store) :=
        congrArg (·, w.store) hlist
      exact (run_bind_error (run_onStore_error hw hfails)).symm ▸ .unlisted hnodup hlist
    | ok records =>
      have hlists : Store.listDeployments.run w.store = (.ok records, w.store) :=
        congrArg (·, w.store) hlist
      refine (run_bind_ok (run_onStore hw hlists)).symm ▸ ?_
      simp only [filter_listed hlists]
      by_cases hclash : (b.snapshots.map Snapshot.uuid).filter (· ∈ w.store.deploymentRows) = []
      · have hfresh : w.store.Fresh (b.snapshots.map Snapshot.uuid) :=
          ⟨hnodup, fun uuid hm => by simpa using List.filter_eq_nil_iff.mp hclash uuid hm⟩
        obtain ⟨t, hrun, -⟩ := run_importAll_fresh hw hs hfresh
        rw [if_neg (not_not.mpr hclash), run_mapError, hrun]
        exact .restored hfresh hrun
      · rw [if_pos hclash]
        exact .clashes hnodup rfl hclash
  · rw [if_pos hrepeated]
    exact .repeats hrepeated (pairwise_repeatedUuids _) fun _ => mem_repeatedUuids_iff

theorem importAll_ok_iff (hw : w.obstacles = {}) (hs : w.store.IdsBounded) :
    (∃ uuids t, (World.importDeployments snapshots).run w = (.ok uuids, t)) ↔
      w.store.Fresh (snapshots.map Snapshot.uuid) := by
  constructor
  · rintro ⟨uuids, t, hrun⟩
    refine (Store.fresh_or_firstTaken _ _).resolve_right fun ⟨uuid, htaken⟩ => ?_
    cases hrun.symm.trans (run_importAll_taken hw hs htaken)
  · intro h
    obtain ⟨t, hrun, -⟩ := run_importAll_fresh hw hs h
    exact ⟨_, t, hrun⟩

theorem importAll_exact (hw : w.obstacles = {}) (hs : w.store.IdsBounded)
    (snapshots : List Snapshot) :
    (World.importDeployments snapshots).Ends w
      (fun uuids t => uuids = snapshots.map Snapshot.uuid ∧ Gains w.store snapshots t.store)
      fun e t => t = w ∧ ∃ uuid, e = .deploymentExists uuid ∧
        w.store.FirstTaken (snapshots.map Snapshot.uuid) uuid := by
  rcases Store.fresh_or_firstTaken w.store (snapshots.map Snapshot.uuid) with
    hfresh | ⟨uuid, htaken⟩
  · obtain ⟨t, hrun, hgrows⟩ := run_importAll_fresh hw hs hfresh
    exact Ends.of_ok hrun ⟨rfl, gains_of_growsBy hgrows hfresh⟩
  · exact Ends.of_error (run_importAll_taken hw hs htaken) ⟨rfl, uuid, rfl, htaken⟩

variable {ε : Type} [StoreFailure ε]

/-- Whatever calls have led to a store, snapshots are restored just if their UUIDs are distinct and
new. Then their UUIDs are returned in their order, and the store gains just these deployments;
otherwise the first UUID that is taken is named, and nothing is changed. A command on a backup
judges it alike before it restores it. -/
theorem importing_exact {calls : List (Store.Call ε)} (hw : w.obstacles = {})
    (hs : w.store = (Store.callAll calls .empty).2) :
    (∀ snapshots : List Snapshot,
      ((∃ uuids t, (World.importDeployments snapshots).run w = (.ok uuids, t)) ↔
        w.store.Fresh (snapshots.map Snapshot.uuid)) ∧
      (World.importDeployments snapshots).Ends w
        (fun uuids t => uuids = snapshots.map Snapshot.uuid ∧ Gains w.store snapshots t.store)
        fun e t => t = w ∧ ∃ uuid, e = .deploymentExists uuid ∧
          w.store.FirstTaken (snapshots.map Snapshot.uuid) uuid) ∧
    ∀ text b, Backup.parse? text = some b →
      Judged w b.snapshots ((importBackup text : Operation ρ _).run w) := by
  have hcoherent : Store.Coherent (fun _ => True) w.store := by
    rw [hs]
    exact (Store.callAll_reaches (fun _ _ _ _ _ => trivial) .empty).coherent
      (Store.coherent_of_empty rfl)
  have hbounded : w.store.IdsBounded := hcoherent.bounded
  exact ⟨fun snapshots => ⟨importAll_ok_iff hw hbounded, importAll_exact hw hbounded snapshots⟩,
    fun _ _ hparse => judged_importBackup hw hbounded hparse⟩

/-- A deployment with a null, and a resource with nothing else. -/
def spare : Snapshot :=
  ⟨"c", ⟨[("region", .null), ("size", .ofInt 3)], by decide⟩,
    ⟨[("disk", ⟨"volume", ⟨[("label", .null)], by decide⟩⟩)], by decide⟩⟩

theorem importing_exact_spare : ∃ t,
    (World.importDeployments [spare]).run furnishedWorld = (.ok ["c"], t) ∧
    (Store.exportDeployment "c").run t.store =
      (.ok ⟨"c", ⟨[("size", .ofInt 3)], by decide⟩,
        ⟨[("disk", ⟨"volume", .empty⟩)], by decide⟩⟩, t.store) ∧
    ((Store.exportDeployment "a").run t.store).1 =
      ((Store.exportDeployment "a").run furnishedWorld.store).1 := by
  have hclear : furnishedWorld.obstacles = {} := rfl
  have hsource : furnishedWorld.store = (Store.callAll furnished .empty).2 := rfl
  obtain ⟨hbatch, -⟩ := importing_exact hclear hsource
  obtain ⟨hiff, hends⟩ := hbatch [spare]
  have hrows : furnishedWorld.store.deploymentRows = ["a", "b"] := by decide
  have hfresh : furnishedWorld.store.Fresh ([spare].map Snapshot.uuid) :=
    ⟨by decide, by rw [hrows]; decide⟩
  obtain ⟨uuids, t, hrun⟩ := hiff.mpr hfresh
  obtain ⟨rfl, hgains⟩ := hends.ok hrun
  refine ⟨t, hrun, ?_, hgains.others "a" (by rw [hrows]; decide)⟩
  have hplain : ∀ v ∈ spare.withoutNull.values, v.plain = true ∧ v.depth ≤ Json.maxDepth := by
    decide
  exact (hgains.plain spare List.mem_cons_self fun v hv => (hplain v hv).1).1
    fun v hv => (hplain v hv).2

/-- A deployment with a value that is nested too deeply. -/
def layered : Snapshot :=
  ⟨"a", ⟨[("layers", Store.nested 127)], List.pairwise_singleton _ _⟩, .empty⟩

/-- It is restored, and then no snapshot can be taken of it. -/
theorem not_exported_layered : ∃ t,
    (World.importDeployments [layered]).run (World.start () {} 0) = (.ok ["a"], t) ∧
      (Store.exportDeployment "a").run t.store = (.error Store.unreadable, t.store) := by
  have hfresh : (World.start () {} 0).store.Fresh ([layered].map Snapshot.uuid) :=
    ⟨List.nodup_singleton _, fun _ _ => List.not_mem_nil⟩
  have hbounded : (World.start () {} 0).store.IdsBounded :=
    (Store.coherent_of_empty (P := fun _ => True) rfl).bounded
  obtain ⟨t, hrun, hgrows⟩ := run_importAll_fresh rfl hbounded hfresh
  have hvalues : layered.withoutNull.values = [Store.nested 127] := rfl
  refine ⟨t, hrun, ((gains_of_growsBy hgrows hfresh).plain layered List.mem_cons_self ?_).2 ?_⟩
  · rw [hvalues, List.forall_mem_singleton]
    exact Store.plain_nested 127
  · refine ⟨Store.nested 127, hvalues ▸ List.mem_cons_self, ?_⟩
    rw [Store.depth_nested]
    decide

end DesiredState.Command
