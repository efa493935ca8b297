import DesiredState.Command.Backups
import DesiredState.Proofs.Store.Restore
import DesiredState.Proofs.World

/-!
# Backups of whole stores

A backup of everything, or of one deployment, is read back as what it is, and restores exactly the
deployments that it was taken of.
-/

namespace DesiredState.Command

open DesiredState.Action

variable {ρ : Type} {w : World ρ}

/-- What an action on the store returns without a change, a command on it returns. -/
theorem run_onStore {α : Type} {a : Action Store StoreError α} {x : α} {t : Store}
    (hw : w.obstacles = {}) (h : a.run w.store = (.ok x, t)) :
    (onStore a : Operation ρ α).run w = (.ok x, { w with store := t }) := by
  rw [onStore, run_mapError, World.run_onStore hw, h]
  rfl

theorem run_exportEach {snapshots : List Snapshot} (hw : w.obstacles = {})
    (h : w.store.Holds snapshots) {records : List DeploymentRecord}
    {taken : List Snapshot} (htaken : ∀ snapshot ∈ taken, snapshot ∈ snapshots)
    (hrecords : records.map DeploymentRecord.uuid = taken.map Snapshot.uuid) :
    (exportEach records : Operation ρ _).run w = (.ok taken, w) := by
  induction taken generalizing records with
  | nil =>
    rw [List.map_eq_nil_iff.mp hrecords]
    rfl
  | cons snapshot taken ih =>
    obtain ⟨r, rest, rfl, hr, hrest⟩ := List.map_eq_cons_iff.mp hrecords
    have hfirst := run_onStore hw (h.run_exportDeployment (htaken snapshot List.mem_cons_self))
    rw [← hr] at hfirst
    have hothers := ih (fun other ho => htaken other (List.mem_cons_of_mem _ ho)) hrest
    exact (run_bind_ok hfirst).trans (run_bind_ok hothers)

/-- All snapshots are taken, in the order of their UUIDs. -/
theorem run_exportBackup_all {snapshots : List Snapshot} (hw : w.obstacles = {})
    (h : w.store.Holds snapshots) :
    (exportBackup none : Operation ρ _).run w = (.ok (.many snapshots), w) := by
  obtain ⟨records, hlist, huuids⟩ := h.run_listDeployments
  have hrecords := run_onStore hw hlist
  exact (run_bind_ok hrecords).trans
    (run_bind_ok (run_exportEach hw h (fun _ hs => hs) huuids))

/-- The snapshot of one deployment is taken by its UUID. -/
theorem run_exportBackup_one {snapshots : List Snapshot} (hw : w.obstacles = {})
    (h : w.store.Holds snapshots) {snapshot : Snapshot} (hm : snapshot ∈ snapshots) :
    (exportBackup (some snapshot.uuid) : Operation ρ _).run w = (.ok (.one snapshot), w) := by
  obtain ⟨records, hlist, huuids⟩ := h.run_listDeployments
  obtain ⟨record, hselect, huuid⟩ := Store.exists_selectDeployment (huuids ▸ List.mem_map_of_mem hm)
  have hfind : (Store.findDeployment snapshot.uuid).run w.store = (.ok record, w.store) := by
    have hrecords : Store.deploymentRecords w.store = .ok records := congrArg Prod.fst hlist
    rw [Store.findDeployment, run_reading, hrecords]
    exact congrArg (·, w.store) hselect
  have hexport := run_onStore hw (h.run_exportDeployment hm)
  rw [← huuid] at hexport
  exact (run_bind_ok (run_onStore hw hfind)).trans (run_bind_ok hexport)

/-- The UUIDs seen so far, and those that were seen again. -/
def seeUuid (state : List String × List String) (uuid : String) : List String × List String :=
  if state.1.contains uuid then (state.1, uuid :: state.2) else (uuid :: state.1, state.2)

theorem mem_foldl_seeUuid (uuids : List String) :
    (∀ uuid, uuid ∈ (uuids.foldl seeUuid ([], [])).1 ↔ uuid ∈ uuids) ∧
      ∀ uuid, uuid ∈ (uuids.foldl seeUuid ([], [])).2 ↔ 2 ≤ uuids.count uuid := by
  induction uuids using List.reverseRecOn with
  | nil => simp
  | append_singleton uuids last ih =>
    obtain ⟨hseen, hagain⟩ := ih
    have hcount : ∀ uuid, (uuids ++ [last]).count uuid =
        uuids.count uuid + if last = uuid then 1 else 0 := fun uuid => by
      rw [List.count_append, List.count_singleton]
      simp only [beq_iff_eq]
    rw [List.foldl_append, List.foldl_cons, List.foldl_nil, seeUuid]
    by_cases hlast : last ∈ uuids
    · have hpos := List.count_pos_iff.mpr hlast
      rw [if_pos (by simpa using (hseen last).mpr hlast)]
      refine ⟨fun uuid => ?_, fun uuid => ?_⟩
      · rw [hseen, List.mem_append, List.mem_singleton]
        exact ⟨Or.inl, fun h => h.elim id fun he => he ▸ hlast⟩
      · rw [List.mem_cons, hagain, hcount]
        split <;> grind
    · have hzero := List.count_eq_zero.mpr hlast
      rw [if_neg (by simpa using mt (hseen last).mp hlast)]
      refine ⟨fun uuid => ?_, fun uuid => ?_⟩
      · rw [List.mem_cons, hseen, List.mem_append, List.mem_singleton, or_comm]
      · rw [hagain, hcount]
        split <;> grind

/-- Those UUIDs are repeated that stand in the list more than once. -/
theorem mem_repeatedUuids_iff {uuids : List String} {uuid : String} :
    uuid ∈ repeatedUuids uuids ↔ 2 ≤ uuids.count uuid := by
  rw [← (mem_foldl_seeUuid uuids).2]
  change uuid ∈ KeyMap.keys (KeyMap.ofList _) ↔ _
  rw [← KeyMap.contains_iff, KeyMap.contains_ofList, List.map_map]
  exact iff_of_eq (congrArg (uuid ∈ ·) (List.map_id _))

theorem pairwise_repeatedUuids (uuids : List String) :
    (repeatedUuids uuids).Pairwise (· < ·) := KeyMap.pairwise_keys _

/-- Distinct UUIDs have no repetitions among them. -/
theorem repeatedUuids_eq_nil_iff {uuids : List String} :
    repeatedUuids uuids = [] ↔ uuids.Nodup := by
  rw [List.eq_nil_iff_forall_not_mem, List.nodup_iff_count_le_one]
  exact forall_congr' fun uuid => by rw [mem_repeatedUuids_iff]; omega

/-- Restoring snapshots outside a command is restoring them in the store and telling the log. -/
theorem run_importAll {snapshots : List Snapshot} (hw : w.obstacles = {})
    (hs : w.store.deployments = .empty) (h : ∀ snapshot ∈ snapshots, snapshot.Portable)
    (hsorted : snapshots.Pairwise fun x y => x.uuid < y.uuid) :
    ∃ t, (World.importDeployments snapshots).run w = (.ok (snapshots.map Snapshot.uuid), t) ∧
      t.obstacles = {} ∧ t.store.Holds snapshots ∧ t.store.ConsistsOf snapshots := by
  cases snapshots with
  | nil =>
    have hnone := Store.holds_nil hs
    exact ⟨w, rfl, hw, hnone, hnone.consistsOf (Store.coherent_of_empty (P := fun _ => True) hs)⟩
  | cons first rest =>
    obtain ⟨s, himport, hholds⟩ := Store.run_importDeployments hs h hsorted
    have hstore := World.run_onStore hw (Store.importDeployments (first :: rest))
    rw [himport] at hstore
    obtain ⟨journal, hlog⟩ := World.run_forEach_log (ε := StoreError) .info .store
      World.restoredText (first :: rest) { w with store := s }
    exact ⟨_, (run_bind_ok hstore).trans (run_bind_ok hlog), hw, hholds⟩

/-- A text of a portable backup is restored in a store without deployments, and leaves nothing but
what is in the backup. -/
theorem run_importBackup {b : Backup} (hw : w.obstacles = {}) (hs : w.store.deployments = .empty)
    (h : b.Portable) (hsorted : b.snapshots.Pairwise fun x y => x.uuid < y.uuid) {text : String}
    (ht : text ∈ b.texts) :
    ∃ t, (importBackup text : Operation ρ _).run w = (.ok (b.snapshots.map Snapshot.uuid), t) ∧
      t.obstacles = {} ∧ t.store.Holds b.snapshots ∧ t.store.ConsistsOf b.snapshots := by
  have hparse := Backup.parse?_of_mem_texts h ht
  have hnodup : (b.snapshots.map Snapshot.uuid).Nodup :=
    List.pairwise_map.mpr (hsorted.imp fun hlt heq => by rw [heq] at hlt; exact Std.lt_irrefl hlt)
  have hlist : Store.listDeployments.run w.store = (.ok [], w.store) := by
    rw [Store.listDeployments, run_reading, Store.deploymentRecords, hs]
    rfl
  have hrecords := run_onStore (ρ := ρ) hw hlist
  obtain ⟨t, hrun, ht⟩ := run_importAll hw hs h hsorted
  refine ⟨t, ?_, ht⟩
  have hclashes : (b.snapshots.map Snapshot.uuid).filter (fun uuid =>
      ([] : List DeploymentRecord).any fun r => r.uuid = uuid) = [] :=
    List.filter_eq_nil_iff.mpr fun _ _ => by simp
  unfold importBackup
  simp only [hparse, repeatedUuids_eq_nil_iff.mpr hnodup]
  refine (run_bind_ok hrecords).trans ?_
  simp only [hclashes]
  rw [if_neg (by simp), run_mapError, hrun]
  rfl

/-- A portable backup that is restored in a store without deployments is taken of it again. -/
theorem importBackup_then_export {b : Backup} (hw : w.obstacles = {})
    (hs : w.store.deployments = .empty) (h : b.Portable)
    (hsorted : b.snapshots.Pairwise fun x y => x.uuid < y.uuid) {text : String}
    (ht : text ∈ b.texts) :
    ∃ t, (importBackup text : Operation ρ _).run w = (.ok (b.snapshots.map Snapshot.uuid), t) ∧
      t.store.ConsistsOf b.snapshots ∧
      (exportBackup none : Operation ρ _).run t = (.ok (.many b.snapshots), t) := by
  obtain ⟨t, hrun, hclear, hholds, hconsists⟩ := run_importBackup hw hs h hsorted ht
  exact ⟨t, hrun, hconsists, run_exportBackup_all hclear hholds⟩

variable {ε : Type} [StoreFailure ε]

/-- Whatever calls have led to a store, with portable values: a backup of everything is a list with
each deployment once, as it is in the store, in the order of their UUIDs, and a backup of one
deployment is that one. Their texts are read as what was written, and restored in a store without
deployments they leave just these deployments, of which the same backup is taken again. -/
theorem backup_round_trip {calls : List (Store.Call ε)}
    (hvalues : ∀ call ∈ calls, ∀ v ∈ call.values, v.plain = true ∧ v.depth ≤ 122)
    {source target : World ρ} (hsource : source.store = (Store.callAll calls .empty).2)
    (htarget : target.store.deployments = .empty) (hs : source.obstacles = {})
    (ht : target.obstacles = {}) :
    ∃ snapshots, source.store.ConsistsOf snapshots ∧
      (snapshots.map Snapshot.uuid).Pairwise (· < ·) ∧
      (exportBackup none : Operation ρ _).run source = (.ok (.many snapshots), source) ∧
      (∀ text ∈ (Backup.many snapshots).texts, Backup.parse? text = some (.many snapshots) ∧
        ∃ t, (importBackup text : Operation ρ _).run target =
            (.ok (snapshots.map Snapshot.uuid), t) ∧
          t.store.ConsistsOf snapshots ∧
          (exportBackup none : Operation ρ _).run t = (.ok (.many snapshots), t)) ∧
      ∀ snapshot ∈ snapshots,
        (exportBackup (some snapshot.uuid) : Operation ρ _).run source =
          (.ok (.one snapshot), source) ∧
        ∀ text ∈ (Backup.one snapshot).texts, Backup.parse? text = some (.one snapshot) ∧
          ∃ t, (importBackup text : Operation ρ _).run target = (.ok [snapshot.uuid], t) ∧
            t.store.ConsistsOf [snapshot] ∧
            (exportBackup none : Operation ρ _).run t = (.ok (.many [snapshot]), t) := by
  have hpermits : ∀ call ∈ calls, ∀ v ∈ call.values, Store.Permits Store.Told v :=
    fun call hcall v hv hpresent => by
      obtain ⟨hplain, hdepth⟩ := hvalues call hcall v hv
      exact ⟨v, ⟨hplain, hdepth, hpresent⟩, rfl⟩
  have hcoherent := (Store.callAll_reaches hpermits .empty).coherent (Store.coherent_of_empty rfl)
  rw [← hsource] at hcoherent
  obtain ⟨snapshots, hholds, hportable⟩ := Store.exists_holds hcoherent.texts
  have hrows : (snapshots.map Snapshot.uuid).Pairwise (· < ·) :=
    hholds.uuids ▸ source.store.pairwise_deploymentRows
  refine ⟨snapshots, hholds.consistsOf hcoherent, hrows, run_exportBackup_all hs hholds,
    fun text htext => ?_, fun snapshot hm => ⟨run_exportBackup_one hs hholds hm,
    fun text htext => ?_⟩⟩
  · have hmany : (Backup.many snapshots).Portable := hportable
    exact ⟨Backup.parse?_of_mem_texts hmany htext,
      importBackup_then_export ht htarget hmany (List.pairwise_map.mp hrows) htext⟩
  · have hone : (Backup.one snapshot).Portable := fun s hmem =>
      List.mem_singleton.mp hmem ▸ hportable snapshot hm
    exact ⟨Backup.parse?_of_mem_texts hone htext,
      importBackup_then_export ht htarget hone (List.pairwise_singleton _ _) htext⟩

/-- Two deployments, one of them with a name, resources and nested attributes. -/
def furnished : List (Store.Call StoreError) :=
  [.createDeployment "b", .createDeployment "a",
    .attributes (.alone (.deployment "a") (.set "name" (.str "\"first\"\n"))),
    .declareResource "a" "web" "server", .declareResource "a" "disk" "volume",
    .attributes (.transaction [(.resource 1, .set "ports" (.obj [("in", .arr [.ofInt 80]),
      ("out", .arr [])])), (.resource 2, .set "shift" (.ofInt (-1)))] none)]

def furnishedWorld : World Unit :=
  { World.start () {} 0 with store := (Store.callAll furnished .empty).2 }

theorem backup_round_trip_furnished : ∃ snapshots,
    (exportBackup none).run furnishedWorld = (.ok (.many snapshots), furnishedWorld) ∧
    ∀ text ∈ (Backup.many snapshots).texts, ∃ t,
      (importBackup text).run (World.start () {} 0) = (.ok ["a", "b"], t) ∧
      t.store.ConsistsOf snapshots ∧
      (exportBackup none).run t = (.ok (.many snapshots), t) := by
  have hvalues : ∀ call ∈ furnished, ∀ v ∈ call.values, v.plain = true ∧ v.depth ≤ 122 := by decide
  have hsource : furnishedWorld.store = (Store.callAll furnished .empty).2 := rfl
  have htarget : (World.start () {} 0).store.deployments = .empty := rfl
  obtain ⟨snapshots, hconsists, -, hexport, himport, -⟩ :=
    backup_round_trip hvalues hsource htarget rfl rfl
  have hrows : furnishedWorld.store.deploymentRows = ["a", "b"] := by decide
  refine ⟨snapshots, hexport, fun text htext => ?_⟩
  obtain ⟨-, t, hrun, hrestored, hagain⟩ := himport text htext
  exact ⟨t, by rw [hrun, ← hconsists.uuids, hrows], hrestored, hagain⟩

end DesiredState.Command
