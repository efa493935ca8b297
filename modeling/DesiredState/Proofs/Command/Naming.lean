import DesiredState.Proofs.Command.Effects
import DesiredState.Proofs.Store.Frame

/-!
# Which deployment a name selects

A deployment is looked for by its UUID before it is looked for by its name, and a name is refused
only where another deployment has that name. So the name that a deployment was created with selects
it just if it is not the UUID of another one. The UUIDs that there are were drawn or imported.
-/

namespace DesiredState

open DesiredState.Action

namespace Store

variable {s : Store} {records : List DeploymentRecord}

/-- What is listed are the records of all deployments. -/
theorem mem_deploymentRecords_iff (h : s.deploymentRecords = .ok records)
    {record : DeploymentRecord} :
    record ∈ records ↔ ∃ uuid d, s.deployments.find? uuid = some d ∧
      recordOf uuid d = .ok record := by
  constructor
  · intro hm
    obtain ⟨entry, he, hrecord⟩ := exists_of_mem_mapM h hm
    exact ⟨entry.1, entry.2, KeyMap.find?_eq_some_iff.mpr he, hrecord⟩
  · rintro ⟨uuid, d, hd, hrecord⟩
    obtain ⟨found, hm, hfound⟩ := ok_of_mem_mapM h (KeyMap.find?_eq_some_iff.mp hd)
    exact Except.ok.inj (hrecord.symm.trans hfound) ▸ hm

theorem uuid_of_recordOf {uuid : String} {d : StoredDeployment} {record : DeploymentRecord}
    (h : recordOf uuid d = .ok record) : record.uuid = uuid := by
  unfold recordOf at h
  cases hname : nameOf d with
  | error e =>
    rw [hname] at h
    cases h
  | ok name =>
    rw [hname] at h
    cases h
    rfl

theorem nodup_deploymentRecords (h : s.deploymentRecords = .ok records) : records.Nodup := by
  have huuids : records.map DeploymentRecord.uuid = s.deploymentRows :=
    ((listDeployments_ends s).ok (congrArg (·, s) h : listDeployments.run s = (.ok records, s))).1
  exact .of_map _ (huuids ▸ s.nodup_deploymentRows)

/-- The only record with a key, as its UUID or as its name, is selected. -/
theorem selectDeployment_of_unique {key : String} {r : DeploymentRecord} (hnodup : records.Nodup)
    (hr : r ∈ records) (hkey : r.uuid = key ∨ r.name = some key)
    (hunique : ∀ other ∈ records, other.uuid = key ∨ other.name = some key → other = r) :
    selectDeployment records key = .ok r := by
  unfold selectDeployment
  cases hfind : records.find? fun r => r.uuid = key with
  | some found =>
    have huuid : found.uuid = key := by simpa using List.find?_some hfind
    exact congrArg Except.ok
      (hunique found (List.mem_of_find?_eq_some hfind) (Or.inl huuid))
  | none =>
    have hname : r.name = some key := hkey.resolve_left fun huuid => by
      simpa [huuid] using List.find?_eq_none.mp hfind r hr
    have hsingle : records.filter (fun r => r.name = some key) = [r] := by
      refine List.perm_singleton.mp ((List.perm_ext_iff_of_nodup (hnodup.filter _)
        (List.nodup_singleton r)).mpr fun other => ?_)
      rw [List.mem_filter, List.mem_singleton, decide_eq_true_eq]
      exact ⟨fun ho => hunique other ho.1 (Or.inr ho.2), fun ho => ho ▸ ⟨hr, hname⟩⟩
    simp only [hsingle]

end Store

namespace Command

variable {ρ : Type} {w t : World ρ} {fresh name : String}

theorem recordOf_named (uuid name : String) :
    Store.recordOf uuid ⟨nameAttributes (some name), []⟩ = .ok ⟨uuid, some name, 0⟩ := by
  have hdecode : Store.decodeText (Json.str name).render = .ok (.str name) :=
    Store.decodeText_render rfl (Nat.zero_le _)
  rw [Store.recordOf, Store.nameOf, nameAttributes, KeyMap.find?_insert_self]
  simp only [hdecode]
  rfl

/-- The deployments are listed with the new one among them. -/
theorem exists_listed {s : Store} {records : List DeploymentRecord}
    (hrecords : s.deploymentRecords = .ok records) (fresh name : String) :
    ∃ listed, (withDeployment s fresh (some name)).deploymentRecords = .ok listed := by
  have heach : ∀ entry ∈ (withDeployment s fresh (some name)).deployments.entries, ∃ record,
      Store.recordOf entry.1 entry.2 = .ok record ∧ True := by
    intro entry he
    have hfind := KeyMap.find?_eq_some_iff.mpr he
    rw [withDeployment, KeyMap.find?_insert] at hfind
    split at hfind
    · exact ⟨_, Option.some.inj hfind ▸ recordOf_named entry.1 name, trivial⟩
    · obtain ⟨record, -, hrecord⟩ :=
        ok_of_mem_mapM hrecords (KeyMap.find?_eq_some_iff.mp hfind)
      exact ⟨record, hrecord, trivial⟩
  obtain ⟨listed, hlisted, -⟩ := exists_mapM heach
  exact ⟨listed, hlisted⟩

/-- A record that is listed after the creation is the new one, or was listed before. -/
theorem mem_listed_iff {s : Store} {records listed : List DeploymentRecord}
    (hrecords : s.deploymentRecords = .ok records) (hnew : s.deployments.find? fresh = none)
    (hlisted : (withDeployment s fresh (some name)).deploymentRecords = .ok listed)
    {record : DeploymentRecord} :
    record ∈ listed ↔ record = ⟨fresh, some name, 0⟩ ∨ record ∈ records := by
  rw [Store.mem_deploymentRecords_iff hlisted, Store.mem_deploymentRecords_iff hrecords]
  simp only [withDeployment, KeyMap.find?_insert]
  constructor
  · rintro ⟨uuid, d, hd, hrecord⟩
    split at hd
    · cases hd
      rename_i huuid
      subst huuid
      exact Or.inl (Except.ok.inj ((recordOf_named _ name).symm.trans hrecord)).symm
    · exact Or.inr ⟨uuid, d, hd, hrecord⟩
  · rintro (rfl | ⟨uuid, d, hd, hrecord⟩)
    · exact ⟨fresh, _, if_pos rfl, recordOf_named fresh name⟩
    · have hne : uuid ≠ fresh := fun heq => by
        rw [heq, hnew] at hd
        cases hd
      exact ⟨uuid, d, (if_neg hne).trans hd, hrecord⟩

end Command

/-- Every deployment was there before, or has a UUID out of a list. -/
def Store.Adds (uuids : List String) (s t : Store) : Prop :=
  ∀ uuid ∈ t.deploymentRows, uuid ∈ s.deploymentRows ∨ uuid ∈ uuids

namespace Store

variable {uuids : List String}

instance : IsPreorder Store (Adds uuids) where
  refl _ _ h := Or.inl h
  trans _ _ _ h k uuid hm := (k uuid hm).elim (h uuid) Or.inr

theorem adds_insert {s : Store} {uuid : String} (h : uuid ∈ s.deploymentRows ∨ uuid ∈ uuids)
    (d : StoredDeployment) (last : Int) :
    s.Adds uuids ⟨s.deployments.insert uuid d, last⟩ := by
  intro other hm
  obtain ⟨found, hfound⟩ := mem_deploymentRows_iff.mp hm
  rw [KeyMap.find?_insert] at hfound
  split at hfound
  · rename_i heq
    exact heq ▸ h
  · exact Or.inl (mem_deploymentRows_iff.mpr ⟨found, hfound⟩)

theorem adds_map (s : Store) (f : StoredDeployment → StoredDeployment) :
    s.Adds uuids { s with deployments := s.deployments.map f } := by
  intro uuid hm
  obtain ⟨found, hfound⟩ := mem_deploymentRows_iff.mp hm
  rw [KeyMap.find?_map] at hfound
  obtain ⟨d, hd, -⟩ := Option.map_eq_some_iff.mp hfound
  exact Or.inl (mem_deploymentRows_iff.mpr ⟨d, hd⟩)

theorem Rewrites.adds {P : String → Prop} {s t : Store} (h : Rewrites P s t) :
    s.Adds uuids t := by
  induction h with
  | refl => exact refl_of _ s
  | tail _ hwrite ih =>
    refine trans_of _ ih ?_
    obtain ⟨scope, f, -, hchange⟩ := hwrite
    cases scope with
    | deployment uuid =>
      obtain ⟨d, hd, rfl⟩ := Option.map_eq_some_iff.mp hchange
      exact adds_insert (Or.inl (mem_deploymentRows_iff.mpr ⟨d, hd⟩)) _ _
    | resource i =>
      rw [changeAttributes?] at hchange
      split at hchange
      · cases hchange
        exact adds_map _ _
      · cases hchange

theorem createDeployment_adds {uuid : String} (h : uuid ∈ uuids) :
    Keeps (Adds uuids) (createDeployment uuid) := fun s => by
  unfold run createDeployment
  split
  · exact refl_of _ s
  · exact adds_insert (Or.inr h) _ _

theorem purgeDeployment_adds (uuid : String) : Keeps (Adds uuids) (purgeDeployment uuid) := by
  intro s
  unfold run purgeDeployment
  split
  · intro other hm
    obtain ⟨found, hfound⟩ := mem_deploymentRows_iff.mp hm
    rw [KeyMap.find?_erase] at hfound
    split at hfound
    · cases hfound
    · exact Or.inl (mem_deploymentRows_iff.mpr ⟨found, hfound⟩)
  · exact refl_of _ s

theorem renameResource_adds (deployment source target : String) :
    Keeps (Adds uuids) (renameResource deployment source target) := by
  intro s
  unfold run renameResource
  split
  · exact refl_of _ s
  · split
    · rename_i d _ hd
      exact adds_insert (Or.inl (mem_deploymentRows_iff.mpr ⟨d, hd⟩)) _ _
    · exact refl_of _ s

theorem restoreResource_adds (uuid : String) (entry : String × ResourceSnapshot) :
    Keeps (Adds uuids) (restoreResource uuid entry) := by
  have hinsert : Keeps (Adds uuids) (insertResource uuid entry.1 entry.2.resourceType) := by
    refine keeps_of_ends fun s => (insertResource_ends s uuid entry.1 entry.2.resourceType).mono
      (fun r t ht => ?_) fun _ t ht => ht ▸ refl_of (Adds uuids) s
    obtain ⟨d, hd, -, rfl⟩ := ht
    exact adds_insert (Or.inl (mem_deploymentRows_iff.mpr ⟨d, hd⟩)) _ _
  refine hinsert.bind fun record => ?_
  exact (replaceAttributes_keeps (P := fun _ => True) _ fun _ _ _ => trivial).mono
    fun _ _ => Rewrites.adds

/-- Restoring deployments adds no others. -/
theorem importDeployments_adds {snapshots : List Snapshot}
    (h : ∀ snapshot ∈ snapshots, snapshot.uuid ∈ uuids) :
    Keeps (Adds uuids) (importDeployments snapshots) := by
  refine ((keeps_forEach fun snapshot hs => ?_).bind fun _ => keeps_pure _).transaction
  refine (createDeployment_adds (h snapshot hs)).bind fun _ => Keeps.bind ?_ fun _ => ?_
  · exact (replaceAttributes_keeps (P := fun _ => True) _ fun _ _ _ => trivial).mono
      fun _ _ => Rewrites.adds
  · exact keeps_forEach fun entry _ => restoreResource_adds snapshot.uuid entry

end Store

namespace Command

variable {ρ : Type} {w t : World ρ} {fresh name : String} {added : List String}

/-- The UUIDs of the deployments that a command may add. -/
def Call.uuids : Call → List String
  | .createDeployment fresh _ => [fresh]
  | .importBackup text =>
    ((Backup.parse? text).map fun b => b.snapshots.map Snapshot.uuid).getD []
  | _ => []

section

variable {α : Type} {R : Store → Store → Prop} [IsPreorder Store R]

theorem onStore_keeps {a : Action Store StoreError α} (h : Keeps R a) :
    Keeps (World.Recorded R) (onStore a : Operation ρ α) :=
  (World.onStore_keeps_store h).mapError

theorem log_keeps {ε : Type} (level : LogLevel) (source : LogSource) (text : String) :
    Keeps (World.Recorded R) (World.log level source text : Action (World ρ) ε Unit) :=
  fun w => refl_of R w.store

/-- A change of records keeps what its action on the store keeps. -/
theorem change_keeps {a : Action Store StoreError Unit} (h : Keeps R a) {level : LogLevel}
    {source : LogSource} {text : String} : Keeps (World.Recorded R) (change (do
      World.onStore a
      World.log level source text : World.Change ρ Unit)) :=
  ((World.onStore_keeps_store h).bind fun _ => log_keeps level source text).mapError

omit [IsPreorder Store R] in
/-- What a removal keeps is kept when it was agreed to. -/
theorem Agreed.keeps {confirm : Confirmation} {removal : World.Change ρ Unit}
    (h : Agreed confirm removal w t) (hremoval : Keeps (World.Recorded R) removal) :
    R w.store t.store := by
  obtain ⟨question, v, u, -, -, hu, hrun⟩ := h
  have hkept : R u.store (removal.run u).2.store := hremoval u
  rwa [hrun, hu] at hkept

end

theorem createDeployment_adds (fresh : String) (name : Option String) :
    Keeps (World.Recorded (Store.Adds [fresh]))
      (createDeployment fresh name : Operation ρ String) := by
  have hcreate : Keeps (World.Recorded (Store.Adds [fresh]))
      (change (World.createDeployment fresh) : Operation ρ Unit) :=
    change_keeps (Store.createDeployment_adds List.mem_cons_self)
  have hlog : Keeps (World.Recorded (Store.Adds [fresh])) (do
      World.log .info .deployments ("Created deployment " ++ fresh)
      return fresh : Operation ρ String) := (log_keeps _ _ _).bind fun _ => keeps_pure _
  cases name with
  | none => exact hcreate.bind fun _ => hlog
  | some name =>
    have hset : Keeps (Store.Adds [fresh])
        (Store.set (.deployment fresh) Store.nameKey (.str name)) :=
      (Store.set_keeps (P := fun _ => True) _ _ fun _ => trivial).mono fun _ _ =>
        Store.Rewrites.adds
    exact (onStore_keeps (keeps_reading _)).bind fun _ => Keeps.unless <|
      hcreate.bind fun _ => (onStore_keeps hset).bind fun _ => hlog

theorem deleteDeployment_adds (key : String) (force : Bool) (confirm : Confirmation) :
    Keeps (World.Recorded (Store.Adds added))
      (deleteDeployment key force confirm : Operation ρ (Option String)) := by
  refine keeps_of_ends fun w => (deleteDeployment_ends key force confirm).mono
    (fun deleted t ht => ?_) fun _ t ht => World.recorded_of_store ht
  rcases ht with ⟨-, hsame⟩ | ⟨uuid, -, hdeletes⟩
  · exact World.recorded_of_store hsame
  · exact hdeletes.agreed.keeps
      ((World.onStore_keeps_store (Store.purgeDeployment_adds uuid)).bind fun _ => log_keeps _ _ _)

theorem renameResource_adds (key source target : String) :
    Keeps (World.Recorded (Store.Adds added))
      (renameResource key source target : Operation ρ Unit) :=
  Keeps.unless <| (onStore_keeps (keeps_reading _)).bind fun record =>
    change_keeps (Store.renameResource_adds record.uuid source target)

theorem purgeResource_adds (key name : String) (confirm : Confirmation) :
    Keeps (World.Recorded (Store.Adds added))
      (purgeResource key name confirm : Operation ρ Bool) := by
  refine keeps_of_ends fun w => (purgeResource_ends key name confirm).mono
    (fun purged t ht => ?_) fun _ t ht => World.recorded_of_store ht
  rcases ht with ⟨-, hsame⟩ | ⟨-, r, hforgets⟩
  · exact World.recorded_of_store hsame
  · have hpurge : Keeps (Store.Adds added) (Store.purgeResource r.id) :=
      keeps_update fun s => Store.adds_map s _
    exact hforgets.agreed.keeps ((log_keeps _ _ _).bind fun _ =>
      (World.onStore_keeps_store hpurge).bind fun _ => log_keeps _ _ _)

theorem importDeployments_adds {snapshots : List Snapshot}
    (h : ∀ snapshot ∈ snapshots, snapshot.uuid ∈ added) :
    Keeps (World.Recorded (Store.Adds added))
      (World.importDeployments snapshots : World.Change ρ (List String)) := by
  unfold World.importDeployments
  split
  · exact keeps_pure _
  · refine (World.onStore_keeps_store (Store.importDeployments_adds h)).bind fun _ => ?_
    exact (keeps_forEach fun _ _ => log_keeps _ _ _).bind fun _ => keeps_pure _

theorem importBackup_adds (text : String) :
    Keeps (World.Recorded (Store.Adds (Call.importBackup text).uuids))
      (importBackup text : Operation ρ (List String)) := by
  unfold importBackup
  simp only [Call.uuids]
  cases Backup.parse? text with
  | none => exact keeps_fail _
  | some backup =>
    have hrestore : Keeps (World.Recorded (Store.Adds (backup.snapshots.map Snapshot.uuid)))
        (World.importDeployments backup.snapshots : World.Change ρ (List String)) :=
      importDeployments_adds fun snapshot hs => List.mem_map_of_mem hs
    -- nothing is restored if a UUID is repeated, or is that of a deployment
    exact Keeps.unless <| (onStore_keeps (keeps_reading _)).bind fun _ => hrestore.mapError.unless

/-- A command adds no deployments but its own. -/
theorem Call.perform_adds (call : Call) :
    Keeps (World.Recorded (Store.Adds call.uuids)) (call.perform : Operation ρ Answer) := by
  cases call with
  | createDeployment fresh name =>
    exact (createDeployment_adds fresh name).bind fun _ => keeps_pure _
  | deleteDeployment key force confirm =>
    exact (deleteDeployment_adds key force confirm).bind fun _ => keeps_pure _
  | renameResource key source target =>
    exact (renameResource_adds key source target).bind fun _ => keeps_pure _
  | purgeResource key name confirm =>
    exact (purgeResource_adds key name confirm).bind fun _ => keeps_pure _
  | importBackup text => exact (importBackup_adds text).bind fun _ => keeps_pure _

/-- In a run every deployment was there at the beginning, or has a UUID that a command added. -/
theorem callAll_adds (calls : List Call) (w : World ρ) :
    w.store.Adds (calls.flatMap Call.uuids) (callAll calls w).2.store := by
  induction calls generalizing w with
  | nil => exact fun _ h => Or.inl h
  | cons call rest ih =>
    intro uuid hm
    rw [List.flatMap_cons, List.mem_append]
    rcases ih (call.perform.run w).2 uuid hm with hm | hm
    · exact (call.perform_adds w uuid hm).imp id Or.inl
    · exact Or.inr (Or.inr hm)

/-- The name of a new deployment selects it just if no other deployment has it as its UUID. -/
theorem name_selects_iff {uuid : String}
    (h : (createDeployment fresh (some name)).run w = (.ok uuid, t)) :
    (∃ record, (Store.findDeployment name).run t.store = (.ok record, t.store) ∧
      record.uuid = uuid) ↔ name ∉ w.store.deploymentRows := by
  obtain ⟨rfl, hnew, hnames, hstore⟩ := (createDeployment_ends fresh (some name)).ok h
  obtain ⟨records, hrecords, hfree⟩ := hnames name rfl
  obtain ⟨listed, hlisted⟩ := exists_listed hrecords uuid name
  have hmem : ∀ {record}, record ∈ listed ↔ record = ⟨uuid, some name, 0⟩ ∨ record ∈ records :=
    mem_listed_iff hrecords hnew hlisted
  have hfind : (Store.findDeployment name).run t.store =
      (Store.selectDeployment listed name, t.store) := by
    rw [Store.findDeployment, run_reading, hstore, hlisted]
    rfl
  rw [hfind]
  constructor
  · -- a deployment with that UUID would be found first
    rintro ⟨record, hselect, huuid⟩ hm
    obtain ⟨d, hd⟩ := Store.mem_deploymentRows_iff.mp hm
    obtain ⟨other, hother, hrecord⟩ :=
      ok_of_mem_mapM hrecords (KeyMap.find?_eq_some_iff.mp hd)
    have hlists : name ∈ listed.map DeploymentRecord.uuid :=
      List.mem_map.mpr ⟨other, hmem.mpr (Or.inr hother), Store.uuid_of_recordOf hrecord⟩
    obtain ⟨found, hfound, hname⟩ := Store.exists_selectDeployment hlists
    obtain rfl : found = record := Except.ok.inj (hfound.symm.trans (congrArg Prod.fst hselect))
    rw [← hname, huuid, hnew] at hd
    cases hd
  · intro hm
    refine ⟨⟨uuid, some name, 0⟩, congrArg (·, t.store) ?_, rfl⟩
    refine Store.selectDeployment_of_unique (Store.nodup_deploymentRecords hlisted)
      (hmem.mpr (Or.inl rfl)) (Or.inr rfl) fun other ho hkey => ?_
    refine (hmem.mp ho).resolve_right fun hold => ?_
    obtain ⟨uuid, d, hd, hrecord⟩ := (Store.mem_deploymentRecords_iff hrecords).mp hold
    rcases hkey with huuid | hname
    · rw [Store.uuid_of_recordOf hrecord] at huuid
      exact hm (Store.mem_deploymentRows_iff.mpr ⟨d, huuid ▸ hd⟩)
    · exact hfree other hold hname

/-- In every run the name of a new deployment selects it just if no other deployment has it as its
UUID. One that has was there at the beginning, or was created or imported with it. -/
theorem created_name_selects_iff {calls : List Call} {start t : World ρ} {fresh name uuid : String}
    (h : (createDeployment fresh (some name)).run (callAll calls start).2 = (.ok uuid, t)) :
    ((∃ record, (Store.findDeployment name).run t.store = (.ok record, t.store) ∧
        record.uuid = uuid) ↔
      name ∉ (callAll calls start).2.store.deploymentRows) ∧
    (name ∈ (callAll calls start).2.store.deploymentRows →
      name ∈ start.store.deploymentRows ∨ name ∈ calls.flatMap Call.uuids) :=
  ⟨name_selects_iff h, callAll_adds calls start name⟩

/-- A backup of a deployment whose UUID is a word. -/
def production : List Call := [.importBackup "\x7b\"uuid\":\"production\"\x7d"]

/-- A deployment gets that word as its name. -/
theorem exists_run_production : ∃ t : World Unit,
    (createDeployment "fresh" (some "production")).run
      (callAll production (World.start () {} 0)).2 = (.ok "fresh", t) := by
  have houtcome : ((createDeployment "fresh" (some "production")).run
      (callAll production (World.start () {} 0)).2).1 = .ok "fresh" := by
    decide +kernel
  exact ⟨_, by rw [← houtcome]⟩

theorem mem_rows_production :
    "production" ∈ (callAll production (World.start () {} 0)).2.store.deploymentRows := by
  decide +kernel

theorem created_name_selects_iff_production : ∃ t : World Unit,
    (createDeployment "fresh" (some "production")).run
        (callAll production (World.start () {} 0)).2 = (.ok "fresh", t) ∧
      "production" ∈ production.flatMap Call.uuids ∧
      ¬ ∃ record, (Store.findDeployment "production").run t.store = (.ok record, t.store) ∧
        record.uuid = "fresh" := by
  obtain ⟨t, ht⟩ := exists_run_production
  obtain ⟨hiff, horigin⟩ := created_name_selects_iff ht
  have hadded := (horigin mem_rows_production).resolve_left List.not_mem_nil
  exact ⟨t, ht, hadded, fun hselects => hiff.mp hselects mem_rows_production⟩

/-- It is the restored deployment that the name of the new one selects. -/
theorem not_created_name_selects :
    ¬ ∀ (calls : List Call) (fresh name uuid : String) (t : World Unit),
      (createDeployment fresh (some name)).run (callAll calls (World.start () {} 0)).2 =
        (.ok uuid, t) →
      ∃ record, (Store.findDeployment name).run t.store = (.ok record, t.store) ∧
        record.uuid = uuid := by
  intro h
  obtain ⟨t, ht⟩ := exists_run_production
  exact (name_selects_iff ht).mp (h production "fresh" "production" "fresh" t ht)
    mem_rows_production

end Command

end DesiredState
