import DesiredState.Proofs.Store.Refinement
import DesiredState.Proofs.Store.Rows

/-!
# What is restored is what was taken

A snapshot that is restored leaves a deployment of which the same snapshot is taken again, every
store that calls can lead to has a snapshot of each of its deployments, and these snapshots say what
is read from the store.
-/

namespace DesiredState.Store

open DesiredState.Action Relation

variable {P : String → Prop} {s t : Store} {scope : Scope}

theorem changeResource_changeResource (d : StoredDeployment) (i : Int)
    (f g : KeyMap String → KeyMap String) :
    (d.changeResource i fun r => { r with attributes := f r.attributes }).changeResource i
        (fun r => { r with attributes := g r.attributes }) =
      d.changeResource i fun r => { r with attributes := g (f r.attributes) } := by
  simp only [StoredDeployment.changeResource, List.map_map, StoredDeployment.mk.injEq, true_and]
  refine List.map_congr_left fun r _ => ?_
  by_cases hr : r.id = i <;> simp [hr]

/-- Changing twice is changing once by both. -/
theorem changeAttributes?_comp {f : KeyMap String → KeyMap String}
    (h : s.changeAttributes? scope f = some t) (g : KeyMap String → KeyMap String) :
    t.changeAttributes? scope g = s.changeAttributes? scope fun m => g (f m) := by
  cases scope with
  | deployment uuid =>
    obtain ⟨d, hd, rfl⟩ := Option.map_eq_some_iff.mp h
    simp [changeAttributes?, hd, KeyMap.insert_insert]
  | resource i =>
    rw [changeAttributes?] at h
    split at h
    · rename_i hr
      cases h
      have hid : ∀ r : StoredResource, ({ r with attributes := f r.attributes }).id = r.id :=
        fun _ => rfl
      rw [changeAttributes?, resourceById?_changeResource hid, Option.isSome_map, if_pos hr,
        changeAttributes?, if_pos hr, KeyMap.map_map]
      simp only [changeResource_changeResource]
    · cases h

/-- The texts of an owner after a value was set. -/
def recordText (texts : KeyMap String) (key : String) (v : Json) : KeyMap String :=
  if v.isNull then texts.erase key else texts.insert key v.render

theorem recordText_map (values : KeyMap Json) (key : String) (v : Json) :
    recordText (values.map Json.render) key v = (record values key v).map Json.render := by
  unfold recordText record
  split
  · exact (KeyMap.map_erase ..).symm
  · exact (KeyMap.map_insert ..).symm

/-- The texts of an owner after all values of a map were set. -/
theorem foldl_recordText_entries (values : KeyMap Json) :
    values.entries.foldl (fun m entry => recordText m entry.1 entry.2) .empty =
      values.withoutNull.map Json.render := by
  have hfold : ∀ (entries : List (String × Json)) (m : KeyMap Json),
      entries.foldl (fun m entry => recordText m entry.1 entry.2) (m.map Json.render) =
        (entries.foldl (fun m entry => record m entry.1 entry.2) m).map Json.render := by
    intro entries
    induction entries with
    | nil => exact fun _ => rfl
    | cons entry rest ih =>
      intro m
      rw [List.foldl_cons, List.foldl_cons, recordText_map, ih]
  exact (hfold values.entries .empty).trans (congrArg _ (foldl_record_entries values))

theorem run_set_of_change {key : String} {v : Json}
    (h : s.changeAttributes? scope (fun m => recordText m key v) = some t) :
    (set scope key v).run s = (.ok (), t) := by
  unfold set
  unfold recordText at h
  cases hv : v.isNull with
  | true =>
    simp only [hv, if_true] at h ⊢
    rw [delete, run_update, h]
    rfl
  | false =>
    simp only [hv, Bool.false_eq_true, if_false] at h ⊢
    unfold run put
    rw [h]

/-- Setting values changes one text after the other. -/
theorem run_setEach (values : List (String × Json)) {texts : KeyMap String}
    (h : s.attributesOf? scope = some texts) {f : KeyMap String → KeyMap String}
    (hf : s.changeAttributes? scope f = some t) :
    ∃ u, s.changeAttributes? scope (fun m =>
        values.foldl (fun m entry => recordText m entry.1 entry.2) (f m)) = some u ∧
      (setEach scope values).run t = (.ok (), u) := by
  induction values generalizing f t with
  | nil => exact ⟨t, hf, rfl⟩
  | cons entry rest ih =>
    obtain ⟨k, v⟩ := entry
    obtain ⟨next, hnext, -⟩ := changeAttributes?_some h fun m => recordText (f m) k v
    have hset : (set scope k v).run t = (.ok (), next) :=
      run_set_of_change ((changeAttributes?_comp hf fun m => recordText m k v).trans hnext)
    obtain ⟨u, hu, hrest⟩ := ih hnext
    exact ⟨u, hu, (run_bind_ok hset).trans hrest⟩

/-- Replacing the attributes of an owner leaves the texts of the values that are not null. -/
theorem run_replaceAttributes (values : KeyMap Json) {texts : KeyMap String}
    (h : s.attributesOf? scope = some texts) :
    ∃ u, s.changeAttributes? scope (fun _ => values.withoutNull.map Json.render) = some u ∧
      (replaceAttributes scope values).run s = (.ok (), u) := by
  obtain ⟨cleared, hcleared, -⟩ := changeAttributes?_some h fun _ => .empty
  have hclear : (clear scope).run s = (.ok (), cleared) := by
    rw [clear, run_update, hcleared]
    rfl
  obtain ⟨u, hu, hrun⟩ := run_setEach values.entries h hcleared
  rw [foldl_recordText_entries] at hu
  exact ⟨u, hu, (run_bind_ok hclear).trans hrun⟩

/-- No id is above the last one that was given. -/
def IdsBounded (s : Store) : Prop := ∀ {deployment i}, i ∈ s.idsOf deployment → i ≤ s.lastId

theorem IdsBounded.fresh (h : s.IdsBounded) (deployment : String) :
    s.lastId + 1 ∉ s.idsOf deployment := fun hi => by
  have := h hi
  omega

theorem IdsBounded.addResource (h : s.IdsBounded) {uuid : String} {d : StoredDeployment}
    (hd : s.deployments.find? uuid = some d) {r : StoredResource} (hr : r.id = s.lastId + 1) :
    (s.addResource uuid d r).IdsBounded := by
  intro deployment i hi
  have hlast : (s.addResource uuid d r).lastId = s.lastId + 1 := hr
  rw [hlast]
  rw [idsOf, Store.addResource, resourcesOf_insert] at hi
  split at hi
  · rw [List.map_append] at hi
    rcases List.mem_append.mp hi with hi | hi
    · rw [← resourcesOf_of_find hd] at hi
      have := h hi
      omega
    · have := List.mem_singleton.mp hi
      omega
  · have := h hi
    omega

/-- Changing the attributes of a resource that was added last is adding it with others. -/
theorem changeAttributes?_addResource {uuid : String} {d : StoredDeployment}
    (hd : s.deployments.find? uuid = some d) {r : StoredResource}
    (hr : ∀ deployment, r.id ∉ s.idsOf deployment) (f : KeyMap String → KeyMap String) :
    (s.addResource uuid d r).changeAttributes? (.resource r.id) f =
      some (s.addResource uuid d { r with attributes := f r.attributes }) := by
  have hothers : ∀ {other found}, s.deployments.find? other = some found →
      found.resources.map (fun old => if old.id = r.id then
        { old with attributes := f old.attributes } else old) = found.resources := by
    intro other found hfound
    refine (List.map_congr_left fun old hold => ?_).trans (List.map_id _)
    have hmem : old.id ∈ s.idsOf other :=
      List.mem_map_of_mem ((resourcesOf_of_find hfound).symm ▸ hold)
    have hne : old.id ≠ r.id := fun he => hr other (he ▸ hmem)
    simp [hne]
  have hsome : ((s.addResource uuid d r).resourceById? r.id).isSome := by
    rw [resourceById?_addResource hd (resourceById?_eq_none hr), if_pos rfl]
    rfl
  rw [changeAttributes?, if_pos hsome]
  refine congrArg some (congrArg (Store.mk · r.id) (KeyMap.ext fun other => ?_))
  simp only [addResource, KeyMap.find?_map, KeyMap.find?_insert]
  split
  · simp [StoredDeployment.changeResource, hothers hd]
  · cases hfound : s.deployments.find? other with
    | none => rfl
    | some found => simp [StoredDeployment.changeResource, hothers hfound]

/-- The resource that is stored for a snapshot, but for its id. -/
def Restored (entry : String × ResourceSnapshot) (r : StoredResource) : Prop :=
  r.name = entry.1 ∧ r.resourceType = entry.2.resourceType ∧
    r.attributes = entry.2.attributes.map Json.render

theorem run_restoreResource {uuid : String} {d : StoredDeployment}
    (hd : s.deployments.find? uuid = some d) (hs : s.IdsBounded)
    (entry : String × ResourceSnapshot) :
    ∃ r, Restored (entry.1, entry.2.withoutNull) r ∧ r.id = s.lastId + 1 ∧
      (restoreResource uuid entry).run s = (.ok (), s.addResource uuid d r) := by
  let bare : StoredResource := ⟨s.lastId + 1, entry.1, entry.2.resourceType, .empty⟩
  have hinsert : (insertResource uuid entry.1 entry.2.resourceType).run s =
      (.ok (bare.record uuid), s.addResource uuid d bare) := by
    unfold run insertResource
    simp only [hd]
    rfl
  have hpresent : (s.addResource uuid d bare).attributesOf? (.resource bare.id) = some .empty := by
    rw [attributesOf?_addResource hd (resourceById?_eq_none hs.fresh), if_pos rfl]
  obtain ⟨u, hu, hrun⟩ := run_replaceAttributes entry.2.attributes hpresent
  rw [changeAttributes?_addResource hd hs.fresh] at hu
  exact ⟨{ bare with attributes := entry.2.attributes.withoutNull.map Json.render },
    ⟨rfl, rfl, rfl⟩, rfl,
    (run_bind_ok hinsert).trans (hrun.trans (by rw [Option.some.inj hu]))⟩

/-- Resources are restored behind those that are there. -/
theorem run_restoreResources {uuid : String} {d : StoredDeployment}
    (hd : s.deployments.find? uuid = some d) (hs : s.IdsBounded)
    (entries : List (String × ResourceSnapshot)) :
    ∃ resources t, (forEach (restoreResource uuid) entries).run s = (.ok (), t) ∧
      t.IdsBounded ∧
      List.Forall₂ (fun entry => Restored (entry.1, entry.2.withoutNull)) entries resources ∧
      t.deployments =
        s.deployments.insert uuid { d with resources := d.resources ++ resources } := by
  induction entries generalizing s d with
  | nil => exact ⟨[], s, rfl, hs, .nil, by rw [List.append_nil, KeyMap.insert_of_find? hd]⟩
  | cons entry rest ih =>
    obtain ⟨r, hr, hid, hrun⟩ := run_restoreResource hd hs entry
    obtain ⟨resources, t, hrest, ht, hrestored, hdeployments⟩ :=
      ih (KeyMap.find?_insert_self ..) (hs.addResource hd hid)
    refine ⟨r :: resources, t, (run_bind_ok hrun).trans hrest, ht, .cons hr hrestored, ?_⟩
    rw [hdeployments, addResource, KeyMap.insert_insert, List.append_assoc]
    rfl

theorem faithful_of_portable {v : Json} (h : v.Portable) : Faithful v :=
  decodeText_render h.plain (Nat.le_trans h.shallow (by decide))

/-- The texts of values denote these values just if each is read back. -/
theorem mapM?_map_render_iff {values : KeyMap Json} :
    (values.map Json.render).mapM? decodeText = .ok values ↔ ∀ v ∈ values.values, Faithful v := by
  rw [KeyMap.mapM?_eq_ok_iff, KeyMap.values, List.forall_mem_map]
  refine List.forall₂_map_left_iff.trans (List.forall₂_same.trans ?_)
  exact forall₂_congr fun _ _ => and_iff_right rfl

theorem snapshotResource_iff {r : StoredResource} {name : String} {entry : ResourceSnapshot} :
    snapshotResource r = .ok (name, entry) ↔
      r.name = name ∧ r.resourceType = entry.resourceType ∧
        r.attributes.mapM? decodeText = .ok entry.attributes := by
  obtain ⟨resourceType, attributes⟩ := entry
  rw [snapshotResource]
  cases r.attributes.mapM? decodeText <;> simp [Except.map]

theorem snapshotResource_restored_iff {entry : String × ResourceSnapshot} {r : StoredResource}
    (hr : Restored entry r) :
    snapshotResource r = .ok entry ↔ ∀ v ∈ entry.2.attributes.values, Faithful v := by
  obtain ⟨hname, htype, hattributes⟩ := hr
  rw [← mapM?_map_render_iff, ← hattributes]
  exact snapshotResource_iff.trans ⟨fun h => h.2.2, fun h => ⟨hname, htype, h⟩⟩

theorem mapM_snapshotResource_restored_iff {entries : List (String × ResourceSnapshot)}
    {resources : List StoredResource} (h : List.Forall₂ Restored entries resources) :
    resources.mapM snapshotResource = .ok entries ↔
      ∀ entry ∈ entries, ∀ v ∈ entry.2.attributes.values, Faithful v := by
  rw [mapM_eq_ok_iff]
  induction h with
  | nil => simp
  | cons hr _ ih =>
    rw [List.forall₂_cons, List.forall_mem_cons, ih, snapshotResource_restored_iff hr]

/-- What can be taken of restored resources has their names. -/
theorem names_of_restored {entries found : List (String × ResourceSnapshot)}
    {resources : List StoredResource} (h : List.Forall₂ Restored entries resources)
    (hfound : resources.mapM snapshotResource = .ok found) :
    found.map Prod.fst = entries.map Prod.fst := by
  have hnames : resources.map StoredResource.name = entries.map Prod.fst := by
    clear hfound
    induction h with
    | nil => rfl
    | cons hr _ ih => rw [List.map_cons, List.map_cons, ih, hr.1]
  exact (map_of_mapM hfound fun r entry hr => (snapshotResource_iff.mp hr).1.symm).trans hnames

/-- Of what a snapshot was restored to, the same snapshot is taken just if each value is read
back. -/
theorem snapshotOf_restored_iff {snapshot : Snapshot} {resources : List StoredResource}
    (hresources : List.Forall₂ Restored snapshot.resources.entries resources) :
    snapshotOf snapshot.uuid ⟨snapshot.attributes.map Json.render, resources⟩ = .ok snapshot ↔
      ∀ v ∈ snapshot.values, Faithful v := by
  have hvalues : (∀ v ∈ snapshot.values, Faithful v) ↔
      (snapshot.attributes.map Json.render).mapM? decodeText = .ok snapshot.attributes ∧
        resources.mapM snapshotResource = .ok snapshot.resources.entries := by
    rw [mapM?_map_render_iff, mapM_snapshotResource_restored_iff hresources, Snapshot.values,
      List.forall_mem_append]
    exact and_congr_right fun _ => List.forall_mem_flatMap.trans List.forall_mem_map
  rw [hvalues]
  constructor
  · intro h
    obtain ⟨attributes, hattributes, h⟩ := bind_eq_ok h
    obtain ⟨found, hfound, h⟩ := bind_eq_ok h
    have hascending : Ascending found := by
      have hkeys := List.pairwise_map.mpr snapshot.resources.ascending
      rw [← names_of_restored hresources hfound] at hkeys
      exact List.pairwise_map.mp hkeys
    have hsame : (⟨snapshot.uuid, attributes, KeyMap.ofList found⟩ : Snapshot) = snapshot :=
      Except.ok.inj h
    have hentries : found = snapshot.resources.entries := by
      rw [← hsame]
      exact (KeyMap.entries_ofList hascending).symm
    exact ⟨hattributes.trans (congrArg (Except.ok ∘ Snapshot.attributes) hsame), hentries ▸ hfound⟩
  · rintro ⟨hattributes, hfound⟩
    unfold snapshotOf
    rw [hattributes, hfound]
    simp only [bind, Except.bind, KeyMap.ofList_entries]

/-- A snapshot of each deployment, in the order of the UUIDs. -/
def Holds (s : Store) (snapshots : List Snapshot) : Prop :=
  List.Forall₂ (fun entry snapshot => snapshotOf entry.1 entry.2 = .ok snapshot)
    s.deployments.entries snapshots

theorem holds_nil (h : s.deployments = .empty) : Holds s [] := by
  rw [Holds, h]
  exact .nil

theorem uuid_of_snapshotOf {uuid : String} {d : StoredDeployment} {snapshot : Snapshot}
    (h : snapshotOf uuid d = .ok snapshot) : snapshot.uuid = uuid := by
  obtain ⟨_, _, h⟩ := bind_eq_ok h
  obtain ⟨_, _, h⟩ := bind_eq_ok h
  exact congrArg Snapshot.uuid (Except.ok.inj h).symm

theorem Holds.uuids {snapshots : List Snapshot} (h : Holds s snapshots) :
    snapshots.map Snapshot.uuid = s.deploymentRows := by
  unfold Holds at h
  unfold deploymentRows KeyMap.keys
  generalize s.deployments.entries = entries at h ⊢
  induction h with
  | nil => rfl
  | cons hentry _ ih => rw [List.map_cons, List.map_cons, ih, uuid_of_snapshotOf hentry]

/-- A deployment that is not there is restored with the texts of its values but the nulls. -/
theorem run_restore {snapshot : Snapshot} (hnone : s.deployments.find? snapshot.uuid = none)
    (hs : s.IdsBounded) :
    ∃ resources t, (restore snapshot).run s = (.ok (), t) ∧ t.IdsBounded ∧
      List.Forall₂ Restored snapshot.withoutNull.resources.entries resources ∧
      t.deployments = s.deployments.insert snapshot.uuid
        ⟨snapshot.withoutNull.attributes.map Json.render, resources⟩ := by
  let alone (texts : KeyMap String) : Store :=
    ⟨s.deployments.insert snapshot.uuid ⟨texts, []⟩, s.lastId⟩
  have hfind : ∀ texts, (alone texts).deployments.find? snapshot.uuid = some ⟨texts, []⟩ :=
    fun texts => KeyMap.find?_insert_self ..
  have hbounded : ∀ texts, (alone texts).IdsBounded := by
    intro texts deployment i hi
    rw [idsOf, resourcesOf_insert] at hi
    split at hi
    · cases hi
    · exact hs hi
  have hpresent : (alone .empty).attributesOf? (.deployment snapshot.uuid) = some .empty := by
    rw [attributesOf?, hfind]
    rfl
  obtain ⟨written, hwritten, hreplace⟩ := run_replaceAttributes snapshot.attributes hpresent
  obtain rfl : alone (snapshot.withoutNull.attributes.map Json.render) = written := by
    rw [changeAttributes?, hfind, Option.map_some] at hwritten
    rw [← Option.some.inj hwritten, KeyMap.insert_insert]
    rfl
  obtain ⟨resources, t, hrun, ht, hrestored, hdeployments⟩ :=
    run_restoreResources (hfind _) (hbounded _) snapshot.resources.entries
  refine ⟨resources, t, ?_, ht, List.forall₂_map_left_iff.mpr hrestored, ?_⟩
  · exact (run_bind_ok (run_createDeployment hnone)).trans ((run_bind_ok hreplace).trans hrun)
  · rw [hdeployments, KeyMap.insert_insert]
    rfl

/-- Restoring a deployment behind all others adds its snapshot. -/
theorem Holds.run_restore {snapshots : List Snapshot} (hs : Holds s snapshots)
    (hbounded : s.IdsBounded) {snapshot : Snapshot} (h : snapshot.Portable)
    (hlast : ∀ other ∈ snapshots, other.uuid < snapshot.uuid) :
    ∃ t, (restore snapshot).run s = (.ok (), t) ∧ t.IdsBounded ∧
      Holds t (snapshots ++ [snapshot]) := by
  have hkeys : ∀ entry ∈ s.deployments.entries, entry.1 < snapshot.uuid := by
    intro entry he
    have hmem : entry.1 ∈ snapshots.map Snapshot.uuid := hs.uuids ▸ List.mem_map_of_mem he
    obtain ⟨other, ho, hsame⟩ := List.mem_map.mp hmem
    exact hsame ▸ hlast other ho
  have hnone : s.deployments.find? snapshot.uuid = none :=
    findEntry_eq_none fun entry he heq => Std.lt_irrefl (heq ▸ hkeys entry he)
  obtain ⟨resources, t, hrun, ht, hrestored, hdeployments⟩ := Store.run_restore hnone hbounded
  rw [h.withoutNull_eq_self] at hrestored hdeployments
  refine ⟨t, hrun, ht, ?_⟩
  have hentries : t.deployments.entries = s.deployments.entries ++
      [(snapshot.uuid, ⟨snapshot.attributes.map Json.render, resources⟩)] := by
    rw [hdeployments]
    exact insertEntry_of_forall_lt hkeys _
  rw [Holds, hentries]
  have htaken := (snapshotOf_restored_iff hrestored).mpr fun v hv => faithful_of_portable (h v hv)
  exact List.rel_append hs (.cons htaken .nil)

/-- Several snapshots in the order of their UUIDs are restored behind all others. -/
theorem Holds.run_forEach_restore {held snapshots : List Snapshot} (hs : Holds s held)
    (hbounded : s.IdsBounded) (h : ∀ snapshot ∈ snapshots, snapshot.Portable)
    (hsorted : (held ++ snapshots).Pairwise fun a b => a.uuid < b.uuid) :
    ∃ t, (forEach restore snapshots).run s = (.ok (), t) ∧ Holds t (held ++ snapshots) := by
  induction snapshots generalizing s held with
  | nil => exact ⟨s, rfl, by rwa [List.append_nil]⟩
  | cons snapshot rest ih =>
    have hlast : ∀ other ∈ held, other.uuid < snapshot.uuid := fun other ho =>
      (List.pairwise_append.mp hsorted).2.2 other ho snapshot List.mem_cons_self
    obtain ⟨t, hrun, ht, hheld⟩ := hs.run_restore hbounded (h snapshot List.mem_cons_self) hlast
    rw [List.append_cons] at hsorted
    obtain ⟨u, hrest, hall⟩ := ih hheld ht (fun other ho => h other (List.mem_cons_of_mem _ ho))
      hsorted
    exact ⟨u, (run_bind_ok hrun).trans hrest, by rwa [List.append_cons]⟩

/-- A text that was written for a portable value. -/
def Told (text : String) : Prop := ∃ v : Json, v.Portable ∧ text = v.render

theorem exists_values {texts : KeyMap String} (h : MapTexts Told texts) :
    ∃ values : KeyMap Json, texts.mapM? decodeText = .ok values ∧
      ∀ v ∈ values.values, v.Portable := by
  obtain ⟨values, hvalues⟩ := KeyMap.mapM?_isOk fun key text htext => by
    obtain ⟨v, hv, rfl⟩ := h key text htext
    exact ⟨v, faithful_of_portable hv⟩
  refine ⟨values, hvalues, fun v hv => ?_⟩
  obtain ⟨entry, he, rfl⟩ := List.mem_map.mp hv
  have hfound := KeyMap.find?_eq_some_iff.mpr he
  rw [KeyMap.find?_of_mapM? hvalues] at hfound
  obtain ⟨text, htext, hdecode⟩ := Option.bind_eq_some_iff.mp hfound
  obtain ⟨w, hw, rfl⟩ := h entry.1 text htext
  rw [faithful_of_portable hw] at hdecode
  exact Option.some.inj hdecode ▸ hw

/-- A deployment whose texts were written for portable values has a portable snapshot. -/
theorem exists_snapshot {d : StoredDeployment} (h : DeploymentTexts Told d) (uuid : String) :
    ∃ snapshot, snapshotOf uuid d = .ok snapshot ∧ snapshot.Portable := by
  obtain ⟨attributes, hattributes, hown⟩ := exists_values h.own
  have heach : ∀ r ∈ d.resources, ∃ entry, snapshotResource r = .ok entry ∧
      ∀ v ∈ entry.2.attributes.values, v.Portable := by
    intro r hr
    obtain ⟨values, hvalues, hportable⟩ := exists_values (h.resources r hr)
    exact ⟨(r.name, ⟨r.resourceType, values⟩), by rw [snapshotResource, hvalues]; rfl, hportable⟩
  obtain ⟨resources, hresources, hall⟩ := exists_mapM heach
  refine ⟨⟨uuid, attributes, KeyMap.ofList resources⟩, ?_, fun v hv => ?_⟩
  · unfold snapshotOf
    rw [hattributes, hresources]
    rfl
  rcases List.mem_append.mp hv with hv | hv
  · exact hown v hv
  · obtain ⟨r, hr, hv⟩ := List.mem_flatMap.mp hv
    obtain ⟨entry, he, rfl⟩ := List.mem_map.mp hr
    exact hall entry (KeyMap.mem_of_find?_ofList (KeyMap.find?_eq_some_iff.mpr he)) v hv

/-- A store whose texts were written for portable values has a portable snapshot of each of its
deployments. -/
theorem exists_holds (h : s.Texts Told) :
    ∃ snapshots, Holds s snapshots ∧ ∀ snapshot ∈ snapshots, snapshot.Portable := by
  have heach : ∀ entry ∈ s.deployments.entries, ∃ snapshot,
      snapshotOf entry.1 entry.2 = .ok snapshot ∧ snapshot.Portable := fun entry he =>
    exists_snapshot (h entry.1 entry.2 (KeyMap.find?_eq_some_iff.mpr he)) entry.1
  obtain ⟨snapshots, hsnapshots, hportable⟩ := exists_mapM heach
  exact ⟨snapshots, mapM_eq_ok_iff.mp hsnapshots, hportable⟩

theorem Holds.run_exportDeployment {snapshots : List Snapshot} (h : Holds s snapshots)
    {snapshot : Snapshot} (hm : snapshot ∈ snapshots) :
    (exportDeployment snapshot.uuid).run s = (.ok snapshot, s) := by
  obtain ⟨entry, he, hsnapshot⟩ := exists_of_mem_mapM (mapM_eq_ok_iff.mpr h) hm
  have hfound : s.deployments.find? snapshot.uuid = some entry.2 := by
    rw [uuid_of_snapshotOf hsnapshot]
    exact KeyMap.find?_eq_some_iff.mpr he
  rw [exportDeployment, run_reading, hfound]
  exact congrArg (·, s) ((uuid_of_snapshotOf hsnapshot) ▸ hsnapshot)

theorem exists_recordOf {uuid : String} {d : StoredDeployment} {snapshot : Snapshot}
    (h : snapshotOf uuid d = .ok snapshot) : ∃ record, recordOf uuid d = .ok record := by
  obtain ⟨attributes, hattributes, -⟩ := bind_eq_ok h
  cases hname : d.attributes.find? nameKey with
  | none => exact ⟨_, by rw [recordOf, nameOf, hname]; rfl⟩
  | some text =>
    obtain ⟨v, hv⟩ := KeyMap.ok_of_mapM? hattributes hname
    exact ⟨_, by simp only [recordOf, nameOf, hname, hv]; rfl⟩

/-- Where all snapshots can be taken, all deployments can be listed. -/
theorem Holds.run_listDeployments {snapshots : List Snapshot} (h : Holds s snapshots) :
    ∃ records, listDeployments.run s = (.ok records, s) ∧
      records.map DeploymentRecord.uuid = snapshots.map Snapshot.uuid := by
  have heach : ∀ entry ∈ s.deployments.entries, ∃ record,
      recordOf entry.1 entry.2 = .ok record ∧ True := by
    intro entry he
    obtain ⟨snapshot, -, hsnapshot⟩ := ok_of_mem_mapM (mapM_eq_ok_iff.mpr h) he
    obtain ⟨record, hrecord⟩ := exists_recordOf hsnapshot
    exact ⟨record, hrecord, trivial⟩
  obtain ⟨records, hrecords, -⟩ := exists_mapM heach
  have hrun : listDeployments.run s = (.ok records, s) := congrArg (·, s) hrecords
  exact ⟨records, hrun, ((listDeployments_ends s).ok hrun).1.trans h.uuids.symm⟩

/-- A record with the UUID that is asked for is selected, whatever the names of others are. -/
theorem exists_selectDeployment {records : List DeploymentRecord} {uuid : String}
    (h : uuid ∈ records.map DeploymentRecord.uuid) :
    ∃ record, selectDeployment records uuid = .ok record ∧ record.uuid = uuid := by
  obtain ⟨r, hr, huuid⟩ := List.mem_map.mp h
  have hsome : (records.find? fun r => r.uuid = uuid).isSome :=
    List.find?_isSome.mpr ⟨r, hr, by simpa using huuid⟩
  obtain ⟨found, hfound⟩ := Option.isSome_iff_exists.mp hsome
  refine ⟨found, ?_, by simpa using List.find?_some hfound⟩
  rw [selectDeployment, hfound]

theorem run_exportAttributes {texts : KeyMap String} (h : s.attributesOf? scope = some texts) :
    (exportAttributes scope).run s = (texts.mapM? decodeText, s) := by
  rw [exportAttributes, run_reading, attributesOf, h]
  rfl

/-- The snapshot says what is read of its deployment: the attributes, and for each name the type
and the attributes of the resource with that name. -/
structure Depicted (s : Store) (snapshot : Snapshot) : Prop where
  attributes : (exportAttributes (.deployment snapshot.uuid)).run s = (.ok snapshot.attributes, s)
  resources : ∀ name entry, snapshot.resources.find? name = some entry ↔
    ∃ r ∈ s.resourceRows, r.deployment = snapshot.uuid ∧ r.name = name ∧
      r.resourceType = entry.resourceType ∧
      (exportAttributes r.scope).run s = (.ok entry.attributes, s)

/-- The store consists of the deployments of the snapshots and is as they say. -/
structure ConsistsOf (s : Store) (snapshots : List Snapshot) : Prop where
  uuids : s.deploymentRows = snapshots.map Snapshot.uuid
  depicted : ∀ snapshot ∈ snapshots, s.Depicted snapshot

/-- Each name stands for one resource, so its entry in the snapshot is what is read of that one. -/
theorem Coherent.depicted (hs : Coherent P s) {uuid : String} {d : StoredDeployment}
    (hd : s.deployments.find? uuid = some d) {snapshot : Snapshot}
    (h : snapshotOf uuid d = .ok snapshot) : s.Depicted snapshot := by
  obtain ⟨attributes, hattributes, h⟩ := bind_eq_ok h
  obtain ⟨entries, hentries, h⟩ := bind_eq_ok h
  obtain rfl := Except.ok.inj h
  have hresources := resourcesOf_of_find hd
  have hexport : ∀ r ∈ d.resources,
      (exportAttributes (.resource r.id)).run s = (r.attributes.mapM? decodeText, s) :=
    fun r hr => run_exportAttributes
      (congrArg (Option.map _) (hs.resourceById?_eq (hresources.symm ▸ hr)))
  have hnames : (entries.map Prod.fst).Nodup := by
    have hmap : entries.map Prod.fst = s.namesOf uuid := by
      rw [namesOf, hresources]
      exact map_of_mapM hentries fun r entry hr => (snapshotResource_iff.mp hr).1.symm
    exact hmap ▸ hs.names uuid
  refine ⟨(run_exportAttributes (by rw [attributesOf?, hd]; rfl)).trans (by rw [hattributes]),
    fun name entry => (KeyMap.find?_ofList hnames).trans ⟨fun hm => ?_, ?_⟩⟩
  · obtain ⟨r, hr, hentry⟩ := exists_of_mem_mapM hentries hm
    obtain ⟨hname, htype, hdecode⟩ := snapshotResource_iff.mp hentry
    exact ⟨r.record uuid, mem_resourceRows_iff.mpr ⟨r, hresources.symm ▸ hr, rfl⟩, rfl, hname,
      htype, (hexport r hr).trans (by rw [hdecode])⟩
  · rintro ⟨row, hrow, rfl, hname, htype, hread⟩
    obtain ⟨r, hr, hrec⟩ := mem_resourceRows_iff.mp hrow
    rw [hresources] at hr
    rw [← hrec] at hname htype hread
    have hdecode : r.attributes.mapM? decodeText = .ok entry.attributes :=
      congrArg Prod.fst ((hexport r hr).symm.trans hread)
    obtain ⟨found, hfound, hentry⟩ := ok_of_mem_mapM hentries hr
    rw [snapshotResource_iff.mpr ⟨hname, htype, hdecode⟩] at hentry
    exact Except.ok.inj hentry ▸ hfound

/-- A coherent store is as its snapshots say. -/
theorem Holds.consistsOf {snapshots : List Snapshot} (h : Holds s snapshots) (hs : Coherent P s) :
    s.ConsistsOf snapshots := by
  refine ⟨h.uuids.symm, fun snapshot hm => ?_⟩
  obtain ⟨entry, he, hsnapshot⟩ := exists_of_mem_mapM (mapM_eq_ok_iff.mpr h) hm
  exact hs.depicted (KeyMap.find?_eq_some_iff.mpr he) hsnapshot

/-- Where there are no deployments, all snapshots are restored and taken again, and nothing else is
there. -/
theorem run_importDeployments {snapshots : List Snapshot} (hs : s.deployments = .empty)
    (h : ∀ snapshot ∈ snapshots, snapshot.Portable)
    (hsorted : snapshots.Pairwise fun a b => a.uuid < b.uuid) :
    ∃ t, (importDeployments snapshots).run s = (.ok (snapshots.map Snapshot.uuid), t) ∧
      Holds t snapshots ∧ t.ConsistsOf snapshots := by
  have hcoherent : Coherent (fun _ => True) s := coherent_of_empty hs
  have hbounded : s.IdsBounded := hcoherent.bounded
  obtain ⟨t, hrun, ht⟩ := (holds_nil hs).run_forEach_restore hbounded h (by simpa using hsorted)
  have hall : (importDeployments snapshots).run s = (.ok (snapshots.map Snapshot.uuid), t) := by
    rw [importDeployments, run_transaction, run_bind_ok hrun]
    rfl
  have hkeeps : Keeps (Reaches fun _ => True) (importDeployments snapshots) :=
    importDeployments_keeps fun _ _ _ _ _ => trivial
  have hreach := hkeeps s
  rw [hall] at hreach
  exact ⟨t, hall, ht, ht.consistsOf (hreach.coherent hcoherent)⟩

end DesiredState.Store
