import DesiredState.Proofs.Json.Null
import DesiredState.Proofs.Store.Coherent

/-!
# The rows of a store

What is recorded, written out as tables: deployments, resources and attributes, each row with the
keys of what it belongs to. After every run the rows satisfy what a schema demands of them, an
attribute is read just if it has a row, and deployments are listed as their rows say.
-/

namespace DesiredState.Store

open Relation

structure AttributeRow where
  owner : Scope
  key : String
  text : String
  deriving DecidableEq

def deploymentRows (s : Store) : List String := s.deployments.keys

def resourceRows (s : Store) : List ResourceRecord :=
  s.deployments.entries.flatMap fun entry =>
    entry.2.resources.map (StoredResource.record · entry.1)

def rowsOf (owner : Scope) (attributes : KeyMap String) : List AttributeRow :=
  attributes.entries.map fun entry => ⟨owner, entry.1, entry.2⟩

def attributeRows (s : Store) : List AttributeRow :=
  s.deployments.entries.flatMap fun entry =>
    rowsOf (.deployment entry.1) entry.2.attributes ++
      entry.2.resources.flatMap fun r => rowsOf (.resource r.id) r.attributes

/-- What a schema demands of the rows. -/
structure Consistent (s : Store) : Prop where
  deployments : s.deploymentRows.Nodup
  ids : (s.resourceRows.map ResourceRecord.id).Nodup
  names : (s.resourceRows.map fun r => (r.deployment, r.name)).Nodup
  resourceOwners : ∀ r ∈ s.resourceRows, r.deployment ∈ s.deploymentRows
  attributeOwners : ∀ row ∈ s.attributeRows,
    (∃ uuid ∈ s.deploymentRows, row.owner = .deployment uuid) ∨
      ∃ r ∈ s.resourceRows, row.owner = r.scope
  notNull : ∀ row ∈ s.attributeRows, decodeText row.text ≠ .ok .null
  /-- A row is what is read through its owner, and nothing else is. -/
  readings : ∀ owner key text,
    s.textOf? owner key = some text ↔ ⟨owner, key, text⟩ ∈ s.attributeRows

variable {P : String → Prop} {s : Store}

theorem mem_deploymentRows_iff {uuid : String} :
    uuid ∈ s.deploymentRows ↔ ∃ d, s.deployments.find? uuid = some d := by
  rw [deploymentRows, ← KeyMap.contains_iff, KeyMap.contains, Option.isSome_iff_exists]

theorem pairwise_deploymentRows (s : Store) : s.deploymentRows.Pairwise (· < ·) :=
  s.deployments.pairwise_keys

theorem nodup_deploymentRows (s : Store) : s.deploymentRows.Nodup := s.deployments.nodup_keys

theorem resourcesOf_of_mem {entry : String × StoredDeployment}
    (h : entry ∈ s.deployments.entries) : s.resourcesOf entry.1 = entry.2.resources :=
  resourcesOf_of_find (KeyMap.find?_eq_some_iff.mpr h)

theorem mem_resourceRows_iff {row : ResourceRecord} :
    row ∈ s.resourceRows ↔
      ∃ r ∈ s.resourcesOf row.deployment, r.record row.deployment = row := by
  rw [resourceRows, List.mem_flatMap]
  constructor
  · rintro ⟨entry, he, hrow⟩
    obtain ⟨r, hr, rfl⟩ := List.mem_map.mp hrow
    exact ⟨r, (resourcesOf_of_mem he).symm ▸ hr, rfl⟩
  · rintro ⟨r, hr, hrow⟩
    cases hd : s.deployments.find? row.deployment with
    | none =>
      rw [resourcesOf, hd] at hr
      cases hr
    | some d =>
      rw [resourcesOf_of_find hd] at hr
      exact ⟨_, KeyMap.find?_eq_some_iff.mp hd, List.mem_map.mpr ⟨r, hr, hrow⟩⟩

/-- An id has a row just if some deployment has a resource with it. -/
theorem mem_ids_iff {i : Int} :
    i ∈ s.resourceRows.map ResourceRecord.id ↔ ∃ deployment, i ∈ s.idsOf deployment := by
  simp only [List.mem_map, idsOf]
  constructor
  · rintro ⟨row, hrow, rfl⟩
    obtain ⟨r, hr, hrec⟩ := mem_resourceRows_iff.mp hrow
    exact ⟨row.deployment, r, hr, congrArg ResourceRecord.id hrec⟩
  · rintro ⟨deployment, r, hr, rfl⟩
    exact ⟨r.record deployment, mem_resourceRows_iff.mpr ⟨r, hr, rfl⟩, rfl⟩

theorem mem_allResources_iff {r : StoredResource} :
    r ∈ s.allResources ↔ ∃ deployment, r ∈ s.resourcesOf deployment := by
  unfold allResources KeyMap.values
  rw [List.flatMap_map, List.mem_flatMap]
  constructor
  · rintro ⟨entry, he, hr⟩
    exact ⟨entry.1, (resourcesOf_of_mem he).symm ▸ hr⟩
  · rintro ⟨deployment, hr⟩
    cases hd : s.deployments.find? deployment with
    | none =>
      rw [resourcesOf, hd] at hr
      cases hr
    | some d => exact ⟨_, KeyMap.find?_eq_some_iff.mp hd, resourcesOf_of_find hd ▸ hr⟩

/-- An id that no deployment has a resource with leads to none. -/
theorem resourceById?_eq_none {i : Int} (h : ∀ deployment, i ∉ s.idsOf deployment) :
    s.resourceById? i = none := by
  refine List.find?_eq_none.mpr fun r hr => ?_
  obtain ⟨deployment, hr⟩ := mem_allResources_iff.mp hr
  have hne : r.id ≠ i := fun he => h deployment (he ▸ List.mem_map_of_mem hr)
  simpa using hne

theorem map_id_resourceRows (s : Store) :
    s.resourceRows.map ResourceRecord.id = s.allResources.map StoredResource.id := by
  simp [resourceRows, allResources, KeyMap.values, StoredResource.record, List.map_flatMap,
    List.flatMap_map, Function.comp_def]

/-- Where ids are given once, a resource is found by its id. -/
theorem resourceById?_of_nodup (hids : (s.resourceRows.map ResourceRecord.id).Nodup)
    {deployment : String} {r : StoredResource} (hr : r ∈ s.resourcesOf deployment) :
    s.resourceById? r.id = some r := by
  have hmem : r ∈ s.allResources := mem_allResources_iff.mpr ⟨deployment, hr⟩
  have hsome : (s.resourceById? r.id).isSome := by
    rw [resourceById?, List.find?_isSome]
    exact ⟨r, hmem, by simp⟩
  obtain ⟨found, hfound⟩ := Option.isSome_iff_exists.mp hsome
  have hid : found.id = r.id := by simpa using List.find?_some hfound
  rw [map_id_resourceRows] at hids
  rw [hfound, List.inj_on_of_nodup_map hids (List.mem_of_find?_eq_some hfound) hmem hid]

theorem mem_rowsOf_iff {owner : Scope} {attributes : KeyMap String} {row : AttributeRow} :
    row ∈ rowsOf owner attributes ↔
      row.owner = owner ∧ attributes.find? row.key = some row.text := by
  rw [rowsOf, List.mem_map]
  constructor
  · rintro ⟨entry, he, rfl⟩
    exact ⟨rfl, KeyMap.find?_eq_some_iff.mpr he⟩
  · rintro ⟨rfl, hfound⟩
    exact ⟨_, KeyMap.find?_eq_some_iff.mp hfound, rfl⟩

/-- A row stands in the attributes of a deployment or of one of its resources. -/
theorem mem_attributeRows_iff {row : AttributeRow} :
    row ∈ s.attributeRows ↔ ∃ uuid d, s.deployments.find? uuid = some d ∧
      ((row.owner = .deployment uuid ∧ d.attributes.find? row.key = some row.text) ∨
        ∃ r ∈ d.resources, row.owner = .resource r.id ∧
          r.attributes.find? row.key = some row.text) := by
  simp only [attributeRows, List.mem_flatMap, List.mem_append, mem_rowsOf_iff]
  constructor
  · rintro ⟨entry, he, hrow⟩
    exact ⟨entry.1, entry.2, KeyMap.find?_eq_some_iff.mpr he, hrow⟩
  · rintro ⟨uuid, d, hd, hrow⟩
    exact ⟨(uuid, d), KeyMap.find?_eq_some_iff.mp hd, hrow⟩

/-- Lists that belong to different deployments have no member in common. -/
theorem nodup_flatMap_entries {α : Type} {f : String × StoredDeployment → List α}
    (heach : ∀ entry ∈ s.deployments.entries, (f entry).Nodup)
    (hapart : ∀ entry ∈ s.deployments.entries, ∀ other ∈ s.deployments.entries,
      ∀ x, x ∈ f entry → x ∈ f other → entry.1 = other.1) :
    (s.deployments.entries.flatMap f).Nodup := by
  refine List.nodup_flatMap.mpr ⟨heach, ?_⟩
  refine s.deployments.ascending.imp_of_mem fun {entry other} he ho hlt => ?_
  intro x hx hx'
  exact Std.lt_irrefl (hapart entry he other ho x hx hx' ▸ hlt)

variable (h : Coherent P s)

include h

theorem Coherent.nodup_ids : (s.resourceRows.map ResourceRecord.id).Nodup := by
  rw [resourceRows, List.map_flatMap]
  have hids : ∀ entry ∈ s.deployments.entries,
      (entry.2.resources.map (StoredResource.record · entry.1)).map ResourceRecord.id =
        s.idsOf entry.1 := by
    intro entry he
    rw [List.map_map, idsOf, resourcesOf_of_mem he]
    rfl
  refine nodup_flatMap_entries (fun entry he => ?_) fun entry he other ho i hi hi' => ?_
  · rw [hids entry he]
    exact (h.ascending entry.1).imp Int.ne_of_lt
  · rw [hids entry he] at hi
    rw [hids other ho] at hi'
    exact h.apart hi hi'

theorem Coherent.nodup_names : (s.resourceRows.map fun r => (r.deployment, r.name)).Nodup := by
  rw [resourceRows, List.map_flatMap]
  have hnames : ∀ entry ∈ s.deployments.entries,
      (entry.2.resources.map (StoredResource.record · entry.1)).map
        (fun r => (r.deployment, r.name)) =
          (s.namesOf entry.1).map fun name => (entry.1, name) := by
    intro entry he
    rw [List.map_map, namesOf, resourcesOf_of_mem he, List.map_map]
    rfl
  refine nodup_flatMap_entries (fun entry he => ?_) fun entry he other ho pair hp hp' => ?_
  · rw [hnames entry he]
    exact (h.names entry.1).map fun _ _ heq => congrArg Prod.snd heq
  · rw [hnames entry he] at hp
    rw [hnames other ho] at hp'
    obtain ⟨_, -, rfl⟩ := List.mem_map.mp hp
    obtain ⟨_, -, heq⟩ := List.mem_map.mp hp'
    exact (congrArg Prod.fst heq).symm

theorem Coherent.resourceById?_eq {deployment : String} {r : StoredResource}
    (hr : r ∈ s.resourcesOf deployment) : s.resourceById? r.id = some r :=
  resourceById?_of_nodup h.nodup_ids hr

theorem Coherent.textOf?_eq_some_iff (owner : Scope) (key text : String) :
    s.textOf? owner key = some text ↔ ⟨owner, key, text⟩ ∈ s.attributeRows := by
  rw [mem_attributeRows_iff, textOf?]
  constructor
  · intro hfound
    cases owner with
    | deployment uuid =>
      cases hd : s.deployments.find? uuid with
      | none => simp [attributesOf, attributesOf?, hd] at hfound
      | some d =>
        rw [attributesOf, attributesOf?, hd] at hfound
        exact ⟨uuid, d, hd, Or.inl ⟨rfl, hfound⟩⟩
    | resource i =>
      cases hr : s.resourceById? i with
      | none => simp [attributesOf, attributesOf?, hr] at hfound
      | some r =>
        rw [attributesOf, attributesOf?, hr] at hfound
        have hid : r.id = i := by simpa using List.find?_some hr
        obtain ⟨d, hd, hmem⟩ := List.mem_flatMap.mp (List.mem_of_find?_eq_some hr)
        obtain ⟨entry, he, rfl⟩ := List.mem_map.mp hd
        exact ⟨entry.1, entry.2, KeyMap.find?_eq_some_iff.mpr he,
          Or.inr ⟨r, hmem, congrArg Scope.resource hid.symm, hfound⟩⟩
  · rintro ⟨uuid, d, hd, ⟨rfl, hfound⟩ | ⟨r, hr, rfl, hfound⟩⟩
    · rwa [attributesOf, attributesOf?, hd]
    · rwa [attributesOf, attributesOf?, h.resourceById?_eq (resourcesOf_of_find hd ▸ hr)]

/-- Where no text is that of `null`, the rows are as they should be. -/
theorem Coherent.consistent (hP : ∀ text, P text → decodeText text ≠ .ok .null) :
    s.Consistent where
  deployments := s.nodup_deploymentRows
  ids := h.nodup_ids
  names := h.nodup_names
  resourceOwners row hrow := by
    obtain ⟨entry, he, hrow⟩ := List.mem_flatMap.mp hrow
    obtain ⟨r, -, rfl⟩ := List.mem_map.mp hrow
    exact List.mem_map_of_mem he
  attributeOwners row hrow := by
    obtain ⟨uuid, d, hd, ⟨howner, -⟩ | ⟨r, hr, howner, -⟩⟩ := mem_attributeRows_iff.mp hrow
    · exact Or.inl ⟨uuid, mem_deploymentRows_iff.mpr ⟨d, hd⟩, howner⟩
    · refine Or.inr ⟨r.record uuid, mem_resourceRows_iff.mpr ⟨r, ?_, rfl⟩, howner⟩
      exact (resourcesOf_of_find hd).symm ▸ hr
  notNull row hrow := by
    obtain ⟨uuid, d, hd, ⟨-, hfound⟩ | ⟨r, hr, -, hfound⟩⟩ := mem_attributeRows_iff.mp hrow
    · exact hP _ ((h.texts uuid d hd).own _ _ hfound)
    · exact hP _ ((h.texts uuid d hd).resources r hr _ _ hfound)
  readings := h.textOf?_eq_some_iff

omit h

theorem permits_of_writable {v : Json} (hv : v.writable = true) :
    Permits (fun text => decodeText text ≠ .ok .null) v := by
  intro hnull hdecode
  refine Json.decode_render_ne_null hnull hv ?_
  unfold decodeText at hdecode
  cases hd : Json.decode v.render with
  | error e =>
    rw [hd] at hdecode
    cases hdecode
  | ok w =>
    rw [hd] at hdecode
    exact congrArg Except.ok (Except.ok.inj hdecode)

/-- What a key leads to is all that the entries with that key hold. -/
theorem flatMap_of_key {α : Type} (f : StoredDeployment → List α) (uuid : String)
    {entries : List (String × StoredDeployment)} (hentries : Ascending entries) :
    (entries.flatMap fun entry => if entry.1 = uuid then f entry.2 else []) =
      ((findEntry uuid entries).map f).getD [] := by
  induction entries with
  | nil => rfl
  | cons head rest ih =>
    obtain ⟨k, d⟩ := head
    obtain ⟨hlt, hrest⟩ := List.pairwise_cons.mp hentries
    rw [List.flatMap_cons, ih hrest, findEntry]
    by_cases hk : k = uuid
    · subst hk
      simp [findEntry_eq_none_of_lt hlt]
    · simp [hk]

/-- The resources of a deployment are those with its UUID in their rows. -/
theorem filter_resourceRows (s : Store) (deployment : String) :
    s.resourceRows.filter (fun r => r.deployment = deployment) = s.recordsOf deployment := by
  have hentry : ∀ entry : String × StoredDeployment,
      (entry.2.resources.map (StoredResource.record · entry.1)).filter
          (fun r => r.deployment = deployment) =
        if entry.1 = deployment then entry.2.resources.map (StoredResource.record · deployment)
        else [] := by
    intro entry
    rw [List.filter_map]
    split
    · rename_i hk
      subst hk
      rw [List.filter_eq_self.mpr fun r _ => by simp [StoredResource.record]]
    · rename_i hk
      rw [List.filter_eq_nil_iff.mpr fun r _ => by simpa [StoredResource.record] using hk,
        List.map_nil]
  rw [resourceRows, List.filter_flatMap]
  simp only [hentry]
  rw [flatMap_of_key (fun d => d.resources.map (StoredResource.record · deployment)) _
    s.deployments.ascending, recordsOf, resourcesOf, KeyMap.find?]
  cases findEntry deployment s.deployments.entries <;> rfl

/-- Deployments are listed once each, with as many resources as are listed for them. -/
theorem listDeployments_ends (s : Store) :
    listDeployments.Ends s
      (fun records _ => records.map DeploymentRecord.uuid = s.deploymentRows ∧
        ∀ record ∈ records, record.resourceCount = (s.resourcesOf record.uuid).length)
      fun _ _ => True := by
  have hrecord : ∀ (entry : String × StoredDeployment) record,
      recordOf entry.1 entry.2 = .ok record →
        record.uuid = entry.1 ∧ record.resourceCount = entry.2.resources.length := by
    intro entry record hrecord
    unfold recordOf at hrecord
    cases hname : nameOf entry.2 with
    | error e =>
      rw [hname] at hrecord
      cases hrecord
    | ok name =>
      rw [hname] at hrecord
      obtain rfl := Except.ok.inj hrecord
      exact ⟨rfl, rfl⟩
  refine Action.ends_reading (fun records hrecords => ⟨?_, fun record hm => ?_⟩) fun _ _ => trivial
  · exact map_of_mapM hrecords fun entry record hok => (hrecord entry record hok).1
  · obtain ⟨entry, he, hok⟩ := exists_of_mem_mapM hrecords hm
    obtain ⟨huuid, hcount⟩ := hrecord entry record hok
    rw [hcount, huuid, resourcesOf_of_mem he]

variable {ε : Type} [StoreFailure ε]

/-- Whatever is done to a store, from nothing on and whether it succeeds or fails: the rows satisfy
what the schema demands, and the deployments, if they can be listed, are listed once each in the
order of their UUIDs, with the number of the resources that are listed for them. -/
theorem callAll_consistent {calls : List (Call ε)}
    (hvalues : ∀ call ∈ calls, ∀ v ∈ call.values, v.writable = true) :
    let s := (callAll calls .empty).2
    s.Consistent ∧ ∀ records, (listDeployments.run s).1 = .ok records →
      records.map DeploymentRecord.uuid = s.deploymentRows ∧
      (records.map DeploymentRecord.uuid).Pairwise (· < ·) ∧
      ∀ record ∈ records, ∃ resources, (listResources record.uuid).run s = (.ok resources, s) ∧
        resources = s.resourceRows.filter (fun r => r.deployment = record.uuid) ∧
        record.resourceCount = resources.length := by
  intro s
  have hreach := callAll_reaches
    (fun call hcall v hv => permits_of_writable (hvalues call hcall v hv)) .empty
  have hcoherent : Coherent _ s := hreach.coherent (coherent_of_empty rfl)
  refine ⟨hcoherent.consistent fun _ htext => htext, fun records hrecords => ?_⟩
  obtain ⟨huuids, hcounts⟩ :=
    (listDeployments_ends s).ok (Prod.ext hrecords rfl : listDeployments.run s = (.ok records, s))
  refine ⟨huuids, huuids ▸ s.pairwise_deploymentRows, fun record hm => ?_⟩
  have hlisted := s.filter_resourceRows record.uuid
  refine ⟨_, rfl, hlisted.symm, ?_⟩
  rw [hcounts record hm, List.length_map]

/-- Two deployments, one of them with resources, a transaction that is rolled back, writes to owners
that do not exist, once inside a session that goes on, and an import that names a deployment
twice. -/
def busy : List (Call StoreError) :=
  [.createDeployment "b", .createDeployment "a", .createDeployment "a",
    .declareResource "a" "web" "server", .declareResource "a" "disk" "volume",
    .renameResource "a" "disk" "web", .attributes (.alone (.resource 2) (.set "size" (.ofInt 8))),
    .attributes (.alone (.resource 9) (.set "size" (.ofInt 8))),
    .attributes (.transaction [(.deployment "a", .set "name" (.str "one")),
      (.resource 9, .set "size" (.ofInt 8))] none),
    .session [(.resource 9, .set "size" (.ofInt 8)), (.resource 1, .set "size" (.ofInt 8))] none,
    .importDeployments [⟨"c", .ofList [("name", .str "two")],
      .ofList [("web", ⟨"server", .ofList [("ready", .bool true), ("old", .null)]⟩)]⟩],
    .importDeployments [⟨"d", .empty, .empty⟩, ⟨"d", .empty, .empty⟩], .purgeResource 1]

theorem callAll_consistent_busy :
    let s := (callAll busy .empty).2
    let records : List DeploymentRecord := [⟨"a", none, 1⟩, ⟨"b", none, 0⟩, ⟨"c", some "two", 1⟩]
    (listDeployments.run s).1 = .ok records ∧ s.Consistent ∧
      records.map DeploymentRecord.uuid = s.deploymentRows := by
  intro s records
  have hrecords : (listDeployments.run s).1 = .ok records := rfl
  have hvalues : ∀ call ∈ busy, ∀ v ∈ call.values, v.writable = true := by decide
  obtain ⟨hconsistent, hlisted⟩ := callAll_consistent hvalues
  exact ⟨hrecords, hconsistent, (hlisted records hrecords).1⟩

end DesiredState.Store
