import DesiredState.Proofs.Store.Rows

/-!
# The rows that a removal takes

Removing a deployment takes its row, the rows of its resources, and those of the attributes of
either. Removing a resource takes its row and those of its attributes. All other rows stay as they
are and where they are, and ids are given on from where they were.
-/

namespace DesiredState.Store

variable {s t : Store}

/-- Some rows are gone, all others are as they were. -/
structure Loses (deployment : String → Bool) (resource : ResourceRecord → Bool)
    (owner : Scope → Bool) (s t : Store) : Prop where
  deployments : t.deploymentRows = s.deploymentRows.filter fun uuid => !deployment uuid
  resources : t.resourceRows = s.resourceRows.filter fun r => !resource r
  attributes : t.attributeRows = s.attributeRows.filter fun row => !owner row.owner
  lastId : t.lastId = s.lastId

def UniqueIds (s : Store) : Prop := (s.resourceRows.map ResourceRecord.id).Nodup

instance (s : Store) : Decidable s.UniqueIds := by
  unfold UniqueIds
  infer_instance

/-- An owner that a deployment is or has. -/
def belongs (s : Store) (uuid : String) (owner : Scope) : Bool :=
  owner = .deployment uuid ∨ ∃ r ∈ s.resourceRows, r.deployment = uuid ∧ owner = r.scope

/-- Parts that pass a test as a whole, or not at all, can be tested before they are joined. -/
theorem filter_flatMap_of_parts {α β : Type} {p : α → Bool} {q : β → Bool} {f : β → List α}
    {parts : List β} (h : ∀ part ∈ parts, ∀ x ∈ f part, p x = q part) :
    (parts.flatMap f).filter p = (parts.filter q).flatMap f := by
  induction parts with
  | nil => rfl
  | cons part rest ih =>
    have hrest := ih fun other ho => h other (List.mem_cons_of_mem _ ho)
    have hpart := h part List.mem_cons_self
    rw [List.flatMap_cons, List.filter_append, hrest, List.filter_cons]
    cases hq : q part with
    | true =>
      rw [List.filter_eq_self.mpr fun x hx => (hpart x hx).trans hq]
      rfl
    | false =>
      rw [List.filter_eq_nil_iff.mpr fun x hx => by simp [hpart x hx, hq]]
      rfl

theorem resourceRow_of_mem {entry : String × StoredDeployment}
    (he : entry ∈ s.deployments.entries) {r : StoredResource} (hr : r ∈ entry.2.resources) :
    r.record entry.1 ∈ s.resourceRows :=
  List.mem_flatMap.mpr ⟨entry, he, List.mem_map_of_mem hr⟩

/-- Where ids are unique, the owner of an attribute belongs to the deployment that it stands in. -/
theorem belongs_iff (hids : s.UniqueIds)
    {entry : String × StoredDeployment} (he : entry ∈ s.deployments.entries) {row : AttributeRow}
    (hrow : row ∈ rowsOf (.deployment entry.1) entry.2.attributes ++
      entry.2.resources.flatMap fun r => rowsOf (.resource r.id) r.attributes) (uuid : String) :
    s.belongs uuid row.owner = true ↔ entry.1 = uuid := by
  rw [belongs, decide_eq_true_eq]
  rcases List.mem_append.mp hrow with hown | hresource
  · rw [(mem_rowsOf_iff.mp hown).1]
    constructor
    · rintro (heq | ⟨r, -, -, heq⟩)
      · exact Scope.deployment.inj heq
      · cases heq
    · rintro rfl
      exact Or.inl rfl
  · obtain ⟨r, hr, hrow⟩ := List.mem_flatMap.mp hresource
    have hmem := resourceRow_of_mem he hr
    rw [(mem_rowsOf_iff.mp hrow).1]
    constructor
    · rintro (heq | ⟨other, hother, rfl, heq⟩)
      · cases heq
      · have hsame : r.record entry.1 = other :=
          List.inj_on_of_nodup_map hids hmem hother (Scope.resource.inj heq)
        exact congrArg ResourceRecord.deployment hsame
    · rintro rfl
      exact Or.inr ⟨_, hmem, rfl, rfl⟩

/-- What belongs to a deployment stands in its attributes or in those of its resources. -/
theorem mem_and_belongs_iff (hids : s.UniqueIds) {uuid : String} {d : StoredDeployment}
    (hd : s.deployments.find? uuid = some d) (row : AttributeRow) :
    row ∈ s.attributeRows ∧ s.belongs uuid row.owner = true ↔
      row ∈ rowsOf (.deployment uuid) d.attributes ++
        d.resources.flatMap fun r => rowsOf (.resource r.id) r.attributes := by
  have he := KeyMap.find?_eq_some_iff.mp hd
  constructor
  · rintro ⟨hrow, hbelongs⟩
    obtain ⟨⟨other, found⟩, hother, hrow⟩ := List.mem_flatMap.mp hrow
    obtain rfl : other = uuid := (belongs_iff hids hother hrow uuid).mp hbelongs
    obtain rfl : found = d :=
      Option.some.inj ((KeyMap.find?_eq_some_iff.mpr hother).symm.trans hd)
    exact hrow
  · intro hrow
    exact ⟨List.mem_flatMap.mpr ⟨_, he, hrow⟩, (belongs_iff hids he hrow uuid).mpr rfl⟩

/-- A deployment goes with its attributes, its resources and their attributes. -/
theorem loses_erase (hids : s.UniqueIds) (uuid : String) :
    s.Loses (· = uuid) (·.deployment = uuid) (s.belongs uuid)
      { s with deployments := s.deployments.erase uuid } where
  deployments := by
    change (eraseEntry uuid s.deployments.entries).map Prod.fst = _
    rw [eraseEntry, deploymentRows, KeyMap.keys, List.filter_map]
    exact congrArg (List.map Prod.fst) (List.filter_congr fun entry _ => by simp)
  resources := by
    change (eraseEntry uuid s.deployments.entries).flatMap _ = _
    rw [eraseEntry, resourceRows]
    refine (filter_flatMap_of_parts fun entry _ row hrow => ?_).symm
    obtain ⟨r, -, rfl⟩ := List.mem_map.mp hrow
    by_cases hu : entry.1 = uuid <;> simp [StoredResource.record, hu]
  attributes := by
    change (eraseEntry uuid s.deployments.entries).flatMap _ = _
    rw [eraseEntry, attributeRows]
    refine (filter_flatMap_of_parts fun entry he row hrow => ?_).symm
    have howner := belongs_iff hids he hrow uuid
    by_cases hu : entry.1 = uuid <;> simp_all
  lastId := rfl

/-- A resource goes with its attributes. -/
theorem loses_filter (hids : s.UniqueIds) {r : ResourceRecord}
    (hr : r ∈ s.resourceRows) :
    s.Loses (fun _ => false) (· = r) (· = r.scope)
      { s with deployments := s.deployments.map fun d =>
        { d with resources := d.resources.filter fun other => other.id ≠ r.id } } where
  deployments := by
    refine Eq.trans ?_ (List.filter_eq_self.mpr fun _ _ => rfl).symm
    rw [deploymentRows, deploymentRows, KeyMap.keys, KeyMap.map, List.map_map]
    rfl
  resources := by
    have hid : ∀ other ∈ s.resourceRows, (other.id ≠ r.id ↔ other ≠ r) := fun other ho =>
      not_congr ⟨List.inj_on_of_nodup_map hids ho hr, congrArg ResourceRecord.id⟩
    have hfilter : s.resourceRows.filter (fun other => !decide (other = r)) =
        s.resourceRows.filter fun other => other.id ≠ r.id :=
      List.filter_congr fun other ho => by rw [decide_eq_decide.mpr (hid other ho), decide_not]
    rw [hfilter, resourceRows, resourceRows, List.filter_flatMap, KeyMap.map, List.flatMap_map]
    exact List.flatMap_congr fun entry _ => by rw [List.filter_map]; rfl
  attributes := by
    have hown : ∀ (uuid : String) (m : KeyMap String), (rowsOf (.deployment uuid) m).filter
        (fun row => !decide (row.owner = r.scope)) = rowsOf (.deployment uuid) m := fun uuid m =>
      List.filter_eq_self.mpr fun row hrow => by
        simp [(mem_rowsOf_iff.mp hrow).1, ResourceRecord.scope]
    have hresources : ∀ resources : List StoredResource,
        (resources.flatMap fun other => rowsOf (.resource other.id) other.attributes).filter
            (fun row => !decide (row.owner = r.scope)) =
          (resources.filter fun other => other.id ≠ r.id).flatMap fun other =>
            rowsOf (.resource other.id) other.attributes := fun resources =>
      filter_flatMap_of_parts fun other _ row hrow => by
        simp [(mem_rowsOf_iff.mp hrow).1, ResourceRecord.scope]
    rw [attributeRows, attributeRows, List.filter_flatMap, KeyMap.map, List.flatMap_map]
    exact List.flatMap_congr fun entry _ => by rw [List.filter_append, hown, hresources]
  lastId := rfl

end DesiredState.Store
