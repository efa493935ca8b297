import DesiredState.Proofs.Store.Steps
import Mathlib.Data.List.Nodup

/-!
# What every step of a store keeps

Ids are given once, from a counter that never goes back, and name one resource of one deployment;
the names within a deployment are distinct; and every text that is stored was permitted to be
written. Each step keeps this, so every run does.
-/

namespace DesiredState.Store

open Relation

variable {P : String → Prop} {s t : Store}

def idsOf (s : Store) (deployment : String) : List Int :=
  (s.resourcesOf deployment).map StoredResource.id

theorem map_id_recordsOf (s : Store) (deployment : String) :
    (s.recordsOf deployment).map ResourceRecord.id = s.idsOf deployment := by
  rw [recordsOf, List.map_map]
  rfl

theorem resourcesOf_insert (s : Store) (uuid : String) (d : StoredDeployment) (last : Int)
    (deployment : String) :
    resourcesOf ⟨s.deployments.insert uuid d, last⟩ deployment =
      if deployment = uuid then d.resources else s.resourcesOf deployment := by
  rw [resourcesOf, KeyMap.find?_insert]
  split <;> rfl

theorem resourcesOf_erase (s : Store) (uuid : String) (last : Int) (deployment : String) :
    resourcesOf ⟨s.deployments.erase uuid, last⟩ deployment =
      if deployment = uuid then [] else s.resourcesOf deployment := by
  rw [resourcesOf, KeyMap.find?_erase]
  split <;> rfl

theorem resourcesOf_remove (s : Store) (id : Int) (deployment : String) :
    resourcesOf { s with deployments := s.deployments.map fun d =>
      { d with resources := d.resources.filter fun r => r.id ≠ id } } deployment =
      (s.resourcesOf deployment).filter fun r => r.id ≠ id := by
  rw [resourcesOf, resourcesOf, KeyMap.find?_map]
  cases s.deployments.find? deployment <;> rfl

theorem Write.lastId (h : Write P s t) : t.lastId = s.lastId := by
  obtain ⟨scope, f, -, ht⟩ := h
  cases scope with
  | deployment uuid =>
    obtain ⟨d, -, rfl⟩ := Option.map_eq_some_iff.mp ht
    rfl
  | resource i =>
    rw [changeAttributes?] at ht
    split at ht
    · cases ht
      rfl
    · cases ht

/-- The records of a deployment whose resource may have got another name. -/
theorem map_rename_record (deployment source target : String) (resources : List StoredResource) :
    (resources.map fun r => if r.name = source then { r with name := target } else r).map
        (StoredResource.record · deployment) =
      (resources.map (StoredResource.record · deployment)).map fun r =>
        if r.name = source then { r with name := target } else r := by
  rw [List.map_map, List.map_map]
  refine List.map_congr_left fun r _ => ?_
  by_cases hr : r.name = source <;> simp [StoredResource.record, hr]

/-- A step takes records away, adds one with the next id under a new name, or gives one a new
name. -/
theorem Step.records (h : Step P s t) :
    (t.lastId = s.lastId ∧
      ∀ deployment, (t.recordsOf deployment).Sublist (s.recordsOf deployment)) ∨
    (∃ home name resourceType, name ∉ s.namesOf home ∧ t.lastId = s.lastId + 1 ∧
      t.recordsOf = Function.update s.recordsOf home
        (s.recordsOf home ++ [⟨s.lastId + 1, home, name, resourceType⟩])) ∨
    ∃ home source target, target ∉ s.namesOf home ∧ t.lastId = s.lastId ∧
      t.recordsOf = Function.update s.recordsOf home ((s.recordsOf home).map fun r =>
        if r.name = source then { r with name := target } else r) := by
  cases h with
  | create hnew =>
    refine Or.inl ⟨rfl, fun deployment => ?_⟩
    rw [recordsOf, resourcesOf_insert]
    split
    · exact List.nil_sublist _
    · exact .refl _
  | purge uuid =>
    refine Or.inl ⟨rfl, fun deployment => ?_⟩
    rw [recordsOf, resourcesOf_erase]
    split
    · exact List.nil_sublist _
    · exact .refl _
  | @add home name resourceType d hd hnew =>
    refine Or.inr (Or.inl ⟨home, name, resourceType, hnew, rfl, ?_⟩)
    funext deployment
    rw [recordsOf, addResource, resourcesOf_insert, Function.update_apply]
    split
    · rename_i hhome
      rw [hhome, recordsOf, resourcesOf_of_find hd, List.map_append]
      rfl
    · rfl
  | @rename home target source d hd hnew =>
    refine Or.inr (Or.inr ⟨home, source, target, hnew, rfl, ?_⟩)
    funext deployment
    rw [recordsOf, resourcesOf_insert, Function.update_apply]
    split
    · rename_i hhome
      rw [hhome, recordsOf, resourcesOf_of_find hd, map_rename_record]
    · rfl
  | remove id =>
    refine Or.inl ⟨rfl, fun deployment => ?_⟩
    rw [recordsOf, resourcesOf_remove]
    exact List.filter_sublist.map _
  | write h => exact Or.inl ⟨h.lastId, fun deployment => by rw [h.records]⟩

/-- A step takes ids away, or gives the next one. -/
theorem Step.idsOf (h : Step P s t) :
    (t.lastId = s.lastId ∧ ∀ deployment, (t.idsOf deployment).Sublist (s.idsOf deployment)) ∨
    ∃ home, t.lastId = s.lastId + 1 ∧
      t.idsOf = Function.update s.idsOf home (s.idsOf home ++ [s.lastId + 1]) := by
  simp only [funext_iff, ← map_id_recordsOf]
  rcases h.records with ⟨hlast, hsub⟩ | ⟨home, name, resourceType, -, hlast, hrecords⟩ |
    ⟨home, source, target, -, hlast, hrecords⟩
  · exact Or.inl ⟨hlast, fun deployment => (hsub deployment).map _⟩
  · refine Or.inr ⟨home, hlast, fun deployment => ?_⟩
    rw [hrecords, Function.update_apply, Function.update_apply]
    split
    · rw [List.map_append]
      rfl
    · exact map_id_recordsOf ..
  · refine Or.inl ⟨hlast, fun deployment => ?_⟩
    rw [hrecords, Function.update_apply]
    split
    · rename_i hhome
      have hid : ∀ r : ResourceRecord,
          (if r.name = source then { r with name := target } else r).id = r.id :=
        fun r => by split <;> rfl
      simp [hhome, List.map_map, Function.comp_def, hid]
    · exact .refl _

/-- Names that are distinct stay so when one is replaced by a new one. -/
theorem nodup_map_replace {names : List String} (h : names.Nodup) {source target : String}
    (hnew : target ∉ names) :
    (names.map fun name => if name = source then target else name).Nodup := by
  refine h.map_on fun x hx y hy hxy => ?_
  split at hxy <;> split at hxy
  · rename_i hx' hy'
    exact hx'.trans hy'.symm
  · exact absurd (hxy ▸ hy) hnew
  · exact absurd (hxy ▸ hx) hnew
  · exact hxy

/-- Names within a deployment stay distinct. -/
theorem Step.nodup_namesOf (h : Step P s t) (hs : ∀ deployment, (s.namesOf deployment).Nodup)
    (deployment : String) : (t.namesOf deployment).Nodup := by
  simp only [← map_name_recordsOf] at hs ⊢
  rcases h.records with ⟨-, hsub⟩ | ⟨home, name, resourceType, hnew, -, hrecords⟩ |
    ⟨home, source, target, hnew, -, hrecords⟩
  · exact (hs deployment).sublist ((hsub deployment).map _)
  · rw [hrecords, Function.update_apply]
    rw [← map_name_recordsOf] at hnew
    split
    · rw [List.map_append]
      exact List.concat_eq_append ▸ (hs home).concat hnew
    · exact hs deployment
  · rw [hrecords, Function.update_apply]
    rw [← map_name_recordsOf] at hnew
    split
    · have hnames : ((s.recordsOf home).map fun r =>
          if r.name = source then { r with name := target } else r).map ResourceRecord.name =
          ((s.recordsOf home).map ResourceRecord.name).map fun name =>
            if name = source then target else name := by
        rw [List.map_map, List.map_map]
        refine List.map_congr_left fun r _ => ?_
        by_cases hr : r.name = source <;> simp [hr]
      rw [hnames]
      exact nodup_map_replace (hs home) hnew
    · exact hs deployment

/-- Every text of a map satisfies `P`. -/
def MapTexts (P : String → Prop) (m : KeyMap String) : Prop :=
  ∀ key text, m.find? key = some text → P text

structure DeploymentTexts (P : String → Prop) (d : StoredDeployment) : Prop where
  own : MapTexts P d.attributes
  resources : ∀ r ∈ d.resources, MapTexts P r.attributes

def Texts (P : String → Prop) (s : Store) : Prop :=
  ∀ uuid d, s.deployments.find? uuid = some d → DeploymentTexts P d

theorem mapTexts_empty : MapTexts P .empty := fun _ _ h => by cases h

theorem Texts.insert {uuid : String} {d : StoredDeployment} (h : s.Texts P)
    (hd : DeploymentTexts P d) (last : Int) :
    Texts P ⟨s.deployments.insert uuid d, last⟩ := by
  intro other found hfound
  rw [KeyMap.find?_insert] at hfound
  split at hfound
  · exact Option.some.inj hfound ▸ hd
  · exact h other found hfound

theorem Texts.map {f : StoredDeployment → StoredDeployment} (h : s.Texts P)
    (hf : ∀ d, DeploymentTexts P d → DeploymentTexts P (f d)) :
    Texts P { s with deployments := s.deployments.map f } := by
  intro uuid found hfound
  rw [KeyMap.find?_map] at hfound
  obtain ⟨d, hd, rfl⟩ := Option.map_eq_some_iff.mp hfound
  exact hf d (h uuid d hd)

theorem Write.texts (h : Write P s t) (hs : s.Texts P) : t.Texts P := by
  obtain ⟨scope, f, hf, ht⟩ := h
  have hchange : ∀ m, MapTexts P m → MapTexts P (f m) := fun m hm key text htext =>
    (hf m key text htext).elim (hm key text) fun htext => htext
  cases scope with
  | deployment uuid =>
    obtain ⟨d, hd, rfl⟩ := Option.map_eq_some_iff.mp ht
    have hold := hs uuid d hd
    have hnew : DeploymentTexts P { d with attributes := f d.attributes } :=
      ⟨hchange _ hold.own, hold.resources⟩
    exact hs.insert hnew _
  | resource i =>
    rw [changeAttributes?] at ht
    split at ht
    · cases ht
      refine hs.map fun d hd => ⟨hd.own, fun r hr => ?_⟩
      obtain ⟨old, hold, rfl⟩ := List.mem_map.mp hr
      split
      · exact hchange _ (hd.resources old hold)
      · exact hd.resources old hold
    · cases ht

/-- Only permitted texts are written. -/
theorem Step.texts (h : Step P s t) (hs : s.Texts P) : t.Texts P := by
  cases h with
  | create hnew => exact hs.insert ⟨mapTexts_empty, fun _ hr => absurd hr List.not_mem_nil⟩ _
  | purge uuid =>
    intro other d hd
    rw [KeyMap.find?_erase] at hd
    split at hd
    · cases hd
    · exact hs other d hd
  | @add home name resourceType d hd hnew =>
    have hold := hs home d hd
    have hadded : DeploymentTexts P { d with
        resources := d.resources ++ [⟨s.lastId + 1, name, resourceType, .empty⟩] } := by
      refine ⟨hold.own, fun r hr => ?_⟩
      rcases List.mem_append.mp hr with hr | hr
      · exact hold.resources r hr
      · obtain rfl := List.mem_singleton.mp hr
        exact mapTexts_empty
    exact hs.insert hadded _
  | @rename home target source d hd hnew =>
    have hold := hs home d hd
    have hrenamed : DeploymentTexts P { d with resources := d.resources.map fun r =>
        if r.name = source then { r with name := target } else r } := by
      refine ⟨hold.own, fun r hr => ?_⟩
      obtain ⟨old, hmem, rfl⟩ := List.mem_map.mp hr
      split
      · exact hold.resources old hmem
      · exact hold.resources old hmem
    exact hs.insert hrenamed _
  | remove id =>
    exact hs.map fun d hd => ⟨hd.own, fun r hr => hd.resources r (List.mem_of_mem_filter hr)⟩
  | write h => exact h.texts hs

/-- The ids, names and texts of a store are in order. -/
structure Coherent (P : String → Prop) (s : Store) : Prop where
  ascending : ∀ deployment, (s.idsOf deployment).Pairwise (· < ·)
  apart : ∀ {deployment other i}, i ∈ s.idsOf deployment → i ∈ s.idsOf other → deployment = other
  bounded : ∀ {deployment i}, i ∈ s.idsOf deployment → i ≤ s.lastId
  names : ∀ deployment, (s.namesOf deployment).Nodup
  texts : s.Texts P

/-- A store without deployments is coherent, whatever ids were given. -/
theorem coherent_of_empty (h : s.deployments = .empty) : Coherent P s := by
  have hresources : ∀ deployment, s.resourcesOf deployment = [] := fun deployment => by
    rw [resourcesOf, h]
    rfl
  have hids : ∀ {deployment i}, i ∉ s.idsOf deployment := fun {deployment i} hi => by
    rw [Store.idsOf, hresources] at hi
    cases hi
  refine ⟨fun deployment => ?_, fun hi => (hids hi).elim, fun hi => (hids hi).elim,
    fun deployment => ?_, fun uuid d hd => ?_⟩
  · rw [Store.idsOf, hresources]
    exact .nil
  · rw [Store.namesOf, hresources]
    exact .nil
  · rw [h] at hd
    cases hd

/-- A step keeps a store coherent. -/
theorem Step.coherent (h : Step P s t) (hs : Coherent P s) : Coherent P t := by
  have hnames := h.nodup_namesOf hs.names
  have htexts := h.texts hs.texts
  rcases h.idsOf with ⟨hlast, hsub⟩ | ⟨home, hlast, hids⟩
  · exact ⟨fun deployment => (hs.ascending deployment).sublist (hsub deployment),
      fun hi hj => hs.apart ((hsub _).subset hi) ((hsub _).subset hj),
      fun hi => hlast ▸ hs.bounded ((hsub _).subset hi), hnames, htexts⟩
  -- every id but the new one was there before
  have hold : ∀ {deployment i}, i ∈ t.idsOf deployment →
      i ∈ s.idsOf deployment ∨ i = s.lastId + 1 ∧ deployment = home := by
    intro deployment i hi
    rw [hids, Function.update_apply] at hi
    split at hi
    · rename_i hhome
      rcases List.mem_append.mp hi with hi | hi
      · exact Or.inl (hhome ▸ hi)
      · exact Or.inr ⟨List.mem_singleton.mp hi, hhome⟩
    · exact Or.inl hi
  have hbound : ∀ {deployment}, s.lastId + 1 ∉ s.idsOf deployment := fun hi => by
    have := hs.bounded hi
    omega
  refine ⟨fun deployment => ?_, fun hi hj => ?_, fun hi => ?_, hnames, htexts⟩
  · rw [hids, Function.update_apply]
    split
    · refine List.pairwise_append.mpr ⟨hs.ascending home, List.pairwise_singleton _ _, ?_⟩
      intro i hi j hj
      have := hs.bounded hi
      have := List.mem_singleton.mp hj
      omega
    · exact hs.ascending deployment
  · rcases hold hi with hi | ⟨rfl, hhome⟩ <;> rcases hold hj with hj | ⟨hj, hhome'⟩
    · exact hs.apart hi hj
    · exact absurd (hj ▸ hi) hbound
    · exact absurd hj hbound
    · rw [hhome, hhome']
  · rw [hlast]
    rcases hold hi with hi | ⟨rfl, -⟩
    · have := hs.bounded hi
      omega
    · exact Int.le_refl _

theorem Reaches.coherent (h : Reaches P s t) (hs : Coherent P s) : Coherent P t := by
  induction h with
  | refl => exact hs
  | tail _ hstep ih => exact hstep.coherent ih

end DesiredState.Store
