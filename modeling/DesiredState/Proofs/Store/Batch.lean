import DesiredState.Proofs.Store.Depth

/-!
# Batches of snapshots

Several snapshots are restored just if their UUIDs are distinct and new. Each then stands in the
store as it is, but for its nulls, beside everything that was there. Otherwise the first UUID that
is taken already is named, and nothing is left of the batch.
-/

namespace DesiredState

open DesiredState.Action

/-- Running through more members goes on where the first ones have led. -/
theorem Action.run_forEach_append {σ ε α : Type} {f : α → Action σ ε Unit} {xs : List α} {s t : σ}
    (h : (forEach f xs).run s = (.ok (), t)) (ys : List α) :
    (forEach f (xs ++ ys)).run s = (forEach f ys).run t := by
  induction xs generalizing s with
  | nil =>
    cases h
    rfl
  | cons x xs ih =>
    obtain ⟨outcome, u, hx⟩ : ∃ outcome u, (f x).run s = (outcome, u) := ⟨_, _, rfl⟩
    cases outcome with
    | error e => cases h.symm.trans (run_bind_error hx)
    | ok x => exact (run_bind_ok hx).trans (ih ((run_bind_ok hx).symm.trans h))

namespace Store

variable {s t : Store} {uuids : List String} {uuid : String} {snapshot : Snapshot}
  {snapshots : List Snapshot}

/-- The UUIDs are distinct, and no deployment has one of them. -/
structure Fresh (s : Store) (uuids : List String) : Prop where
  nodup : uuids.Nodup
  absent : ∀ uuid ∈ uuids, uuid ∉ s.deploymentRows

/-- The first of the UUIDs that a deployment has or that repeats an earlier one. -/
def FirstTaken (s : Store) (uuids : List String) (uuid : String) : Prop :=
  ∃ before after, uuids = before ++ uuid :: after ∧ s.Fresh before ∧
    (uuid ∈ s.deploymentRows ∨ uuid ∈ before)

theorem fresh_or_firstTaken (s : Store) (uuids : List String) :
    s.Fresh uuids ∨ ∃ uuid, s.FirstTaken uuids uuid := by
  induction uuids using List.reverseRecOn with
  | nil => exact Or.inl ⟨List.nodup_nil, fun _ hm => absurd hm List.not_mem_nil⟩
  | append_singleton uuids uuid ih =>
    rcases ih with hfresh | ⟨other, before, after, rfl, hfirst⟩
    · by_cases htaken : uuid ∈ s.deploymentRows ∨ uuid ∈ uuids
      · exact Or.inr ⟨uuid, uuids, [], rfl, hfresh, htaken⟩
      obtain ⟨hrow, hrepeated⟩ := not_or.mp htaken
      refine Or.inl ⟨List.concat_eq_append ▸ hfresh.nodup.concat hrepeated, fun other hm => ?_⟩
      rcases List.mem_append.mp hm with hm | hm
      · exact hfresh.absent other hm
      · exact List.mem_singleton.mp hm ▸ hrow
    · exact Or.inr ⟨other, before, after ++ [uuid], by simp, hfirst⟩

/-- The deployment of a snapshot has the texts of its values but the nulls. -/
def RestoredFrom (snapshot : Snapshot) (t : Store) : Prop :=
  ∃ resources, List.Forall₂ Restored snapshot.withoutNull.resources.entries resources ∧
    t.deployments.find? snapshot.uuid =
      some ⟨snapshot.withoutNull.attributes.map Json.render, resources⟩

/-- The deployments of the snapshots are restored, and every other one is as it was. -/
structure GrowsBy (s : Store) (snapshots : List Snapshot) (t : Store) : Prop where
  others : ∀ uuid, uuid ∉ snapshots.map Snapshot.uuid →
    t.deployments.find? uuid = s.deployments.find? uuid
  restored : ∀ snapshot ∈ snapshots, RestoredFrom snapshot t

theorem GrowsBy.mem_deploymentRows_iff (h : s.GrowsBy snapshots t) :
    uuid ∈ t.deploymentRows ↔ uuid ∈ s.deploymentRows ∨ uuid ∈ snapshots.map Snapshot.uuid := by
  by_cases hm : uuid ∈ snapshots.map Snapshot.uuid
  · obtain ⟨snapshot, hmem, rfl⟩ := List.mem_map.mp hm
    obtain ⟨resources, -, hfound⟩ := h.restored snapshot hmem
    exact iff_of_true (Store.mem_deploymentRows_iff.mpr ⟨_, hfound⟩) (Or.inr hm)
  · rw [or_iff_left hm, Store.mem_deploymentRows_iff, Store.mem_deploymentRows_iff,
      h.others uuid hm]

/-- A deployment that was there has the snapshot that it had. -/
theorem GrowsBy.run_exportDeployment_old (h : s.GrowsBy snapshots t)
    (hm : uuid ∉ snapshots.map Snapshot.uuid) :
    ((exportDeployment uuid).run t).1 = ((exportDeployment uuid).run s).1 := by
  rw [exportDeployment, run_reading, run_reading, h.others uuid hm]

theorem GrowsBy.run_exportDeployment_iff (h : s.GrowsBy snapshots t) (hm : snapshot ∈ snapshots) :
    (exportDeployment snapshot.uuid).run t = (.ok snapshot.withoutNull, t) ↔
      ∀ v ∈ snapshot.withoutNull.values, Faithful v := by
  obtain ⟨resources, hrestored, hfound⟩ := h.restored snapshot hm
  rw [exportDeployment, run_reading, hfound, ← snapshotOf_restored_iff hrestored]
  exact ⟨congrArg Prod.fst, congrArg (·, t)⟩

theorem tooDeep_render_iff {v : Json} (hp : v.plain = true) :
    TooDeep v.render ↔ Json.maxDepth < v.depth := by
  refine ⟨fun ⟨w, hw, hdeep, htext⟩ => Nat.lt_of_not_le fun hd => ?_, fun h => ⟨v, hp, h, rfl⟩⟩
  have hread : decodeText w.render = .ok v := by rw [← htext, decodeText_plain hp, if_pos hd]
  rw [decodeText_plain hw, if_neg (Nat.not_le.mpr hdeep)] at hread
  cases hread

theorem mapTexts_render {values : KeyMap Json} (hp : ∀ v ∈ values.values, v.plain = true) :
    MapTexts Written (values.map Json.render) := by
  intro key text hfound
  rw [KeyMap.find?_map] at hfound
  obtain ⟨v, hv, rfl⟩ := Option.map_eq_some_iff.mp hfound
  exact ⟨v, hp v (List.mem_map_of_mem (KeyMap.find?_eq_some_iff.mp hv)), rfl⟩

theorem exists_tooDeep_iff {values : KeyMap Json} (hp : ∀ v ∈ values.values, v.plain = true) :
    (∃ key text, (values.map Json.render).find? key = some text ∧ TooDeep text) ↔
      ∃ v ∈ values.values, Json.maxDepth < v.depth := by
  constructor
  · rintro ⟨key, text, hfound, hdeep⟩
    rw [KeyMap.find?_map] at hfound
    obtain ⟨v, hv, rfl⟩ := Option.map_eq_some_iff.mp hfound
    have hmem : v ∈ values.values := List.mem_map_of_mem (KeyMap.find?_eq_some_iff.mp hv)
    exact ⟨v, hmem, (tooDeep_render_iff (hp v hmem)).mp hdeep⟩
  · rintro ⟨v, hmem, hdeep⟩
    obtain ⟨entry, he, rfl⟩ := List.mem_map.mp hmem
    refine ⟨entry.1, entry.2.render, ?_, (tooDeep_render_iff (hp _ hmem)).mpr hdeep⟩
    rw [KeyMap.find?_map, KeyMap.find?_eq_some_iff.mpr he, Option.map_some]

theorem mem_of_restored {entries : List (String × ResourceSnapshot)}
    {resources : List StoredResource} (h : List.Forall₂ Restored entries resources) :
    (∀ r ∈ resources, ∃ entry ∈ entries, Restored entry r) ∧
      ∀ entry ∈ entries, ∃ r ∈ resources, Restored entry r := by
  induction h with
  | nil => simp
  | @cons entry r entries resources hr _ ih =>
    refine ⟨fun other ho => ?_, fun other ho => ?_⟩
    · rcases List.mem_cons.mp ho with rfl | ho
      · exact ⟨entry, List.mem_cons_self, hr⟩
      · exact (ih.1 other ho).imp fun _ h => ⟨List.mem_cons_of_mem _ h.1, h.2⟩
    · rcases List.mem_cons.mp ho with rfl | ho
      · exact ⟨r, List.mem_cons_self, hr⟩
      · exact (ih.2 other ho).imp fun _ h => ⟨List.mem_cons_of_mem _ h.1, h.2⟩

/-- The snapshot of what was restored from plain values hinges on how deeply they are nested. -/
theorem RestoredFrom.exportDeployment_hinges (h : RestoredFrom snapshot t)
    (hp : ∀ v ∈ snapshot.withoutNull.values, v.plain = true) :
    Hinges (∃ v ∈ snapshot.withoutNull.values, Json.maxDepth < v.depth) unreadable
      ((exportDeployment snapshot.uuid).run t).1 := by
  obtain ⟨resources, hrestored, hfound⟩ := h
  obtain ⟨hback, hforth⟩ := mem_of_restored hrestored
  have hown := fun v hv => hp v (List.mem_append_left _ hv)
  have heach : ∀ entry ∈ snapshot.withoutNull.resources.entries,
      ∀ v ∈ entry.2.attributes.values, v.plain = true := fun entry he v hv =>
    hp v (List.mem_append_right _ (List.mem_flatMap.mpr ⟨entry.2, List.mem_map_of_mem he, hv⟩))
  have htexts : DeploymentTexts Written
      ⟨snapshot.withoutNull.attributes.map Json.render, resources⟩ := by
    refine ⟨mapTexts_render hown, fun r hr => ?_⟩
    obtain ⟨entry, he, -, -, hattributes⟩ := hback r hr
    exact hattributes ▸ mapTexts_render (heach entry he)
  rw [exportDeployment, run_reading, hfound]
  refine (snapshotOf_hinges htexts).congr ?_
  rw [or_false, exists_tooDeep_iff hown]
  constructor
  · rintro (⟨v, hv, hdeep⟩ | ⟨r, hr, hdeep⟩)
    · exact ⟨v, List.mem_append_left _ hv, hdeep⟩
    · obtain ⟨entry, he, -, -, hattributes⟩ := hback r hr
      rw [hattributes, exists_tooDeep_iff (heach entry he)] at hdeep
      obtain ⟨v, hv, hdeep⟩ := hdeep
      exact ⟨v, List.mem_append_right _ (List.mem_flatMap.mpr
        ⟨entry.2, List.mem_map_of_mem he, hv⟩), hdeep⟩
  · rintro ⟨v, hv, hdeep⟩
    rcases List.mem_append.mp hv with hv | hv
    · exact Or.inl ⟨v, hv, hdeep⟩
    · obtain ⟨_, hmem, hv⟩ := List.mem_flatMap.mp hv
      obtain ⟨entry, he, rfl⟩ := List.mem_map.mp hmem
      obtain ⟨r, hr, -, -, hattributes⟩ := hforth entry he
      refine Or.inr ⟨r, hr, ?_⟩
      rw [hattributes, exists_tooDeep_iff (heach entry he)]
      exact ⟨v, hv, hdeep⟩

theorem find?_of_not_mem (h : uuid ∉ s.deploymentRows) : s.deployments.find? uuid = none := by
  rw [mem_deploymentRows_iff, not_exists] at h
  exact Option.eq_none_iff_forall_ne_some.mpr h

/-- Restoring a new deployment in front of a batch adds both. -/
theorem GrowsBy.cons {u : Store} {resources : List StoredResource}
    (hrestored : List.Forall₂ Restored snapshot.withoutNull.resources.entries resources)
    (hdeployments : t.deployments = s.deployments.insert snapshot.uuid
      ⟨snapshot.withoutNull.attributes.map Json.render, resources⟩)
    (hnot : snapshot.uuid ∉ snapshots.map Snapshot.uuid) (h : t.GrowsBy snapshots u) :
    s.GrowsBy (snapshot :: snapshots) u := by
  refine ⟨fun uuid hm => ?_, fun other ho => ?_⟩
  · rw [List.map_cons, List.mem_cons, not_or] at hm
    rw [h.others uuid hm.2, hdeployments, KeyMap.find?_insert_ne hm.1]
  · rcases List.mem_cons.mp ho with rfl | ho
    · exact ⟨resources, hrestored, by rw [h.others _ hnot, hdeployments, KeyMap.find?_insert_self]⟩
    · exact h.restored other ho

/-- A batch of new deployments is restored. -/
theorem run_forEach_restore_fresh (hs : s.IdsBounded)
    (h : s.Fresh (snapshots.map Snapshot.uuid)) :
    ∃ t, (forEach restore snapshots).run s = (.ok (), t) ∧ s.GrowsBy snapshots t := by
  induction snapshots generalizing s with
  | nil => exact ⟨s, rfl, fun _ _ => rfl, fun _ hm => absurd hm List.not_mem_nil⟩
  | cons snapshot rest ih =>
    obtain ⟨hnot, hrest⟩ := List.nodup_cons.mp h.nodup
    have hnone := find?_of_not_mem (h.absent snapshot.uuid List.mem_cons_self)
    obtain ⟨resources, t, hrun, ht, hrestored, hdeployments⟩ := run_restore hnone hs
    have hfresh : t.Fresh (rest.map Snapshot.uuid) := by
      refine ⟨hrest, fun uuid hm => ?_⟩
      have hne : uuid ≠ snapshot.uuid := fun he => hnot (he ▸ hm)
      have habsent := h.absent uuid (List.mem_cons_of_mem _ hm)
      rw [mem_deploymentRows_iff] at habsent ⊢
      rwa [hdeployments, KeyMap.find?_insert_ne hne]
    obtain ⟨u, hothers, hgrows⟩ := ih ht hfresh
    exact ⟨u, (run_bind_ok hrun).trans hothers, .cons hrestored hdeployments hnot hgrows⟩

theorem run_restore_taken (h : snapshot.uuid ∈ s.deploymentRows) :
    (restore snapshot).run s = (.error (.deploymentExists snapshot.uuid), s) := by
  have hhas : s.hasDeployment snapshot.uuid = true := by
    obtain ⟨d, hd⟩ := mem_deploymentRows_iff.mp h
    rw [hasDeployment, KeyMap.contains, hd]
    rfl
  exact run_bind_error (by unfold run createDeployment; rw [if_pos hhas])

theorem run_importDeployments_fresh (hs : s.IdsBounded)
    (h : s.Fresh (snapshots.map Snapshot.uuid)) :
    ∃ t, (importDeployments snapshots).run s = (.ok (snapshots.map Snapshot.uuid), t) ∧
      s.GrowsBy snapshots t := by
  obtain ⟨t, hrun, hgrows⟩ := run_forEach_restore_fresh hs h
  refine ⟨t, ?_, hgrows⟩
  rw [importDeployments, run_transaction, run_bind_ok hrun]
  rfl

theorem run_importDeployments_taken (hs : s.IdsBounded)
    (h : s.FirstTaken (snapshots.map Snapshot.uuid) uuid) :
    (importDeployments snapshots).run s = (.error (.deploymentExists uuid), s) := by
  obtain ⟨before, after, hsplit, hfresh, htaken⟩ := h
  obtain ⟨earlier, later, rfl, rfl, hlater⟩ := List.map_eq_append_iff.mp hsplit
  obtain ⟨snapshot, rest, rfl, rfl, -⟩ := List.map_eq_cons_iff.mp hlater
  obtain ⟨t, hrun, hgrows⟩ := run_forEach_restore_fresh hs hfresh
  have hstop := run_restore_taken (hgrows.mem_deploymentRows_iff.mpr htaken)
  have hall : (forEach restore (earlier ++ snapshot :: rest)).run s =
      (.error (.deploymentExists snapshot.uuid), t) :=
    (run_forEach_append hrun _).trans (run_bind_error hstop)
  rw [importDeployments, run_transaction, run_bind_error hall]

end Store

end DesiredState
