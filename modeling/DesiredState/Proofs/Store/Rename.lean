import DesiredState.Proofs.Store.Rows

/-!
# Another name for a resource

Within a deployment a name stands for at most one resource, so an update that selects rows by their
name changes one row. The row keeps its place, its id and everything that belongs to it, no other
row changes, and the update with the two names exchanged is its inverse.
-/

namespace DesiredState

/-- Putting a value where there is one changes that entry in its place. -/
theorem insertEntry_of_find_split {α : Type} {key : String} {old : α} (value : α)
    {entries : List (String × α)} (h : Ascending entries)
    (hf : findEntry key entries = some old) :
    ∃ before after, entries = before ++ (key, old) :: after ∧
      insertEntry key value entries = before ++ (key, value) :: after := by
  induction entries with
  | nil => cases hf
  | cons head rest ih =>
    obtain ⟨k, v⟩ := head
    rw [findEntry] at hf
    split at hf
    · rename_i hk
      subst hk
      obtain rfl := Option.some.inj hf
      exact ⟨[], rest, rfl, by simp [insertEntry]⟩
    · rename_i hk
      obtain ⟨hlt, hrest⟩ := List.pairwise_cons.mp h
      obtain ⟨before, after, hsplit, hinsert⟩ := ih hrest hf
      have hnot : ¬ key < k := String.lt_asymm (hlt _ (mem_of_findEntry hf))
      refine ⟨(k, v) :: before, after, by rw [hsplit, List.cons_append], ?_⟩
      rw [insertEntry, if_neg hnot, if_neg (Ne.symm hk), hinsert, List.cons_append]

namespace Store

variable {s t : Store} {deployment target : String} {r : StoredResource}

/-- The store with one deployment recorded as given. -/
def withDeployment (s : Store) (uuid : String) (d : StoredDeployment) : Store :=
  { s with deployments := s.deployments.insert uuid d }

theorem find?_withDeployment (s : Store) (uuid : String) (d : StoredDeployment) :
    (s.withDeployment uuid d).deployments.find? uuid = some d := KeyMap.find?_insert_self ..

theorem entries_withDeployment {uuid : String} {old : StoredDeployment}
    (hd : s.deployments.find? uuid = some old) (d : StoredDeployment) : ∃ front rest,
      s.deployments.entries = front ++ (uuid, old) :: rest ∧
      (s.withDeployment uuid d).deployments.entries = front ++ (uuid, d) :: rest :=
  insertEntry_of_find_split d s.deployments.ascending hd

/-- What is put back as it was has not changed. -/
theorem withDeployment_withDeployment {uuid : String} {d : StoredDeployment}
    (hd : s.deployments.find? uuid = some d) (other : StoredDeployment) :
    (s.withDeployment uuid other).withDeployment uuid d = s := by
  simp only [withDeployment, KeyMap.insert_insert, KeyMap.insert_of_find? hd]

/-- A resource of a deployment, the only one with its name, gets a name that none has there. -/
inductive Retitles (deployment : String) (r : StoredResource) (target : String) (s : Store) :
    Store → Prop where
  | intro {attributes : KeyMap String} {before after : List StoredResource}
      (hd : s.deployments.find? deployment = some ⟨attributes, before ++ r :: after⟩)
      (hne : r.name ≠ target)
      (hothers : ∀ other ∈ before ++ after, other.name ≠ r.name ∧ other.name ≠ target) :
      Retitles deployment r target s (s.withDeployment deployment
        ⟨attributes, before ++ { r with name := target } :: after⟩)

namespace Retitles

/-- The same is said of the old name and of the new one. -/
theorem symm (h : Retitles deployment r target s t) :
    Retitles deployment { r with name := target } r.name t s := by
  obtain @⟨attributes, before, after, hd, hne, hothers⟩ := h
  have hagain : Retitles deployment { r with name := target } r.name _
      (Store.withDeployment _ deployment ⟨attributes, before ++ r :: after⟩) :=
    intro (find?_withDeployment s deployment _) hne.symm fun other ho => (hothers other ho).symm
  rwa [withDeployment_withDeployment hd] at hagain

theorem resourceNamed? (h : Retitles deployment r target s t) :
    s.resourceNamed? deployment r.name = some r := by
  obtain ⟨hd, -, hothers⟩ := h
  rw [Store.resourceNamed?, resourcesOf_of_find hd, List.find?_append, List.find?_eq_none.mpr,
    Option.none_or, List.find?_cons_of_pos (by simp)]
  exact fun other ho => by simpa using (hothers other (List.mem_append_left _ ho)).1

theorem resourceNamed?_target (h : Retitles deployment r target s t) :
    s.resourceNamed? deployment target = none := by
  obtain ⟨hd, hne, hothers⟩ := h
  rw [Store.resourceNamed?, resourcesOf_of_find hd, List.find?_eq_none]
  intro other ho
  rcases List.mem_append.mp ho with ho | ho
  · simpa using (hothers other (List.mem_append_left _ ho)).2
  · rcases List.mem_cons.mp ho with rfl | ho
    · simpa using hne
    · simpa using (hothers other (List.mem_append_right _ ho)).2

/-- The update reaches the one record with the old name. -/
theorem run (h : Retitles deployment r target s t) :
    (renameResource deployment r.name target).run s = (.ok (), t) := by
  have hfound := h.resourceNamed?
  have hfree := h.resourceNamed?_target
  obtain ⟨hd, -, hothers⟩ := h
  have hsame : ∀ others : List StoredResource, (∀ other ∈ others, other.name ≠ r.name) →
      others.map (fun other => if other.name = r.name then { other with name := target } else other)
        = others := by
    intro others hne
    exact (List.map_congr_left fun other ho => if_neg (hne other ho)).trans (List.map_id' _)
  unfold Action.run renameResource
  simp only [hfree, hfound, hd, Option.isSome_none, Bool.false_eq_true, if_false, List.map_append,
    List.map_cons, if_true]
  rw [hsame _ fun other ho => (hothers other (List.mem_append_left _ ho)).1,
    hsame _ fun other ho => (hothers other (List.mem_append_right _ ho)).1, withDeployment]

theorem reaches {P : String → Prop} (h : Retitles deployment r target s t) : Reaches P s t := by
  have hkeeps := renameResource_keeps (P := P) deployment r.name target s
  rwa [h.run] at hkeeps

end Retitles

/-- Where names are distinct, one that is in use can be exchanged for one that is not. -/
theorem exists_retitles {source : String} (hnames : (s.namesOf deployment).Nodup)
    (hsource : source ∈ s.namesOf deployment) (htarget : target ∉ s.namesOf deployment) :
    ∃ r t, r.name = source ∧ Retitles deployment r target s t := by
  cases hd : s.deployments.find? deployment with
  | none =>
    rw [namesOf, resourcesOf, hd] at hsource
    cases hsource
  | some d =>
    rw [namesOf, resourcesOf_of_find hd] at hnames hsource htarget
    obtain ⟨r, hr, rfl⟩ := List.mem_map.mp hsource
    obtain ⟨attributes, resources⟩ := d
    obtain ⟨before, after, rfl⟩ := List.append_of_mem hr
    rw [List.map_append, List.map_cons, List.nodup_middle, List.nodup_cons, ← List.map_append]
      at hnames
    refine ⟨r, _, rfl, .intro hd (fun he => htarget (he ▸ hsource)) fun other ho => ⟨?_, ?_⟩⟩
    · exact fun he => hnames.1 (he ▸ List.mem_map_of_mem ho)
    · have hmem : other ∈ before ++ r :: after := List.mem_append.mpr
        ((List.mem_append.mp ho).imp_right (List.mem_cons_of_mem r))
      exact fun he => htarget (he ▸ List.mem_map_of_mem hmem)

/-- One record has another name. What else a store consists of is the same: which deployments there
are, their other resources, the order of all of them, every attribute, and the id given last. -/
structure Renamed (record : ResourceRecord) (target : String) (s t : Store) : Prop where
  rows : ∃ before after, s.resourceRows = before ++ record :: after ∧
    t.resourceRows = before ++ { record with name := target } :: after
  deployments : t.deploymentRows = s.deploymentRows
  attributes : t.attributeRows = s.attributeRows
  lastId : t.lastId = s.lastId
  readings : ∀ owner key, t.textOf? owner key = s.textOf? owner key
  /-- The record keeps its place among those of its deployment. -/
  listed : ∃ before after,
    (listResources record.deployment).run s = (.ok (before ++ record :: after), s) ∧
    (listResources record.deployment).run t =
      (.ok (before ++ { record with name := target } :: after), t)
  others : ∀ other, other ≠ record.deployment → t.recordsOf other = s.recordsOf other
  found : (findResource record.deployment record.name).run s = (.ok (some record), s)
  gone : (findResource record.deployment record.name).run t = (.ok none, t)
  anew : (findResource record.deployment target).run t =
    (.ok (some { record with name := target }), t)

namespace Retitles

theorem renamed {P : String → Prop} (h : Retitles deployment r target s t) (hs : Coherent P s)
    (ht : Coherent P t) : Renamed (r.record deployment) target s t := by
  have hfound := h.resourceNamed?
  have hgone := h.symm.resourceNamed?_target
  have hanew := h.symm.resourceNamed?
  obtain @⟨attributes, before, after, hd, -, -⟩ := h
  obtain ⟨front, rest, hbefore, hafter⟩ := entries_withDeployment hd
    ⟨attributes, before ++ { r with name := target } :: after⟩
  have hrows : attributeRows (s.withDeployment deployment
      ⟨attributes, before ++ { r with name := target } :: after⟩) = s.attributeRows := by
    simp [attributeRows, hbefore, hafter]
  let recordsOf (entry : String × StoredDeployment) : List ResourceRecord :=
    entry.2.resources.map (StoredResource.record · entry.1)
  exact
    { rows := ⟨front.flatMap recordsOf ++ before.map (StoredResource.record · deployment),
        after.map (StoredResource.record · deployment) ++ rest.flatMap recordsOf,
        by simp [resourceRows, hbefore, recordsOf],
        by simp [resourceRows, hafter, recordsOf, StoredResource.record]⟩
      deployments := by simp [deploymentRows, KeyMap.keys, hbefore, hafter]
      attributes := hrows
      lastId := rfl
      readings := fun owner key => Option.ext fun text => by
        rw [ht.textOf?_eq_some_iff, hs.textOf?_eq_some_iff, hrows]
      listed := ⟨before.map (StoredResource.record · deployment),
        after.map (StoredResource.record · deployment),
        by simp [listResources, StoredResource.record, resourcesOf_of_find hd],
        by simp [listResources, StoredResource.record,
          resourcesOf_of_find (find?_withDeployment ..)]⟩
      others := fun other hother => by
        have hne : other ≠ deployment := hother
        rw [Store.recordsOf, withDeployment, resourcesOf_insert, if_neg hne, Store.recordsOf]
      found := by simp [findResource, StoredResource.record, hfound]
      gone := by simp [findResource, StoredResource.record, hgone]
      anew := by simp [findResource, StoredResource.record, hanew] }

end Retitles

/-- A name in use is reported, whether or not there is anything to rename. -/
theorem renameResource_of_taken {source : String} (h : target ∈ s.namesOf deployment) :
    (renameResource deployment source target).run s =
      (.error (.resourceExists deployment target), s) := by
  have htaken : (s.resourceNamed? deployment target).isSome := by
    rw [Option.isSome_iff_ne_none, Ne, resourceNamed?_eq_none_iff, not_not]
    exact h
  unfold Action.run renameResource
  rw [if_pos htaken]

theorem renameResource_of_missing {source : String} (htarget : target ∉ s.namesOf deployment)
    (hsource : source ∉ s.namesOf deployment) :
    (renameResource deployment source target).run s =
      (.error (.resourceNotFound deployment source), s) := by
  unfold Action.run renameResource
  simp [resourceNamed?_eq_none_iff.mpr htarget, resourceNamed?_eq_none_iff.mpr hsource]

variable {ε : Type} [StoreFailure ε]

/-- In every store that a run leaves, a resource gets a new name exactly if the deployment has one
with the old name and none with the new one; otherwise nothing changes and the cause names the new
name if it is in use and else the old one. A resource with a new name is otherwise what it was, in
its place, everything else is as it was, and giving the old name back restores the store. -/
theorem callAll_rename (calls : List (Call ε)) (deployment source target : String) :
    let s := (callAll calls .empty).2
    let names := s.namesOf deployment
    let outcome := (renameResource deployment source target).run s
    ((∃ t, outcome = (.ok (), t)) ↔ source ∈ names ∧ target ∉ names) ∧
    (source ∈ names → source = target →
      outcome = (.error (.resourceExists deployment target), s)) ∧
    (∀ e t, outcome = (.error e, t) → t = s ∧
      e = if target ∈ names then .resourceExists deployment target
        else .resourceNotFound deployment source) ∧
    ∀ t, outcome = (.ok (), t) →
      (renameResource deployment target source).run t = (.ok (), s) ∧
      ∃ record : ResourceRecord, record.deployment = deployment ∧ record.name = source ∧
        Renamed record target s t := by
  intro s names outcome
  have hs : Coherent (fun _ => True) s :=
    (callAll_reaches (fun _ _ _ _ _ => trivial) .empty).coherent (coherent_of_empty rfl)
  by_cases htarget : target ∈ names
  · have hfails : outcome = (.error (.resourceExists deployment target), s) :=
      renameResource_of_taken htarget
    simp [hfails, htarget, eq_comm]
  by_cases hsource : source ∈ names
  · obtain ⟨r, t, rfl, h⟩ := exists_retitles (hs.names deployment) hsource htarget
    have hruns : outcome = (.ok (), t) := h.run
    have ht : Coherent (fun _ => True) t := h.reaches.coherent hs
    refine ⟨⟨fun _ => ⟨hsource, htarget⟩, fun _ => ⟨t, hruns⟩⟩, ?_, ?_, ?_⟩
    · exact fun _ heq => absurd (heq ▸ hsource) htarget
    · exact fun e u hu => nomatch hruns.symm.trans hu
    · intro u hu
      obtain rfl : t = u := congrArg Prod.snd (hruns.symm.trans hu)
      exact ⟨h.symm.run, r.record deployment, rfl, rfl, h.renamed hs ht⟩
  · have hfails : outcome = (.error (.resourceNotFound deployment source), s) :=
      renameResource_of_missing htarget hsource
    simp [hfails, htarget, hsource, eq_comm]

end Store

end DesiredState
