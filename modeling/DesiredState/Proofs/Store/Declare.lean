import DesiredState.Proofs.Store.Frame

/-!
# Declaring a resource

A resource that is declared anew gets the next id, nothing recorded, and nothing else in the
store changes; declaring it again finds it.
-/

namespace DesiredState

/-- Replacing the value of a key that is there leaves all others in their places. -/
theorem insertEntry_of_find {α : Type} {key : String} {old : α} (value : α)
    {entries : List (String × α)} (h : Ascending entries)
    (hf : findEntry key entries = some old) :
    insertEntry key value entries =
      entries.map fun entry => (entry.1, if entry.1 = key then value else entry.2) := by
  induction entries with
  | nil => cases hf
  | cons head rest ih =>
    obtain ⟨k, v⟩ := head
    have hrest := (List.pairwise_cons.mp h).2
    have hlt : ∀ entry ∈ rest, k < entry.1 := (List.pairwise_cons.mp h).1
    by_cases hk : k = key
    · subst hk
      have hother : ∀ entry ∈ rest, (entry.1, if entry.1 = k then value else entry.2) = entry := by
        intro entry he
        have hne : entry.1 ≠ k := fun heq => Std.lt_irrefl (heq ▸ hlt entry he)
        simp [hne]
      have hmap : rest.map (fun entry => (entry.1, if entry.1 = k then value else entry.2)) =
          rest := by
        rw [List.map_congr_left hother, List.map_id']
      rw [List.map_cons, hmap]
      simp [insertEntry]
    · have hf' : findEntry key rest = some old := by simpa [findEntry, hk] using hf
      have hkey : k < key := hlt _ (mem_of_findEntry hf')
      have hnot : ¬ key < k := fun hback => Std.lt_irrefl (Std.lt_trans hkey hback)
      rw [insertEntry, if_neg hnot, if_neg (Ne.symm hk), ih hrest hf', List.map_cons, if_neg hk]

namespace Store

variable {s t : Store} {deployment name resourceType : String}

theorem resourceById?_eq_findSome? (s : Store) (i : Int) :
    s.resourceById? i =
      s.deployments.entries.findSome? fun entry => entry.2.resources.find? fun r => r.id = i := by
  unfold resourceById? allResources KeyMap.values
  rw [List.find?_flatMap, List.findSome?_map]
  rfl

/-- Every resource that is found by its name is found by its id. -/
theorem resourceById?_of_named {r : StoredResource}
    (h : s.resourceNamed? deployment name = some r) : (s.resourceById? r.id).isSome := by
  unfold resourceNamed? resourcesOf at h
  have hmem := List.mem_of_find?_eq_some h
  cases hd : s.deployments.find? deployment with
  | none => simp [hd] at hmem
  | some d =>
    simp only [hd, Option.map_some, Option.getD_some] at hmem
    rw [resourceById?_eq_findSome?, List.findSome?_isSome_iff]
    refine ⟨_, KeyMap.find?_eq_some_iff.mp hd, ?_⟩
    rw [List.find?_isSome]
    exact ⟨r, hmem, by simp⟩

/-- The store with a resource more in one deployment. -/
def addResource (s : Store) (deployment : String) (d : StoredDeployment) (r : StoredResource) :
    Store where
  deployments := s.deployments.insert deployment { d with resources := d.resources ++ [r] }
  lastId := r.id

theorem findSome?_congr_of_mem {α β : Type} {f g : α → Option β} {l : List α}
    (h : ∀ x ∈ l, f x = g x) : l.findSome? f = l.findSome? g := by
  induction l with
  | nil => rfl
  | cons x l ih =>
    rw [List.findSome?_cons, List.findSome?_cons, h x List.mem_cons_self,
      ih fun y hy => h y (List.mem_cons_of_mem _ hy)]

theorem findSome?_eq_some_of_mem {α β : Type} {f : α → Option β} {l : List α} {x : α} {b : β}
    (hx : x ∈ l) (hf : f x = some b) (h : ∀ y ∈ l, ∀ c, f y = some c → c = b) :
    l.findSome? f = some b := by
  have hsome : (l.findSome? f).isSome :=
    List.findSome?_isSome_iff.mpr ⟨x, hx, by rw [hf]; rfl⟩
  obtain ⟨c, hc⟩ := Option.isSome_iff_exists.mp hsome
  obtain ⟨y, hy, hyc⟩ := List.exists_of_findSome?_eq_some hc
  rw [hc, h y hy c hyc]

theorem entries_addResource {d : StoredDeployment} (r : StoredResource)
    (hd : s.deployments.find? deployment = some d) :
    (s.addResource deployment d r).deployments.entries = s.deployments.entries.map fun entry =>
      (entry.1, if entry.1 = deployment then
        { d with resources := d.resources ++ [r] } else entry.2) :=
  insertEntry_of_find _ s.deployments.ascending hd

/-- Looking for an id in a deployment, the new resource is found last. -/
theorem find?_addResource {d : StoredDeployment} {r : StoredResource}
    (hd : s.deployments.find? deployment = some d) {entry : String × StoredDeployment}
    (he : entry ∈ s.deployments.entries) (i : Int) :
    (if entry.1 = deployment then { d with resources := d.resources ++ [r] }
      else entry.2).resources.find? (fun r => r.id = i) =
      (entry.2.resources.find? fun r => r.id = i).or
        (if entry.1 = deployment ∧ i = r.id then some r else none) := by
  by_cases hk : entry.1 = deployment
  · have hsame : entry.2 = d := by
      have := KeyMap.find?_eq_some_iff.mpr he
      rw [hk, hd] at this
      exact (Option.some.inj this).symm
    rw [if_pos hk, List.find?_append, hsame]
    by_cases hi : i = r.id
    · simp [hk, hi]
    · simp [hk, hi, Ne.symm hi]
  · simp [hk]

theorem resourceById?_addResource {d : StoredDeployment} {r : StoredResource}
    (hd : s.deployments.find? deployment = some d) (hnew : s.resourceById? r.id = none) (i : Int) :
    (s.addResource deployment d r).resourceById? i =
      if i = r.id then some r else s.resourceById? i := by
  rw [resourceById?_eq_findSome?, entries_addResource r hd, List.findSome?_map]
  by_cases hi : i = r.id
  · subst hi
    rw [resourceById?_eq_findSome?, List.findSome?_eq_none_iff] at hnew
    rw [if_pos rfl]
    have hfind : ∀ entry ∈ s.deployments.entries, (if entry.1 = deployment then
        { d with resources := d.resources ++ [r] } else entry.2).resources.find?
          (fun x => x.id = r.id) = if entry.1 = deployment then some r else none := by
      intro entry he
      rw [find?_addResource hd he, hnew entry he]
      simp
    refine findSome?_eq_some_of_mem (KeyMap.find?_eq_some_iff.mp hd) ?_ fun entry he c hc => ?_
    · exact (hfind _ (KeyMap.find?_eq_some_iff.mp hd)).trans (if_pos rfl)
    · have := (hfind entry he).symm.trans hc
      split at this
      · exact (Option.some.inj this).symm
      · cases this
  · rw [if_neg hi, resourceById?_eq_findSome?]
    refine findSome?_congr_of_mem fun entry he => ?_
    refine (find?_addResource hd he i).trans ?_
    simp [hi]

theorem attributesOf?_addResource {d : StoredDeployment} {r : StoredResource}
    (hd : s.deployments.find? deployment = some d) (hnew : s.resourceById? r.id = none) (i : Int) :
    (s.addResource deployment d r).attributesOf? (.resource i) =
      if i = r.id then some r.attributes else s.attributesOf? (.resource i) := by
  rw [attributesOf?, resourceById?_addResource hd hnew]
  split <;> rfl

/-- Declaring finds the resource of that name, or adds the next one, or changes nothing. -/
theorem declareResource_ends (s : Store) (deployment name resourceType : String) :
    (declareResource deployment name resourceType).Ends s
      (fun r t =>
        (t = s ∧ r.resourceType = resourceType ∧ ∃ found,
          s.resourceNamed? deployment name = some found ∧ r = found.record deployment) ∨
        (s.resourceNamed? deployment name = none ∧ ∃ d, s.deployments.find? deployment = some d ∧
          r = ⟨s.lastId + 1, deployment, name, resourceType⟩ ∧
          t = s.addResource deployment d ⟨s.lastId + 1, name, resourceType, .empty⟩))
      fun _ t => t = s := by
  cases hn : s.resourceNamed? deployment name with
  | some r =>
    by_cases ht : r.resourceType = resourceType
    · refine Action.Ends.of_ok
        (by unfold Action.run declareResource; simp only [hn, if_pos ht])
        (Or.inl ⟨rfl, ht, r, rfl, rfl⟩)
    · exact Action.Ends.of_error
        (by unfold Action.run declareResource; simp only [hn, if_neg ht]; rfl) rfl
  | none =>
    cases hd : s.deployments.find? deployment with
    | none =>
      exact Action.Ends.of_error
        (by unfold Action.run declareResource insertResource; simp only [hn, hd]; rfl) rfl
    | some d =>
      exact Action.Ends.of_ok
        (by unfold Action.run declareResource insertResource; simp only [hn, hd]; rfl)
        (Or.inr ⟨rfl, d, rfl, rfl, rfl⟩)

end Store

end DesiredState
