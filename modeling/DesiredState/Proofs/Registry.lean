import DesiredState.Registry.Build
import Mathlib.Data.List.Basic
import Mathlib.Data.List.Nodup
import Mathlib.Data.List.Perm.Subperm

/-!
# Accepted registries

In a registry that is accepted each id stands at one place, every id that a handler waits for is
registered, and the places can be numbered so that each handler has a greater number than those
it waits for. The numbers come from the walk that looks for cycles: it finishes a place only
after everything that the place leads to.
-/

namespace DesiredState.Registry

variable {ω : Type} {r : Registry ω} {handlers : List (Handler ω)}

theorem at?_lt {place : Nat} {h : Handler ω} (hat : r.at? place = some h) : place < r.size :=
  (List.getElem?_eq_some_iff.mp hat).1

theorem mem_of_at? {place : Nat} {h : Handler ω} (hat : r.at? place = some h) :
    h ∈ r.handlers := List.mem_of_getElem? hat

theorem exists_place {h : Handler ω} (hmem : h ∈ r.handlers) : ∃ place, r.at? place = some h :=
  List.mem_iff_getElem?.mp hmem

theorem place?_lt {id : String} {place : Nat} (hplace : r.place? id = some place) :
    place < r.size := (List.findIdx?_eq_some_iff_getElem.mp hplace).1

/-- Where ids are distinct, a handler is found at its place by its id. -/
theorem place?_of_at? (hids : r.ids.Nodup) {place : Nat} {h : Handler ω}
    (hat : r.at? place = some h) : r.place? h.id = some place := by
  obtain ⟨hlt, hget⟩ := List.getElem?_eq_some_iff.mp hat
  refine List.findIdx?_eq_some_iff_getElem.mpr ⟨hlt, by simp [hget], ?_⟩
  intro j hj hsame
  have hid : r.handlers[j].id = h.id := by simpa using hsame
  have hplace : r.ids[place]? = some h.id := by rw [ids, List.getElem?_map, ← at?, hat]; rfl
  have hj' : r.ids[j]? = some h.id := by
    rw [ids, List.getElem?_map, List.getElem?_eq_getElem (Nat.lt_trans hj hlt), Option.map_some,
      hid]
  have hlen : place < r.ids.length := by simpa [ids] using hlt
  have hsamePlace := (List.getElem?_inj hlen hids).mp (hplace.trans hj'.symm)
  omega

theorem lt_of_mem_before {place target : Nat} (h : target ∈ r.before place) : target < r.size := by
  unfold before at h
  split at h
  · obtain ⟨_, _, hplace⟩ := List.mem_filterMap.mp h
    exact place?_lt hplace
  · cases h

theorem owns_iff {place : Nat} {key : String} :
    r.owns place key = true ↔ ∃ h, r.at? place = some h ∧ h.keys.contains key = true := by
  unfold owns
  cases r.at? place <;> simp

/-- The places that are done, the last one first: each once, and only after all that it leads
to. -/
inductive Settled (next : Nat → List Nat) : List Nat → Prop
  | nil : Settled next []
  | cons {place : Nat} {done : List Nat} : place ∉ done → (∀ target ∈ next place, target ∈ done) →
      Settled next done → Settled next (place :: done)

variable {next : Nat → List Nat} {size fuel place : Nat} {trail done found targets : List Nat}

theorem length_le_of_below {places : List Nat} (h : places.Nodup)
    (hbelow : ∀ x ∈ places, x < size) : places.length ≤ size := by
  have hsub : places ⊆ List.range size := fun x hx => List.mem_range.mpr (hbelow x hx)
  simpa using (List.subperm_of_subset h hsub).length_le

theorem Settled.nodup (h : Settled next done) : done.Nodup := by
  induction h with
  | nil => exact List.nodup_nil
  | cons hnew _ _ ih => exact List.nodup_cons.mpr ⟨hnew, ih⟩

/-- What a walk keeps: places stay done, and none on the trail becomes done. -/
structure Walked (next : Nat → List Nat) (size : Nat) (trail done found : List Nat) : Prop where
  settled : Settled next found
  below : ∀ place ∈ found, place < size
  kept : ∀ place ∈ done, place ∈ found
  fresh : ∀ place ∈ found, place ∈ done ∨ place ∉ trail

theorem Walked.refl (hdone : Settled next done) (hbelow : ∀ place ∈ done, place < size) :
    Walked next size trail done done :=
  ⟨hdone, hbelow, fun _ hx => hx, fun _ hx => Or.inl hx⟩

theorem Walked.trans {middle : List Nat} (h : Walked next size trail done middle)
    (k : Walked next size trail middle found) : Walked next size trail done found := by
  refine ⟨k.settled, k.below, fun x hx => k.kept x (h.kept x hx), ?_⟩
  intro x hx
  rcases k.fresh x hx with hx | hx
  · exact h.fresh x hx
  · exact Or.inr hx

/-- Follow one edge, unless it closes a cycle or leads to what is done. -/
def follow (visit : List Nat → Nat → Except (List Nat) (List Nat)) (trail done : List Nat)
    (target : Nat) : Except (List Nat) (List Nat) :=
  if trail.contains target then .error (closedPath target trail)
  else if done.contains target then .ok done
  else visit done target

theorem walk_succ (next : Nat → List Nat) (fuel : Nat) (trail done : List Nat) (place : Nat) :
    walk next (fuel + 1) trail done place =
      ((next place).foldlM (follow (walk next fuel (place :: trail)) (place :: trail)) done).bind
        fun done => .ok (place :: done) := rfl

/-- Each visit that finds no cycle makes its place done. It is asked only of places that are
neither on the trail nor done. -/
def Visits (next : Nat → List Nat) (size : Nat) (trail : List Nat)
    (visit : List Nat → Nat → Except (List Nat) (List Nat)) : Prop :=
  ∀ done target found, Settled next done → (∀ place ∈ done, place < size) → target < size →
    target ∉ trail → target ∉ done → visit done target = .ok found →
    Walked next size trail done found ∧ target ∈ found

variable {visit : List Nat → Nat → Except (List Nat) (List Nat)} {target : Nat}

theorem follow_ok (hvisit : Visits next size trail visit) (hdone : Settled next done)
    (hbelow : ∀ place ∈ done, place < size) (htarget : target < size)
    (h : follow visit trail done target = .ok found) :
    Walked next size trail done found ∧ target ∈ found := by
  unfold follow at h
  split at h
  · cases h
  · rename_i htrail
    split at h
    · rename_i hmem
      cases h
      exact ⟨.refl hdone hbelow, List.contains_iff_mem.mp hmem⟩
    · rename_i hmem
      exact hvisit done target found hdone hbelow htarget (by simpa using htrail)
        (by simpa using hmem) h

/-- Following several edges in turn makes all their ends done. -/
theorem foldlM_follow (hvisit : Visits next size trail visit) (hdone : Settled next done)
    (hbelow : ∀ place ∈ done, place < size) (htargets : ∀ target ∈ targets, target < size)
    (h : targets.foldlM (follow visit trail) done = .ok found) :
    Walked next size trail done found ∧ ∀ target ∈ targets, target ∈ found := by
  induction targets generalizing done with
  | nil =>
    cases h
    exact ⟨.refl hdone hbelow, List.forall_mem_nil _⟩
  | cons target rest ih =>
    obtain ⟨hlt, hrestLt⟩ := List.forall_mem_cons.mp htargets
    rw [List.foldlM_cons] at h
    cases hfollow : follow visit trail done target with
    | error path =>
      rw [hfollow] at h
      cases h
    | ok middle =>
      rw [hfollow] at h
      obtain ⟨hfirst, htarget⟩ := follow_ok hvisit hdone hbelow hlt hfollow
      obtain ⟨hlast, hall⟩ := ih hfirst.settled hfirst.below hrestLt h
      exact ⟨hfirst.trans hlast, List.forall_mem_cons.mpr ⟨hlast.kept target htarget, hall⟩⟩

/-- A walk that finds no cycle makes its place done. The trail never holds a place twice, so the
fuel lasts. -/
theorem walk_ok (hnext : ∀ place, ∀ target ∈ next place, target < size)
    (hfuel : size ≤ fuel + trail.length) (htrail : (place :: trail).Nodup)
    (htrailBelow : ∀ x ∈ place :: trail, x < size) (hdone : Settled next done)
    (hbelow : ∀ x ∈ done, x < size) (hplace : place ∉ done)
    (h : walk next fuel trail done place = .ok found) :
    Walked next size trail done found ∧ place ∈ found := by
  induction fuel generalizing trail done place found with
  | zero =>
    -- The trail would hold more places than there are.
    have hroom := length_le_of_below htrail htrailBelow
    rw [List.length_cons] at hroom
    omega
  | succ fuel ih =>
    rw [walk_succ] at h
    cases hfold : (next place).foldlM
        (follow (walk next fuel (place :: trail)) (place :: trail)) done with
    | error path =>
      rw [hfold] at h
      cases h
    | ok middle =>
      rw [hfold] at h
      cases h
      have hvisit : Visits next size (place :: trail) (walk next fuel (place :: trail)) := by
        intro done target found hsettled hbelow hlt hfresh hnew hrun
        refine ih ?_ (List.nodup_cons.mpr ⟨hfresh, htrail⟩) ?_ hsettled hbelow hnew hrun
        · rw [List.length_cons]
          omega
        · intro x hx
          rcases List.mem_cons.mp hx with rfl | hx
          · exact hlt
          · exact htrailBelow x hx
      obtain ⟨hwalked, hall⟩ := foldlM_follow hvisit hdone hbelow (hnext place) hfold
      have hnew : place ∉ middle := by
        intro hmem
        rcases hwalked.fresh place hmem with hmem | hmem
        · exact hplace hmem
        · exact hmem List.mem_cons_self
      refine ⟨⟨.cons hnew hall hwalked.settled, ?_, ?_, ?_⟩, List.mem_cons_self⟩
      · intro x hx
        rcases List.mem_cons.mp hx with rfl | hx
        · exact htrailBelow x List.mem_cons_self
        · exact hwalked.below x hx
      · exact fun x hx => List.mem_cons_of_mem place (hwalked.kept x hx)
      · intro x hx
        rcases List.mem_cons.mp hx with rfl | hx
        · exact Or.inr (List.nodup_cons.mp htrail).1
        · exact (hwalked.fresh x hx).imp_right fun hout hin =>
            hout (List.mem_cons_of_mem place hin)

/-- Where no cycle is found, every place ends up done. -/
theorem settled_of_findCycle?_eq_none (hnext : ∀ place, ∀ target ∈ next place, target < size)
    (h : findCycle? next size = none) :
    ∃ done, Settled next done ∧ (∀ x ∈ done, x < size) ∧ ∀ place < size, place ∈ done := by
  have htop : (fun done place => if done.contains place then .ok done
      else walk next (size + 1) [] done place) = follow (walk next (size + 1) []) [] := by
    funext done place
    rfl
  unfold findCycle? at h
  rw [htop] at h
  cases hfold : (List.range size).foldlM (follow (walk next (size + 1) []) []) [] with
  | error path =>
    rw [hfold] at h
    cases h
  | ok done =>
    have hvisit : Visits next size [] (walk next (size + 1) []) := by
      intro done target found hsettled hbelow hlt _ hnew hrun
      refine walk_ok hnext (by simp) (List.nodup_singleton target) ?_ hsettled hbelow hnew hrun
      intro x hx
      rwa [List.mem_singleton.mp hx]
    obtain ⟨hwalked, hall⟩ := foldlM_follow hvisit .nil (fun _ hx => by cases hx)
      (fun _ hx => List.mem_range.mp hx) hfold
    exact ⟨done, hwalked.settled, hwalked.below, fun x hx => hall x (List.mem_range.mpr hx)⟩

/-- How many places were done before a place; all of them for one that is not done. -/
def rankIn : List Nat → Nat → Nat
  | [], _ => 0
  | place :: done, x => if x = place then done.length else rankIn done x

theorem rankIn_lt (hx : place ∈ done) : rankIn done place < done.length := by
  induction done with
  | nil => cases hx
  | cons head done ih =>
    rw [rankIn, List.length_cons]
    split
    · omega
    · rename_i hne
      have := ih ((List.mem_cons.mp hx).resolve_left hne)
      omega

theorem rankIn_le (done : List Nat) (place : Nat) : rankIn done place ≤ done.length := by
  induction done with
  | nil => exact Nat.le_refl 0
  | cons head done ih =>
    rw [rankIn, List.length_cons]
    split <;> omega

theorem Settled.mem_of_mem_next (h : Settled next done) (hplace : place ∈ done) {target : Nat}
    (ht : target ∈ next place) : target ∈ done := by
  induction h with
  | nil => cases hplace
  | cons _ hall _ ih =>
    rcases List.mem_cons.mp hplace with rfl | hplace
    · exact List.mem_cons_of_mem _ (hall target ht)
    · exact List.mem_cons_of_mem _ (ih hplace)

/-- What a place leads to was done before it. -/
theorem Settled.rankIn_lt_rankIn (h : Settled next done) (hplace : place ∈ done) {target : Nat}
    (ht : target ∈ next place) : rankIn done target < rankIn done place := by
  induction h with
  | nil => cases hplace
  | @cons head done hnew hall hsettled ih =>
    have htarget : target ∈ done := by
      rcases List.mem_cons.mp hplace with rfl | hplace
      · exact hall target ht
      · exact hsettled.mem_of_mem_next hplace ht
    have hne : target ≠ head := fun he => hnew (he ▸ htarget)
    rw [rankIn, rankIn, if_neg hne]
    split
    · exact rankIn_lt htarget
    · rename_i hhead
      exact ih ((List.mem_cons.mp hplace).resolve_left hhead)

/-- Numbers for places by which each place is greater than those it must wait for. -/
structure Ranked (r : Registry ω) (rank : Nat → Nat) : Prop where
  decreases : ∀ place, ∀ target ∈ r.before place, rank target < rank place
  le_size : ∀ place, rank place ≤ r.size

/-- What makes a registry acceptable. -/
structure Accepted (r : Registry ω) : Prop where
  distinct : r.ids.Nodup
  known : ∀ h ∈ r.handlers, ∀ id ∈ h.after, id ∈ r.ids
  ranked : ∃ rank, Ranked r rank

theorem before_of_size_le (h : r.size ≤ place) : r.before place = [] := by
  have hat : r.at? place = none := List.getElem?_eq_none h
  unfold before
  rw [hat]

theorem ranked_of_findCycle?_eq_none (h : findCycle? r.before r.size = none) :
    ∃ rank, Ranked r rank := by
  obtain ⟨done, hsettled, hbelow, hall⟩ :=
    settled_of_findCycle?_eq_none (fun _ _ ht => lt_of_mem_before ht) h
  refine ⟨rankIn done, ?_, ?_⟩
  · intro place target ht
    rcases Nat.lt_or_ge place r.size with hlt | hge
    · exact hsettled.rankIn_lt_rankIn (hall place hlt) ht
    · rw [before_of_size_le hge] at ht
      cases ht
  · intro place
    exact Nat.le_trans (rankIn_le done place) (length_le_of_below hsettled.nodup hbelow)

theorem nodup_of_repeatedId?_eq_none {seen names : List String}
    (h : repeatedId? seen names = none) : names.Nodup ∧ ∀ id ∈ names, id ∉ seen := by
  induction names generalizing seen with
  | nil => exact ⟨List.nodup_nil, fun _ hid => by cases hid⟩
  | cons name rest ih =>
    rw [repeatedId?] at h
    split at h
    · cases h
    · rename_i hnew
      obtain ⟨hrest, hfresh⟩ := ih h
      refine ⟨List.nodup_cons.mpr ⟨?_, hrest⟩, ?_⟩
      · exact fun hmem => hfresh name hmem List.mem_cons_self
      · intro id hid
        rcases List.mem_cons.mp hid with rfl | hid
        · simpa using hnew
        · exact fun hseen => hfresh id hid (List.mem_cons_of_mem name hseen)

theorem known_of_unknownDependency?_eq_none {names : List String} {waiting : List (Handler ω)}
    (h : unknownDependency? names waiting = none) :
    ∀ handler ∈ waiting, ∀ id ∈ handler.after, id ∈ names := by
  induction waiting with
  | nil => exact fun _ hmem => by cases hmem
  | cons head rest ih =>
    rw [unknownDependency?] at h
    split at h
    · cases h
    · rename_i hnone
      intro handler hmem id hid
      rcases List.mem_cons.mp hmem with rfl | hmem
      · simpa using List.find?_eq_none.mp hnone id hid
      · exact ih h handler hmem id hid

/-- A registry that is built holds the listed handlers and is acceptable. -/
theorem accepted_of_build (h : build handlers = .ok r) : r.handlers = handlers ∧ Accepted r := by
  unfold build at h
  simp only at h
  split at h
  · cases h
  · rename_i hrepeated
    split at h
    · cases h
    · rename_i hunknown
      split at h
      · cases h
      · rename_i hcycle
        cases h
        refine ⟨rfl, ?_, ?_, ?_⟩
        · exact (nodup_of_repeatedId?_eq_none hrepeated).1
        · exact known_of_unknownDependency?_eq_none hunknown
        · exact ranked_of_findCycle?_eq_none hcycle

end DesiredState.Registry
