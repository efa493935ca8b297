import DesiredState.Plan.Basic
import DesiredState.Proofs.KeyMap

/-!
# What plans run

A plan that is made covers every changed key. Where each key has one owner, which handlers are
chosen depends on the places of these owners only.
-/

namespace DesiredState

variable {ω : Type}

namespace Registry

theorem filterMap_range {α β : Type} (f : α → Option β) (xs : List α) :
    (List.range xs.length).filterMap (fun place => xs[place]?.bind f) = xs.filterMap f := by
  induction xs with
  | nil => rfl
  | cons x xs ih =>
    rw [List.length_cons, List.range_succ_eq_map, List.filterMap_cons, List.filterMap_map,
      List.filterMap_cons, ← ih]
    rfl

/-- The handlers at the places that own one of the keys are those whose keys are among them. -/
theorem filterMap_at? (r : Registry ω) (keys : List String) :
    ((List.range r.size).filter fun place => keys.any (r.owns place)).filterMap r.at? =
      r.handlers.filter fun h => keys.any h.keys.contains := by
  rw [List.filterMap_filter, ← List.filterMap_eq_filter]
  refine Eq.trans (List.filterMap_congr fun place _ => ?_) (filterMap_range _ r.handlers)
  have howns : r.owns place = fun key => (r.at? place).any fun h => h.keys.contains key := by
    funext key
    unfold owns
    cases r.at? place <;> rfl
  rw [howns]
  unfold at?
  cases r.handlers[place]? with
  | none => simp
  | some h => rfl

end Registry

namespace Plan

variable {r : Registry ω} {keys : List String} {owner : String → Nat}

/-- Places cover some keys just if the owners of the keys are among them. -/
theorem covers_of_owner (h : ∀ key ∈ keys, ∀ place, r.owns place key = true ↔ place = owner key) :
    covers r keys = fun places => (keys.map owner).all places.contains := by
  funext places
  have hany : ∀ key ∈ keys, (places.any fun place => r.owns place key) =
      places.contains (owner key) := by
    intro key hk
    rw [Bool.eq_iff_iff, List.any_eq_true, List.contains_iff_mem]
    constructor
    · rintro ⟨place, hm, ho⟩
      exact (h key hk place).mp ho ▸ hm
    · exact fun hm => ⟨_, hm, (h key hk _).mpr rfl⟩
  rw [covers, List.all_map, Bool.eq_iff_iff, List.all_eq_true, List.all_eq_true]
  exact forall₂_congr fun key hk => by rw [hany key hk]; rfl

theorem any_owns_of_owner
    (h : ∀ key ∈ keys, ∀ place, r.owns place key = true ↔ place = owner key) (place : Nat) :
    keys.any (r.owns place) = (keys.map owner).contains place := by
  rw [Bool.eq_iff_iff, List.any_eq_true, List.contains_iff_mem, List.mem_map]
  exact exists_congr fun key => and_congr_right fun hk => (h key hk place).trans eq_comm

theorem make_of_no_change {diff : Diff} (h : diff.changedKeys = []) (resourceType : String)
    (r : Registry ω) : make resourceType r diff = .ok empty := by
  rw [make, if_pos (Diff.isEmpty_iff.mpr h)]

/-- Where nothing changes nothing runs; elsewhere every changed key has a handler. -/
theorem make_ok {resourceType : String} {diff : Diff} {plan : Plan ω}
    (h : make resourceType r diff = .ok plan) :
    (diff.changedKeys = [] ∧ plan.handlers = []) ∨
      diff.changedKeys ≠ [] ∧ (∀ key ∈ diff.changedKeys, r.coveredKeys.contains key = true) ∧
        ∃ chosen, select? r diff.changedKeys = some chosen ∧
          plan.handlers = (order r chosen).filterMap r.at? := by
  unfold make at h
  split at h
  · rename_i he
    cases h
    exact Or.inl ⟨Diff.isEmpty_iff.mp he, rfl⟩
  · rename_i hne
    refine Or.inr ⟨fun he => hne (Diff.isEmpty_iff.mpr he), ?_⟩
    simp only at h
    split at h
    · cases h
    · rename_i hcovered
      simp only [ne_eq, not_not, List.filter_eq_nil_iff, decide_eq_true_eq] at hcovered
      split at h
      · cases h
      · rename_i chosen hchosen
        cases h
        exact ⟨hcovered, chosen, hchosen, rfl⟩

/-- A plan runs handlers of the registry only. -/
theorem mem_registry_of_make {resourceType : String} {diff : Diff} {plan : Plan ω}
    (h : make resourceType r diff = .ok plan) {handler : Handler ω}
    (hm : handler ∈ plan.handlers) : handler ∈ r.handlers := by
  rcases make_ok h with ⟨-, hnil⟩ | ⟨-, -, places, -, hplaces⟩
  · rw [hnil] at hm
    cases hm
  · rw [hplaces] at hm
    obtain ⟨place, -, hplace⟩ := List.mem_filterMap.mp hm
    exact List.mem_of_getElem? hplace

end Plan

end DesiredState
