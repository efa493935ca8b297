import DesiredState.Proofs.Plan
import DesiredState.Proofs.Plan.Combination
import DesiredState.Proofs.Registry

/-!
# The first cover

The handlers that a plan selects are the first ones, by number and then by places, that together
own every changed key. There are such handlers just if each changed key has an owner at all.
-/

namespace DesiredState

variable {ω : Type} {r : Registry ω} {keys : List String} {key : String}

def Registry.Owned (r : Registry ω) (key : String) : Prop :=
  ∃ h ∈ r.handlers, h.keys.contains key = true

theorem KeySet.mem_names_iff {set : KeySet} : key ∈ set.names ↔ set.contains key = true :=
  KeyMap.contains_iff.symm

theorem Registry.contains_coveredKeys_iff : r.coveredKeys.contains key = true ↔ r.Owned key := by
  unfold coveredKeys KeySet.ofNames
  rw [KeyMap.contains_ofList, List.map_map]
  simp only [Function.comp_def, List.map_id', List.mem_flatMap, KeySet.mem_names_iff]
  rfl

theorem Registry.owned_iff_exists_owns :
    r.Owned key ↔ ∃ place < r.size, r.owns place key = true := by
  constructor
  · rintro ⟨h, hmem, hkey⟩
    obtain ⟨place, hat⟩ := exists_place hmem
    exact ⟨place, at?_lt hat, owns_iff.mpr ⟨h, hat, hkey⟩⟩
  · rintro ⟨place, -, howns⟩
    obtain ⟨h, hat, hkey⟩ := owns_iff.mp howns
    exact ⟨h, mem_of_at? hat, hkey⟩

namespace Plan

open Combination

variable {places : List Nat}

/-- The handlers at the places own every one of the keys. -/
def Owning (r : Registry ω) (keys : List String) (places : List Nat) : Prop :=
  ∀ key ∈ keys, ∃ place ∈ places, r.owns place key = true

/-- Registered places whose handlers own all keys; any other such places are more, or as many and
later in lexicographic order. -/
structure FirstCover (r : Registry ω) (keys : List String) (places : List Nat) : Prop where
  subset : IsCombination r.size places.length places
  owning : Owning r keys places
  first : ∀ others, IsCombination r.size others.length others → Owning r keys others →
    places.length < others.length ∨ places.length = others.length ∧ NotAfter places others

theorem covers_iff_owning : covers r keys places = true ↔ Owning r keys places := by
  simp [covers, Owning]

theorem firstCover_nil (r : Registry ω) : FirstCover r [] [] := by
  refine ⟨⟨List.Pairwise.nil, List.forall_mem_nil _, rfl⟩, List.forall_mem_nil _, ?_⟩
  intro others _ _
  cases others with
  | nil => exact Or.inr ⟨rfl, Or.inl rfl⟩
  | cons i rest => exact Or.inl (Nat.succ_pos _)

/-- What the search over all sizes returns. -/
theorem select?_eq_some {chosen : List Nat} (h : select? r keys = some chosen) :
    ∃ k < r.size, Combination.find? r.size (k + 1) (covers r keys) = some chosen ∧
      ∀ j < k, Combination.find? r.size (j + 1) (covers r keys) = none := by
  obtain ⟨front, k, rest, hsplit, hfound, hnone⟩ := List.findSome?_eq_some_iff.mp h
  have hk : k ∈ List.range r.size := by simp [hsplit]
  refine ⟨k, List.mem_range.mp hk, hfound, ?_⟩
  intro j hj
  have hmem : j ∈ front ++ k :: rest := by
    rw [← hsplit]
    exact List.mem_range.mpr (Nat.lt_trans hj (List.mem_range.mp hk))
  have hsorted : (front ++ k :: rest).Pairwise (· < ·) := hsplit ▸ List.pairwise_lt_range
  rcases List.mem_append.mp hmem with hfront | hrest
  · exact hnone j hfront
  · have htail := (List.pairwise_append.mp hsorted).2.1
    rcases List.mem_cons.mp hrest with rfl | hrest
    · omega
    · have := (List.pairwise_cons.mp htail).1 j hrest
      omega

theorem firstCover_of_select? {chosen : List Nat} (hkeys : keys ≠ [])
    (h : select? r keys = some chosen) : FirstCover r keys chosen := by
  obtain ⟨k, -, hfound, hnone⟩ := select?_eq_some h
  obtain ⟨hchosen, hcovers, hfirst⟩ := first_of_find? hfound
  have hlen := hchosen.length
  refine ⟨hlen ▸ hchosen, covers_iff_owning.mp hcovers, ?_⟩
  intro others hothers howning
  have hpass := covers_iff_owning.mpr howning
  rcases Nat.lt_trichotomy others.length (k + 1) with hlt | heq | hgt
  · -- Fewer handlers were tried before, and none at all own nothing.
    cases hsize : others.length with
    | zero =>
      obtain ⟨key, hkey⟩ := List.exists_mem_of_ne_nil keys hkeys
      obtain ⟨place, hplace, -⟩ := howning key hkey
      rw [List.eq_nil_of_length_eq_zero hsize] at hplace
      cases hplace
    | succ j =>
      have hfail := find?_eq_none_iff.mp (hnone j (by omega)) others (hsize ▸ hothers)
      rw [hpass] at hfail
      cases hfail
  · rw [heq] at hothers
    exact Or.inr ⟨by omega, hfirst others hothers hpass⟩
  · exact Or.inl (by omega)

/-- All handlers together own whatever has an owner, so the search succeeds. -/
theorem select?_isSome (hkeys : keys ≠ []) (howned : ∀ key ∈ keys, r.Owned key) :
    ∃ chosen, select? r keys = some chosen := by
  cases h : select? r keys with
  | some chosen => exact ⟨chosen, rfl⟩
  | none =>
    have howning : Owning r keys (List.range r.size) := by
      intro key hkey
      obtain ⟨place, hlt, howns⟩ := Registry.owned_iff_exists_owns.mp (howned key hkey)
      exact ⟨place, List.mem_range.mpr hlt, howns⟩
    obtain ⟨key, hkey⟩ := List.exists_mem_of_ne_nil keys hkeys
    obtain ⟨place, hlt, -⟩ := Registry.owned_iff_exists_owns.mp (howned key hkey)
    have hsize : r.size - 1 + 1 = r.size := by omega
    have hnone := List.findSome?_eq_none_iff.mp h (r.size - 1) (List.mem_range.mpr (by omega))
    rw [hsize] at hnone
    have hfail := find?_eq_none_iff.mp hnone _ (isCombination_range (Nat.le_refl r.size))
    rw [covers_iff_owning.mpr howning] at hfail
    cases hfail

/-- Without one of its places a first cover is none any more: that place alone owns some key. -/
theorem FirstCover.owns_alone (h : FirstCover r keys places) {place : Nat}
    (hplace : place ∈ places) :
    ∃ key ∈ keys, r.owns place key = true ∧
      ∀ other ∈ places, r.owns other key = true → other = place := by
  by_contra hnone
  push Not at hnone
  have hwithout : Owning r keys (places.erase place) := by
    intro key hkey
    obtain ⟨other, hother, howns⟩ := h.owning key hkey
    by_cases he : other = place
    · subst he
      obtain ⟨third, hthird, howns', hne⟩ := hnone key hkey howns
      exact ⟨third, (List.mem_erase_of_ne hne).mpr hthird, howns'⟩
    · exact ⟨other, (List.mem_erase_of_ne he).mpr hother, howns⟩
  -- So the others would be an earlier cover, being fewer.
  have hsub : (places.erase place).Sublist places := List.erase_sublist
  have hlen : (places.erase place).length = places.length - 1 := List.length_erase_of_mem hplace
  have hpos : 0 < places.length := List.length_pos_of_mem hplace
  have hsmaller : IsCombination r.size (places.erase place).length (places.erase place) :=
    ⟨h.subset.ascending.sublist hsub, fun i hi => h.subset.below i (hsub.subset hi), rfl⟩
  rcases h.first _ hsmaller hwithout with hlt | ⟨heq, -⟩ <;> omega

end Plan

end DesiredState
