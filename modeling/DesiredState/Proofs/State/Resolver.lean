import DesiredState.Proofs.Store.Retimed
import DesiredState.Proofs.Store.Rows

/-!
# References in a store

A reference is ready just if its resource is up and has the attribute. What it is ready with is
then a stored value, and in a store that was filled value by value no such value is `null`.
-/

namespace DesiredState.State

open DesiredState.Action

variable {s : Store} {deployment name : String} {target : Reference} {v : Json}
  {r : StoredResource}

/-- The resource of a deployment with a name is up. -/
structure UpAt (s : Store) (deployment name : String) (r : StoredResource) : Prop where
  named : s.resourceNamed? deployment name = some r
  up : (status (r.record deployment)).run s = (.ok .up, s)

theorem run_findResource (s : Store) (deployment name : String) :
    (attempt (Store.findResource deployment name)).run s =
      (.ok ((s.resourceNamed? deployment name).map (StoredResource.record · deployment)), s) := rfl

theorem run_findResource_of_named (h : s.resourceNamed? deployment name = some r) :
    (attempt (Store.findResource deployment name)).run s =
      (.ok (some (r.record deployment)), s) := by
  rw [run_findResource, h]
  rfl

/-- A reference to a resource that is up leads to its attribute, or is pending without it. -/
theorem UpAt.resolver_eq (h : UpAt s deployment target.resource r) :
    resolver s deployment target =
      ((Store.denoted (s.textOf? (.resource r.id) target.output)).mapError Failure.store).map
        fun found => found.elim .pending .ready := by
  unfold resolver resolve
  rw [run_bind_ok (run_findResource_of_named h.named)]
  simp only
  rw [run_bind_ok h.up]
  have hget := Store.run_attempt_get (.resource r.id) target.output s
  cases hd : Store.denoted (s.textOf? (.resource r.id) target.output) with
  | error cause =>
    rw [hd] at hget
    exact congrArg Prod.fst (run_bind_error hget)
  | ok found =>
    rw [hd] at hget
    apply (congrArg Prod.fst (run_bind_ok hget)).trans
    cases found <;> rfl

/-- Only a resource that is up makes a reference ready. -/
theorem up_of_resolver_ready (h : resolver s deployment target = .ok (.ready v)) :
    ∃ r, UpAt s deployment target.resource r := by
  unfold resolver resolve at h
  cases hnamed : s.resourceNamed? deployment target.resource with
  | none =>
    rw [run_bind_ok (run_findResource s deployment target.resource), hnamed] at h
    cases h
  | some r =>
    rw [run_bind_ok (run_findResource_of_named hnamed)] at h
    simp only at h
    have hstatus := Store.run_status (r.record deployment) s
    cases hr : (status (r.record deployment)).run s with
    | mk outcome t =>
      obtain rfl : t = s := congrArg Prod.snd (hr.symm.trans hstatus)
      cases outcome with
      | error cause =>
        rw [run_bind_error hr] at h
        cases h
      | ok found =>
        rw [run_bind_ok hr] at h
        by_cases hup : found = .up
        · exact ⟨r, hnamed, hup ▸ hr⟩
        · rw [if_pos hup] at h
          cases h

/-- What a reference is ready with is stored. -/
theorem resolver_eq_ready_iff : resolver s deployment target = .ok (.ready v) ↔
    ∃ r, UpAt s deployment target.resource r ∧
      Store.denoted (s.textOf? (.resource r.id) target.output) = .ok (some v) := by
  have hready : ∀ stored : Except StoreError (Option Json),
      ((stored.mapError Failure.store).map fun found => found.elim .pending Resolution.ready) =
        .ok (.ready v) ↔ stored = .ok (some v) := by
    intro stored
    rcases stored with _ | _ | _ <;> simp [Except.mapError, Except.map]
  constructor
  · intro h
    obtain ⟨r, hr⟩ := up_of_resolver_ready h
    exact ⟨r, hr, (hready _).mp (hr.resolver_eq.symm.trans h)⟩
  · rintro ⟨r, hr, hstored⟩
    exact hr.resolver_eq.trans ((hready _).mpr hstored)

/-- Where no row is `null`, no reference is ready with `null`. -/
theorem ne_null_of_resolver_ready (hs : s.Consistent)
    (h : resolver s deployment target = .ok (.ready v)) : v ≠ .null := by
  obtain ⟨r, -, hstored⟩ := resolver_eq_ready_iff.mp h
  obtain ⟨text, htext, hdecode⟩ := Store.denoted_eq_some_iff.mp hstored
  have hrow := (hs.readings _ _ text).mp htext
  intro hnull
  exact hs.notNull _ hrow (hnull ▸ hdecode)

/-- Whatever is done to a store, from nothing on: no reference is ready with `null`. -/
theorem ne_null_of_callAll {ε : Type} [StoreFailure ε] {calls : List (Store.Call ε)}
    (hvalues : ∀ call ∈ calls, ∀ w ∈ call.values, w.writable = true)
    (h : resolver (Store.callAll calls .empty).2 deployment target = .ok (.ready v)) :
    v ≠ .null := by
  have hreach := Store.callAll_reaches
    (fun call hcall w hw => Store.permits_of_writable (hvalues call hcall w hw)) .empty
  have hcoherent := hreach.coherent (Store.coherent_of_empty rfl)
  exact ne_null_of_resolver_ready (hcoherent.consistent fun _ htext => htext) h

end DesiredState.State
