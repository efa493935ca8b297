import DesiredState.Proofs.Volume.Settled

/-!
# Drift that is absorbed silently

A check corrects the records before it reads their status. If the status is corrupt, the check fails
after the correction was committed: nobody hears of the drift, and the records do not show it any
more. There is no other way in which a check changes the records of a volume that exists without
telling.
-/

namespace DesiredState.Volume

open DesiredState.Action

variable {r : ResourceRecord} {w : World Cloud}

/-- What a check changes in the recorded size or attachment of a volume that exists, it reports,
with what was recorded and what is now, and a check that fails changes nothing. -/
def Tells (r : ResourceRecord) (w : World Cloud) : Prop :=
  (check r).Ends w
    (fun report t => ∀ name observed,
      (State.resourceId r).run w.store = (.ok (some name), w.store) →
      w.remote.volume? name = some observed → ∀ key ∈ ["size", "attachedTo"],
      t.store.textOf? r.scope key ≠ w.store.textOf? r.scope key →
        ∃ d ∈ report.drift, d.key = key ∧
          Store.denoted (w.store.textOf? r.scope key) = .ok d.recorded ∧
          t.store.textOf? r.scope key = Store.stored (d.observed.getD .null))
    fun _ t => t.store = w.store

/-- The records drifted from a volume for which the provider answers, and their status is none. -/
structure Swallows (r : ResourceRecord) (w : World Cloud) : Prop where
  clear : w.obstacles = {}
  corrupt : ∃ cause, (State.status r).run w.store = (.error cause, w.store)
  drifted : ∃ name size target observed v, Legible w.store r (some name) size target ∧
    (remotely "describe volume" (Cloud.describe name)).run w = (.ok (some observed), v) ∧
    driftOf size target observed ≠ []

/-- A check that returns tells. -/
theorem Returned.tells {report : CheckReport} {t : World Cloud} (h : Returned r w report t)
    {name : String} {observed : CloudVolume}
    (hid : (State.resourceId r).run w.store = (.ok (some name), w.store))
    (hfound : w.remote.volume? name = some observed) {key : String}
    (hchanged : t.store.textOf? r.scope key ≠ w.store.textOf? r.scope key) :
    ∃ d ∈ report.drift, d.key = key ∧
      Store.denoted (w.store.textOf? r.scope key) = .ok d.recorded ∧
      t.store.textOf? r.scope key = Store.stored (d.observed.getD .null) := by
  cases h with
  | unnamed => exact absurd rfl hchanged
  | gone hid' hgone =>
    cases hid.symm.trans hid'
    cases hgone.symm.trans hfound
  | found hl _ _ hcorrected =>
    obtain ⟨d, hd, rfl⟩ := List.mem_map.mp
      (not_not.mp fun hnot => hchanged (hcorrected.textOf?_other hnot))
    exact ⟨d, hd, rfl, hl.denoted hd, hcorrected.textOf?_drift hd⟩

/-- A drift that is swallowed changes the records although the check fails. -/
theorem Swallows.fails (h : Swallows r w)
    (hfits : ∀ name observed, w.remote.volume? name = some observed → Fits observed.size) :
    ∃ cause t, (check r).run w = (.error cause, t) ∧ t.store ≠ w.store := by
  obtain ⟨hclear, ⟨cause, hstatus⟩, name, size, target, observed, v, hl, hasked, hdrift⟩ := h
  obtain ⟨hfound, hv⟩ := (describe_ends name w).ok hasked
  obtain ⟨t, hcorrected, hrun⟩ :=
    run_compare (hv.store.symm ▸ hl) (hv.obstacles.trans hclear) observed
  rw [hv.store] at hcorrected hrun
  rw [hstatus] at hrun
  have hcheck : (check r).run w = (.error cause, t) := by
    unfold check
    exact (run_bind_ok (World.onStore_run hclear hl.id)).trans ((run_bind_ok hasked).trans hrun)
  exact ⟨cause, t, hcheck, hl.corrected_ne (hfits _ _ hfound.symm) hcorrected hdrift⟩

/-- Whatever is recorded, whatever volumes the provider has, with sizes that are words, and however
it fails, a check tells of what it changes unless it swallows a drift because of a corrupt
status. -/
theorem tells_iff_not_swallows {r : ResourceRecord} {w : World Cloud}
    (hfits : ∀ name observed, w.remote.volume? name = some observed → Fits observed.size) :
    Tells r w ↔ ¬ Swallows r w := by
  constructor
  · intro htells hswallows
    obtain ⟨cause, t, hrun, hne⟩ := hswallows.fails hfits
    exact hne (htells.error hrun)
  · refine fun hnot => (check_ends r w).mono ?_ ?_
    · rintro report t ⟨-, hreturned⟩ name observed hid hfound key - hchanged
      exact hreturned.tells hid hfound hchanged
    · rintro cause t ⟨-, hfailed⟩
      cases hfailed with
      | left h => exact h
      | late hl hasked hclear hstatus hcorrected hne =>
        refine absurd ⟨hclear, ⟨cause, hstatus⟩, ?_⟩ hnot
        obtain ⟨v, hasked⟩ := hasked
        exact ⟨_, _, _, _, v, hl, hasked, fun hnil => hne (hcorrected.same hnil)⟩

theorem tells_iff_not_swallows_tampered :
    Tells ⟨1, "dep", "grown", volumeType⟩ tamperedWorld := by
  refine (tells_iff_not_swallows fits_tampered).mpr fun h => ?_
  obtain ⟨cause, hstatus⟩ := h.corrupt
  have hread : ((State.status ⟨1, "dep", "grown", volumeType⟩).run tamperedWorld.store).1 =
      .ok .up := by decide +kernel
  rw [hstatus] at hread
  cases hread

/-- A volume that was grown behind the records, which have a corrupt status. -/
def corruptWorld : World Cloud :=
  { World.start { Cloud.empty 0 with
      volumes := .ofList [("vol-1", ⟨"us-east-1", 20, .empty, none, 0⟩)] } {} 0 with
    store :=
      { deployments := .ofList [("dep", ⟨.empty,
          [⟨1, "data", volumeType,
            .ofList [("resourceId", "\"vol-1\""), ("size", "10"), ("state", "\"up\"")]⟩]⟩)]
        lastId := 1 } }

theorem not_tells_corrupt : ¬ Tells ⟨1, "dep", "data", volumeType⟩ corruptWorld := by
  intro htells
  have hleft : ((check ⟨1, "dep", "data", volumeType⟩).run corruptWorld).1 =
        .error (.corruptStatus "data" "\"up\"") ∧
      ((check ⟨1, "dep", "data", volumeType⟩).run corruptWorld).2.store.textOf?
        (.resource 1) "size" = some "20" := by decide +kernel
  rcases hrun : (check ⟨1, "dep", "data", volumeType⟩).run corruptWorld with ⟨outcome, t⟩
  rw [hrun] at hleft
  obtain ⟨rfl, htext⟩ := hleft
  rw [htells.error hrun] at htext
  revert htext
  decide

end DesiredState.Volume
