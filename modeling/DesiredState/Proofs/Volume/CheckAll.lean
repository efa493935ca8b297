import DesiredState.Proofs.Keeps
import DesiredState.Proofs.Volume.CheckTurns
import Mathlib.Data.List.FinRange

/-!
# Checks of volumes in any order

Checks that run on several workers take turns. Whichever order they take, each of them comes to the
outcome that it has alone, and all orders leave one world but for the order of the lines in the log.
-/

namespace DesiredState.Volume

open DesiredState.Action

/-- Whether the check of a resource asks the provider: the id of a volume is recorded. -/
def asks (w : World Cloud) (r : ResourceRecord) : Bool :=
  match ((World.onStore (State.resourceId r) : Task Cloud _).run w).1 with
  | .ok (some _) => true
  | _ => false

theorem run_remotely_ok {α : Type} (label : String) {call : Cloud.Call α} {w : World Cloud} {x : α}
    {c : Cloud} (h : call.run w.remote = (.ok x, c)) :
    (remotely label call).run w = (.ok x, { w with remote := c }) := by
  have hrun : (World.onRemote call : Task Cloud α).run w = (.ok x, { w with remote := c }) := by
    unfold run at h ⊢
    rw [World.onRemote, zoom, h]
  rw [remotely, World.run_retrying]
  exact run_attempts_ok hrun

/-- Once the provider has answered it is left alone. -/
theorem compare_keeps (r : ResourceRecord) (observed : CloudVolume) :
    Keeps (World.Remotely Eq) (compare r observed) :=
  (World.onStore_keeps _).bind fun _ => (World.onStore_keeps _).bind fun _ =>
    (World.onStore_keeps _).bind fun _ => (World.onStore_keeps _).bind fun _ => keeps_pure _

variable {w : World Cloud}

/-- A check asks the provider once if an id is recorded, and does nothing else to it. -/
theorem check_remote (hcalm : w.remote.failures = []) (r : ResourceRecord) :
    ((check r).run w).2.remote = w.remote.asked (asks w r).toNat := by
  have hfound : ((World.onStore (State.resourceId r) : Task Cloud _).run w).2.remote = w.remote :=
    (World.onStore_keeps (R := Eq) (State.resourceId r) w).symm
  unfold asks check
  rw [run_bind]
  rcases hrun : (World.onStore (State.resourceId r) : Task Cloud _).run w with ⟨_ | _ | id, v⟩ <;>
    rw [hrun] at hfound
  · exact hfound.trans (Cloud.asked_zero _).symm
  · have hkeeps : Keeps (World.Remotely Eq) (do
        return CheckReport.inSync (← World.onStore (State.status r)) : Task Cloud _) :=
      (World.onStore_keeps _).bind fun _ => keeps_pure _
    exact ((hkeeps v).symm.trans hfound).trans (Cloud.asked_zero _).symm
  · have hdescribe := run_remotely_ok "describe volume"
      (Cloud.run_describe_calm (hfound.symm ▸ hcalm) id)
    have hgone : Keeps (World.Remotely Eq) (do
        World.log .warn .engine (r.name ++ ": volume " ++ id ++ " no longer exists")
        World.onStore (State.markDestroyed r ownedKeys)
        return CheckReport.inSync .missing : Task Cloud _) :=
      (World.record_keeps _).bind fun _ => (World.onStore_keeps _).bind fun _ => keeps_pure _
    simp only
    rw [run_bind_ok hdescribe]
    change _ = w.remote.asked 1
    rw [← hfound]
    cases v.remote.volume? id with
    | none => exact (hgone _).symm
    | some observed => exact (compare_keeps r observed _).symm

/-- A warning does not fail, and leaves the provider to itself. -/
theorem run_warnOutcome (r : ResourceRecord) (outcome : Except Failure CheckReport)
    (w : World Cloud) : ∃ v, ((resource r).warnOutcome outcome : Task Cloud Unit).run w =
      (.ok (), v) ∧ v.remote = w.remote := by
  unfold Resource.warnOutcome
  split
  · rename_i report
    obtain ⟨journal, hlog⟩ := World.run_forEach_log (ε := Failure) .warn .engine
      (Resource.driftText r.name) report.drift w
    exact ⟨_, hlog, rfl⟩
  · exact ⟨w, rfl, rfl⟩
  · exact ⟨_, rfl, rfl⟩

/-- A report does not fail, and leaves the provider to the check. -/
theorem run_checkReporting (r : ResourceRecord) (w : World Cloud) :
    ∃ v, ((resource r).checkReporting : Task Cloud _).run w =
      (.ok (r.name, ((check r).run w).1), v) ∧ v.remote = ((check r).run w).2.remote := by
  have hattempt : ((check r).attempt : Task Cloud _).run w =
      (.ok ((check r).run w).1, ((check r).run w).2) := run_attempt (check r) w
  obtain ⟨v, hwarn, hremote⟩ := run_warnOutcome r ((check r).run w).1 ((check r).run w).2
  exact ⟨v, (run_bind_ok hattempt).trans (run_bind_ok hwarn), hremote⟩

/-- Checking one volume after the other is one order of turns. -/
theorem run_checkAll {ι : Type} (record : ι → ResourceRecord) (l : List ι) (w : World Cloud) :
    ∃ outcomes, (Resource.checkAll (l.map fun k => resource (record k)) : Task Cloud _).run w =
        (.ok outcomes, (Pool.inTurn (fun k => reportTurns (record k)) l w).2) ∧
      (Pool.inTurn (fun k => reportTurns (record k)) l w).1 = outcomes.map .ok := by
  induction l generalizing w with
  | nil => exact ⟨[], rfl, rfl⟩
  | cons k rest ih =>
    obtain ⟨v, hfirst, -⟩ := run_checkReporting (record k) w
    obtain ⟨outcomes, hrest, hended⟩ := ih v
    rw [Pool.inTurn, alone_reportTurns, hfirst]
    refine ⟨_ :: outcomes, (run_bind_ok hfirst).trans (run_bind_ok hrest), ?_⟩
    rw [hended]
    rfl

/-- A check of another resource is hidden from the check of one. -/
theorem hidden_checkReporting {i : Int} {r : ResourceRecord} (h : i ≠ r.id)
    (hcalm : w.remote.failures = []) :
    World.Hidden i w (((resource r).checkReporting : Task Cloud _).run w).2 := by
  have hkey : Function.Injective fun _ : Unit => r.id := Function.injective_of_subsingleton _
  have hwithin : (World.apart _ hkey).Within () (reportTurns r) := within_reportTurns rfl
  rw [← alone_reportTurns]
  refine hwithin.alone_keeps (R := World.Hidden i) ?_ hcalm
  rintro _ v ⟨f, n, entries, rfl⟩
  exact World.hidden_moved h f n entries v

theorem asks_of_hidden {r : ResourceRecord} {v : World Cloud} (h : World.Hidden r.id w v) :
    asks v r = asks w r := by
  obtain ⟨outcome, f, hrun⟩ := World.run_onStore_hidden (keepsTo_resourceId r) w
  rw [asks, asks, hrun v h, hrun w (refl_of (World.Hidden r.id) w)]

/-- The provider is asked once for every volume whose id is recorded. -/
theorem checkAll_remote {records : List ResourceRecord}
    (hids : (records.map ResourceRecord.id).Nodup) (hcalm : w.remote.failures = []) :
    ((Resource.checkAll (records.map resource) : Task Cloud _).run w).2.remote =
      w.remote.asked (records.countP (asks w)) := by
  induction records generalizing w with
  | nil => exact (Cloud.asked_zero _).symm
  | cons r rest ih =>
    obtain ⟨hr, hrest⟩ := List.nodup_cons.mp hids
    obtain ⟨v, hfirst, hremote⟩ := run_checkReporting r w
    rw [check_remote hcalm r] at hremote
    have hcount : rest.countP (asks v) = rest.countP (asks w) := by
      refine List.countP_congr fun other ho => ?_
      have hne : other.id ≠ r.id := fun hid => hr (hid ▸ List.mem_map_of_mem ho)
      have hhidden := hidden_checkReporting hne hcalm
      rw [hfirst] at hhidden
      rw [asks_of_hidden hhidden]
    obtain ⟨outcomes, hothers, -⟩ := run_checkAll (fun r => r) rest v
    have hleft := ih hrest (w := v) (by rw [hremote]; exact hcalm)
    rw [hothers, hcount, hremote, Cloud.asked_asked] at hleft
    have hall : (Resource.checkAll ((r :: rest).map resource) : Task Cloud _).run w = _ :=
      (run_bind_ok hfirst).trans (run_bind_ok hothers)
    rw [hall]
    refine hleft.trans ?_
    rw [List.countP_cons, Nat.add_comm]
    cases asks w r <;> rfl

/-- What each check comes to alone, with the name of its resource. -/
def outcomesAlone (records : List ResourceRecord) (w : World Cloud) :
    List (String × Except Failure CheckReport) :=
  records.map fun r => (r.name, ((check r).run w).1)

def checks (records : List ResourceRecord) (w : World Cloud) :
    Pool (Fin records.length) (World Cloud) Failure (String × Except Failure CheckReport) :=
  ⟨fun k => reportTurns (records.get k), w⟩

/-- All checks have come to their ends, with outcomes in the order of the volumes. -/
def Finished {n : Nat}
    (p : Pool (Fin n) (World Cloud) Failure (String × Except Failure CheckReport))
    (outcomes : List (String × Except Failure CheckReport)) : Prop :=
  (List.finRange n).map p.threads = outcomes.map fun outcome => .ended (.ok outcome)

/-- What checking on a number of workers may come to. One worker, or a single volume, means one
check after the other. On a pool the checks take turns in some order; how many workers there are
could only rule out some of the orders. -/
def CheckedBy (jobs : Nat) (records : List ResourceRecord) (w : World Cloud)
    (outcomes : List (String × Except Failure CheckReport)) (t : World Cloud) : Prop :=
  if jobs ≤ 1 ∨ records.length ≤ 1 then
    (Resource.checkAll (records.map resource) : Task Cloud _).run w = (.ok outcomes, t)
  else
    ∃ turns, Finished ((checks records w).follow turns) outcomes ∧
      ((checks records w).follow turns).state = t

section

variable {n : Nat} {p : Pool (Fin n) (World Cloud) Failure (String × Except Failure CheckReport)}
  {outcomes others : List (String × Except Failure CheckReport)}

theorem Finished.unique (h : Finished p outcomes) (k : Finished p others) : outcomes = others :=
  (List.map_inj_right fun x y hxy => by simpa using hxy).mp (h.symm.trans k)

theorem Finished.over (h : Finished p outcomes) : p.Over :=
  Pool.over_of_map List.mem_finRange
    (h.trans (List.map_map (f := Except.ok) (g := Thread.ended)).symm)

end

theorem map_get {α β : Type} (f : α → β) (xs : List α) :
    ((List.finRange xs.length).map fun k => f (xs.get k)) = xs.map f := by
  conv_rhs => rw [← List.map_get_finRange xs, List.map_map]
  rfl

theorem injective_id {records : List ResourceRecord}
    (hids : (records.map ResourceRecord.id).Nodup) :
    Function.Injective fun k : Fin records.length => (records.get k).id := by
  intro j k hid
  have hrecord :=
    List.inj_on_of_nodup_map hids (List.get_mem records j) (List.get_mem records k) hid
  exact List.nodup_iff_injective_get.mp hids.of_map hrecord

theorem apart_checks {records : List ResourceRecord} (hids : (records.map ResourceRecord.id).Nodup)
    (hcalm : w.remote.failures = []) :
    (World.apart _ (injective_id hids)).Apart (checks records w) :=
  ⟨hcalm, fun _ => within_reportTurns rfl⟩

section

variable {records : List ResourceRecord} (hids : (records.map ResourceRecord.id).Nodup)
  (hcalm : w.remote.failures = [])

include hids hcalm

/-- The outcomes are those that the checks have alone, each with the name of its resource. -/
theorem finished_of_over {turns : List (Fin records.length)}
    (h : ((checks records w).follow turns).Over) :
    Finished ((checks records w).follow turns) (outcomesAlone records w) := by
  have hthread : ∀ k, ((checks records w).follow turns).threads k =
      .ended (.ok ((records.get k).name, ((check (records.get k)).run w).1)) := by
    intro k
    obtain ⟨v, hrun, -⟩ := run_checkReporting (records.get k) w
    rw [(apart_checks hids hcalm).outcome_alone List.mem_finRange (List.nodup_finRange _) h k]
    rw [checks, alone_reportTurns, hrun]
  rw [Finished, funext hthread, outcomesAlone, List.map_map]
  exact map_get (fun r => Thread.ended (.ok (r.name, ((check r).run w).1))) records

/-- Whatever the order of the turns, it is as if one volume had been checked after the other. -/
theorem exists_checkAll : ∃ t, (Resource.checkAll (records.map resource) : Task Cloud _).run w =
      (.ok (outcomesAlone records w), t) ∧
    ∀ turns, ((checks records w).follow turns).Over →
      t.Reordered ((checks records w).follow turns).state := by
  obtain ⟨outcomes, hrun, hended⟩ := run_checkAll records.get (List.finRange _) w
  rw [map_get resource records] at hrun
  have hall := List.mem_finRange (n := records.length)
  have hnodup := List.nodup_finRange records.length
  have hinTurn := fun (turns : List (Fin records.length))
      (ho : ((checks records w).follow turns).Over) =>
    (apart_checks hids hcalm).as_inTurn hall hnodup ho
  obtain ⟨turns, hover⟩ := Pool.exists_over hall hnodup (checks records w)
  have hfinished : Finished ((checks records w).follow turns) outcomes := by
    have hthreads := (hinTurn turns hover).1
    rwa [checks, hended, List.map_map] at hthreads
  rw [hfinished.unique (finished_of_over hids hcalm hover)] at hrun
  exact ⟨_, hrun, fun turns ho => (hinTurn turns ho).2⟩

end

/-- Volumes whose records are different are checked in any order and by any number of workers while
no failure of the provider is pending. However many turns were taken, the checks can come to their
ends. Then each volume with an id was asked for once, each check has the outcome that it has alone,
whether it failed or not, in the order of the volumes, and the world is the one that checking them
one after the other leaves, but for the order of the lines in the log. -/
theorem checkAll_any_order {w : World Cloud} (hcalm : w.remote.failures = [])
    {records : List ResourceRecord} (hids : (records.map ResourceRecord.id).Nodup) :
    ∃ t, (Resource.checkAll (records.map resource) : Task Cloud _).run w =
        (.ok (outcomesAlone records w), t) ∧
      t.remote = w.remote.asked (records.countP (asks w)) ∧
      (∀ turns, ∃ more, ((checks records w).follow (turns ++ more)).Over) ∧
      (∀ turns, ((checks records w).follow turns).Over →
        Finished ((checks records w).follow turns) (outcomesAlone records w) ∧
          t.Reordered ((checks records w).follow turns).state) ∧
      ∀ jobs, (∃ u, CheckedBy jobs records w (outcomesAlone records w) u) ∧
        ∀ outcomes u, CheckedBy jobs records w outcomes u →
          outcomes = outcomesAlone records w ∧ t.Reordered u := by
  obtain ⟨t, hrun, hreordered⟩ := exists_checkAll hids hcalm
  have hremote := checkAll_remote hids hcalm
  rw [hrun] at hremote
  have hends : ∀ turns, ∃ more, ((checks records w).follow (turns ++ more)).Over := fun turns => by
    simpa only [Pool.follow_append] using Pool.exists_over List.mem_finRange
      (List.nodup_finRange _) ((checks records w).follow turns)
  refine ⟨t, hrun, hremote, hends, fun turns ho =>
    ⟨finished_of_over hids hcalm ho, hreordered turns ho⟩, fun jobs => ?_⟩
  unfold CheckedBy
  split
  · refine ⟨⟨t, hrun⟩, fun outcomes u hu => ?_⟩
    obtain ⟨houtcomes, rfl⟩ := Prod.mk.inj (hu.symm.trans hrun)
    exact ⟨Except.ok.inj houtcomes, World.Reordered.equivalence.refl u⟩
  · obtain ⟨turns, hover⟩ := hends []
    refine ⟨⟨_, turns, finished_of_over hids hcalm hover, rfl⟩, ?_⟩
    rintro outcomes _ ⟨turns, hu, rfl⟩
    exact ⟨hu.unique (finished_of_over hids hcalm hu.over), hreordered turns hu.over⟩

/-- The records of three volumes. -/
def tamperedRecords : List ResourceRecord :=
  [⟨1, "dep", "grown", volumeType⟩, ⟨2, "dep", "gone", volumeType⟩,
    ⟨3, "dep", "corrupt", volumeType⟩]

/-- The first volume was grown behind the records, the second one was deleted, and the status of the
third one is none. -/
def tamperedWorld : World Cloud :=
  { World.start { Cloud.empty 0 with
      volumes := .ofList [("vol-1", ⟨"us-east-1", 20, .empty, none, 0⟩)] } {} 0 with
    store :=
      { deployments := .ofList [("dep", ⟨.empty,
          [⟨1, "grown", volumeType,
              .ofList [("resourceId", "\"vol-1\""), ("size", "8"), ("state", "3")]⟩,
            ⟨2, "gone", volumeType, .ofList [("resourceId", "\"vol-2\""), ("state", "3")]⟩,
            ⟨3, "corrupt", volumeType, .ofList [("state", "\"up\"")]⟩]⟩)]
        lastId := 3 } }

theorem checkAll_any_order_tampered :
    ∃ t, (Resource.checkAll (tamperedRecords.map resource) : Task Cloud _).run tamperedWorld =
        (.ok [("grown", .ok ⟨.up, [⟨"size", some (.ofInt 8), some (.ofInt 20)⟩]⟩),
          ("gone", .ok (.inSync .missing)),
          ("corrupt", .error (.corruptStatus "corrupt" "\"up\""))], t) ∧
      t.remote.calls = ["describe", "describe"] ∧
      ∀ turns, ((checks tamperedRecords tamperedWorld).follow turns).Over →
        t.Reordered ((checks tamperedRecords tamperedWorld).follow turns).state := by
  have hcalm : tamperedWorld.remote.failures = [] := rfl
  have hids : (tamperedRecords.map ResourceRecord.id).Nodup := by decide
  obtain ⟨t, hrun, hremote, -, hover, -⟩ := checkAll_any_order hcalm hids
  have houtcomes : outcomesAlone tamperedRecords tamperedWorld =
      [("grown", .ok ⟨.up, [⟨"size", some (.ofInt 8), some (.ofInt 20)⟩]⟩),
        ("gone", .ok (.inSync .missing)),
        ("corrupt", .error (.corruptStatus "corrupt" "\"up\""))] := by
    decide +kernel
  have hcount : tamperedRecords.countP (asks tamperedWorld) = 2 := by decide +kernel
  rw [houtcomes] at hrun
  rw [hcount] at hremote
  exact ⟨t, hrun, congrArg Cloud.calls hremote, fun turns ho => (hover turns ho).2⟩

end DesiredState.Volume
