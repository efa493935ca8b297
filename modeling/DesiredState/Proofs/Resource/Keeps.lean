import DesiredState.Proofs.Keeps
import DesiredState.Proofs.Resource.Course

/-!
# What passes keep

The driver of a pass reads the store, writes the journal and the status of its resource, and does
nothing else of its own. So a pass keeps what writing the status, the check and the handlers of the
resource keep.
-/

namespace DesiredState.Resource

open DesiredState.Action DesiredState.World

variable {ρ : Type} {R : World ρ → World ρ → Prop} [Quiet R] {r : Resource ρ} {d : Definition}
  {consent : Consent} {options : PassOptions} {resolve : Store → Resolver}

theorem reportEnd_keeps (h : Handler (Handling ρ)) (outcome : Except Failure Unit) :
    Action.Keeps R (r.reportEnd h outcome) := by
  unfold reportEnd
  split
  · exact record_keeps _
  · exact keeps_pure ()

theorem runHandler_keeps {h : Handler (Handling ρ)}
    (hop : Action.Keeps R (h.operation d consent)) :
    Action.Keeps R (r.runHandler d consent h) :=
  (record_keeps _).bind fun _ => hop.attempt.bind fun outcome =>
    (reportEnd_keeps h outcome).bind fun _ => keeps_ofExcept outcome

section

variable (hstatus : ∀ status,
  Action.Keeps R (onStore (State.setStatus r.record status) : Task ρ Unit))

include hstatus

theorem settle_keeps : Action.Keeps R r.settle := by
  unfold settle
  refine (onStore_reads (State.resourceId_reads r.record)).keeps.bind fun id => ?_
  split
  · exact record_keeps _
  · refine (onStore_reads (State.status_reads r.record)).keeps.bind fun status => ?_
    split
    · exact record_keeps _
    · exact (record_keeps _).bind fun _ => hstatus .up

theorem begin_keeps : Action.Keeps R r.begin := by
  unfold begin
  refine (onStore_reads (State.status_reads r.record)).keeps.bind fun status => ?_
  split
  · exact hstatus .starting
  · exact keeps_pure ()

theorem apply_keeps {diff : Diff} {plan : Plan (Handling ρ)}
    (hops : ∀ h ∈ plan.handlers, Action.Keeps R (h.operation d consent)) :
    Action.Keeps R (r.apply d consent diff plan) := by
  unfold apply
  refine (record_keeps _).bind fun _ => (record_keeps _).bind fun _ => ?_
  refine (begin_keeps hstatus).bind fun _ => ?_
  refine (keeps_forEach fun h hm => runHandler_keeps (hops h hm)).bind fun _ => ?_
  exact (hstatus .up).bind fun _ => keeps_pure _

theorem pass_keeps
    (hops : ∀ h ∈ r.registry.handlers, Action.Keeps R (h.operation d consent)) :
    Action.Keeps R (r.pass d consent resolve) := by
  unfold pass
  refine (r.difference_reads d resolve).keeps.bind fun diff => ?_
  refine keeps_ofExcept_bind fun plan hplan => ?_
  split
  · exact (settle_keeps hstatus).bind fun _ => keeps_pure _
  · exact apply_keeps hstatus fun h hm => hops h (Plan.mem_registry_of_make hplan hm)

theorem create_keeps (hcheck : Action.Keeps R r.check)
    (hops : ∀ h ∈ r.registry.handlers, Action.Keeps R (h.operation d options.consent)) :
    Action.Keeps R (r.create d options) := by
  unfold create converge
  refine (keeps_ofExcept _).bind fun _ => ?_
  split
  · refine hcheck.bind fun report => ?_
    exact (keeps_forEach fun _ _ => record_keeps _).bind fun _ => pass_keeps hstatus hops
  · exact pass_keeps hstatus hops

end

end DesiredState.Resource
