import DesiredState.Proofs.Parallel
import DesiredState.Proofs.Plan
import DesiredState.Proofs.Resource.Course

/-!
# Passes side by side

What the driver of a pass does of its own depends on the attributes of the resource and on nothing
else, so two passes over one resource go side by side as long as its check and its handlers do.
-/

namespace DesiredState.Resource

open DesiredState.Action

variable {ρ : Type} {r : Resource ρ} {I I₀ : World ρ → World ρ → Prop} {d : Definition}
  {consent : Consent} {resolve : Store → Resolver}

/-- What the driver reads and writes goes side by side. -/
structure Steered (r : Resource ρ) (I : World ρ → World ρ → Prop) : Prop where
  record : ∀ entry {w w'}, I w w' → I (w.record entry) (w'.record entry)
  status : Parallel I I (World.onStore (State.status r.record) : Task ρ Status)
    (World.onStore (State.status r.record))
  identity : Parallel I I (World.onStore (State.resourceId r.record) : Task ρ (Option String))
    (World.onStore (State.resourceId r.record))
  setStatus : ∀ status, Parallel I I
    (World.onStore (State.setStatus r.record status) : Task ρ Unit)
    (World.onStore (State.setStatus r.record status))

namespace Steered

theorem shows (h : r.Steered I) (entry : JournalEntry) :
    Parallel I I (update (World.record entry) : Task ρ Unit) (update (World.record entry)) :=
  parallel_update (h.record entry)

theorem settle (h : r.Steered I) : Parallel I I r.settle r.settle := by
  unfold Resource.settle
  refine h.identity.bind fun identity => ?_
  split
  · exact h.shows _
  · refine h.status.bind fun status => ?_
    split
    · exact h.shows _
    · exact (h.shows _).bind fun _ => h.setStatus .up

theorem begin (h : r.Steered I) : Parallel I I r.begin r.begin := by
  unfold Resource.begin
  refine h.status.bind fun status => ?_
  split
  · exact h.setStatus .starting
  · exact parallel_pure ()

theorem reportEnd (h : r.Steered I) (handler : Handler (Handling ρ))
    (outcome : Except Failure Unit) :
    Parallel I I (r.reportEnd handler outcome) (r.reportEnd handler outcome) := by
  unfold Resource.reportEnd
  split
  · exact h.shows _
  · exact parallel_pure ()

theorem runHandler (h : r.Steered I) {handler : Handler (Handling ρ)}
    (hop : Parallel I I (handler.operation d consent) (handler.operation d consent)) :
    Parallel I I (r.runHandler d consent handler) (r.runHandler d consent handler) := by
  unfold Resource.runHandler
  exact (h.shows _).bind fun _ => hop.attempt.bind fun outcome =>
    (h.reportEnd handler outcome).bind fun _ => parallel_ofExcept outcome

theorem apply (h : r.Steered I) {diff : Diff} {plan : Plan (Handling ρ)}
    (hops : ∀ handler ∈ plan.handlers,
      Parallel I I (handler.operation d consent) (handler.operation d consent)) :
    Parallel I I (r.apply d consent diff plan) (r.apply d consent diff plan) := by
  unfold Resource.apply
  refine (h.shows _).bind fun _ => (h.shows _).bind fun _ => h.begin.bind fun _ => ?_
  refine (parallel_forEach fun handler hm => h.runHandler (hops handler hm)).bind fun _ => ?_
  exact (h.setStatus .up).bind fun _ => parallel_pure _

/-- A plan is made while the sides are as close as `I₀` says, and carried out while they are as
close as `I` says. -/
theorem pass (h : r.Steered I) (hI : ∀ {w w'}, I₀ w w' → I w w')
    (hdiff : Parallel I₀ I₀ (r.difference d resolve) (r.difference d resolve))
    (hops : ∀ handler ∈ r.registry.handlers,
      Parallel I I (handler.operation d consent) (handler.operation d consent)) :
    Parallel I₀ I (r.pass d consent resolve) (r.pass d consent resolve) := by
  unfold Resource.pass
  refine (hdiff.mono id hI).bind fun diff => parallel_ofExcept_bind fun plan hplan => ?_
  split
  · exact h.settle.bind fun _ => parallel_pure _
  · exact h.apply fun handler hm => hops handler (Plan.mem_registry_of_make hplan hm)

theorem converge (h : r.Steered I) (hI : ∀ {w w'}, I₀ w w' → I w w')
    (hrecord : ∀ entry {w w'}, I₀ w w' → I₀ (w.record entry) (w'.record entry))
    {options : PassOptions} (hcheck : Parallel I₀ I₀ r.check r.check)
    (hdiff : Parallel I₀ I₀ (r.difference d resolve) (r.difference d resolve))
    (hops : ∀ handler ∈ r.registry.handlers,
      Parallel I I (handler.operation d options.consent) (handler.operation d options.consent)) :
    Parallel I₀ I (r.converge d options resolve) (r.converge d options resolve) := by
  have hwarn : ∀ report, Parallel I₀ I₀ (warnDrift r.name report : Task ρ Unit)
      (warnDrift r.name report) := fun report =>
    parallel_forEach fun drift _ => parallel_update (hrecord _)
  have hpass := h.pass hI hdiff hops
  unfold Resource.converge
  refine (parallel_ofExcept _).andThen (fun _ => ?_) hI
  split
  · refine hcheck.andThen (fun report => ?_) hI
    exact (hwarn report).andThen (fun _ => hpass) hI
  · exact hpass

end Steered

end DesiredState.Resource
