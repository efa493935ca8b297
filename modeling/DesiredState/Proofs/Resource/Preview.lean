import DesiredState.Proofs.Plan.Make
import DesiredState.Proofs.Resource.Replace

/-!
# Previews

A preview goes as far as a pass goes before anything happens: it comes to the same findings, shows
them and stops. So it needs no handler, and what it announces is what a pass that succeeds has done.
-/

namespace DesiredState.Resource

open DesiredState.Action

variable {ρ : Type} {r : Resource ρ} {d : Definition} {resolve : Store → Resolver} {w t : World ρ}
  {id : String} {operation : Handling ρ} {consent : Consent} {diff : Diff}
  {plan : Plan (Handling ρ)} {s : Summary} {cause : Failure}

/-- A world with some more lines of the engine in the log. -/
def noted (texts : List String) (w : World ρ) : World ρ :=
  { w with journal := w.journal ++ texts.map (line .info) }

theorem noted_nil (w : World ρ) : noted [] w = w := by
  unfold noted
  rw [List.map_nil, List.append_nil]

theorem noted_cons (text : String) (texts : List String) (w : World ρ) :
    noted texts (w.record (line .info text)) = noted (text :: texts) w := by
  unfold noted World.record
  simp only [List.map_cons, List.append_assoc, List.singleton_append]

theorem run_forEach_noted (texts : List String) (w : World ρ) :
    (forEach (World.log .info .engine) texts : Task ρ Unit).run w = (.ok (), noted texts w) := by
  induction texts generalizing w with
  | nil =>
    rw [noted_nil]
    rfl
  | cons text texts ih =>
    rw [← noted_cons]
    exact ih _

/-- What a pass with these findings does if nothing goes wrong. -/
def outlook (found : Diff × Plan (Handling ρ)) : Summary := ⟨found.2.ids, found.1.changedKeys⟩

/-- A preview returns what it finds and leaves lines in the log. -/
theorem run_preview (r : Resource ρ) (d : Definition) (resolve : Store → Resolver)
    (w : World ρ) : ∃ texts, (r.preview d resolve).run w =
      ((r.findings d resolve w).map outlook, noted texts w) := by
  rw [findings_eq]
  unfold preview
  rw [run_bind, run_ofExcept]
  cases r.checkType d with
  | error cause => exact ⟨[], by rw [noted_nil]; rfl⟩
  | ok _ =>
    simp only
    rw [run_bind, run_difference]
    cases r.differenceIn d resolve w with
    | error cause => exact ⟨[], by rw [noted_nil]; rfl⟩
    | ok diff =>
      -- The difference is shown even where nothing can be planned for it.
      have hlog (entry : String) : (World.log .info .engine entry : Task ρ Unit).run w =
          (.ok (), w.record (line .info entry)) := rfl
      simp only
      rw [run_bind_ok (hlog _), run_bind, run_ofExcept]
      cases hplan : r.planFor diff with
      | error cause =>
        refine ⟨[r.name ++ ": " ++ diff.summary.text], ?_⟩
        rw [← noted_cons, noted_nil]
        simp only [Except.bind, hplan]
        rfl
      | ok plan =>
        refine ⟨(r.name ++ ": " ++ diff.summary.text) :: plan.report diff, ?_⟩
        simp only [Except.bind, hplan]
        rw [run_bind_ok (run_forEach_noted (plan.report diff) _), noted_cons]
        rfl

/-- A preview goes the same way whatever the handlers do. -/
theorem preview_replace : (r.replace id operation).preview d resolve = r.preview d resolve := by
  have halike : Alike (fun _ => True) (r.preview d resolve)
      ((r.replace id operation).preview d resolve) := by
    unfold preview
    refine (reads_ofExcept _).alike.bind fun _ => ?_
    refine (r.difference_reads d resolve).alike.bind fun diff => ?_
    refine (alike_update fun _ _ => trivial).bind fun _ => ?_
    rw [planFor_replace]
    refine alike_ofExcept_bind fun plan _ => ?_
    unfold Plan.report
    rw [Plan.ids_replace]
    refine Alike.bind ?_ fun _ => (reads_pure _).alike
    exact alike_of_ends fun w _ => Ends.of_ok (run_forEach_noted _ w) trivial
  funext w
  exact halike.same w trivial

/-- The same is found whatever the handlers do, the plan apart. -/
theorem findings_replace : (r.replace id operation).findings d resolve w =
    (r.findings d resolve w).map fun found => (found.1, found.2.replace id operation) := by
  rw [findings_eq, findings_eq]
  change (r.checkType d).bind (fun _ => (r.differenceIn d resolve w).bind fun diff =>
    ((r.replace id operation).planFor diff).bind fun plan => .ok (diff, plan)) = _
  cases r.checkType d with
  | error cause => rfl
  | ok _ =>
    cases r.differenceIn d resolve w with
    | error cause => rfl
    | ok diff =>
      simp only [Except.bind, planFor_replace]
      cases r.planFor diff <;> rfl

/-- A pass that finds no plan fails for the same reason before it does anything. -/
theorem run_converge_refused {options : PassOptions} (hcheck : options.check = false)
    (hfind : r.findings d resolve w = .error cause) :
    (r.converge d options resolve).run w = (.error cause, w) := by
  rw [run_converge hcheck, hfind]

theorem apply_outlook (diff : Diff) (plan : Plan (Handling ρ)) (w : World ρ) :
    (r.apply d consent diff plan).Ends w (fun s _ => s = outlook (diff, plan))
      fun _ _ => True := by
  refine Ends.bind_any fun _ _ => Ends.bind_any fun _ _ => Ends.bind_any fun _ _ => ?_
  exact Ends.bind_any fun _ _ => Ends.bind_any fun _ _ => ends_pure rfl

/-- A pass that succeeds did what it found to do. -/
theorem converge_outlook {options : PassOptions} (hcheck : options.check = false)
    (hrun : (r.converge d options resolve).run w = (.ok s, t)) :
    ∃ found, r.findings d resolve w = .ok found ∧ s = outlook found := by
  rw [run_converge hcheck] at hrun
  cases hfind : r.findings d resolve w with
  | error cause =>
    rw [hfind] at hrun
    cases hrun
  | ok found =>
    obtain ⟨diff, plan⟩ := found
    refine ⟨_, rfl, ?_⟩
    rw [hfind] at hrun
    simp only at hrun
    split at hrun
    · -- A plan without handlers is one for no changed keys.
      rename_i hempty
      have hnil : plan.handlers = [] := List.isEmpty_iff.mp hempty
      have hkeys := Plan.changedKeys_of_make (planFor_of_findings hfind) hnil
      have hnone : outlook (diff, plan) = .unchanged := by
        unfold outlook Plan.ids
        simp only [hnil, hkeys]
        rfl
      rw [hnone]
      have hsettled : (r.settle >>= fun _ => pure Summary.unchanged).Ends w
          (fun s _ => s = .unchanged) fun _ _ => True :=
        Ends.bind_any fun _ _ => ends_pure rfl
      exact hsettled.ok hrun
    · exact (apply_outlook diff plan w).ok hrun

/-- No handler runs just where no key changes. -/
theorem outlook_handlers_iff (hfind : r.findings d resolve w = .ok (diff, plan)) :
    (outlook (diff, plan)).handlers = [] ↔ (outlook (diff, plan)).changedKeys = [] := by
  have hmake := planFor_of_findings hfind
  change plan.handlers.map Handler.id = [] ↔ diff.changedKeys = []
  rw [List.map_eq_nil_iff]
  constructor
  · exact Plan.changedKeys_of_make hmake
  · intro hkeys
    rcases Plan.make_ok hmake with ⟨-, hnil⟩ | ⟨hne, -⟩
    · exact hnil
    · exact absurd hkeys hne

/-- A preview leaves nothing but lines in the log and runs no handler. Where a pass without a check
succeeds, the preview announces just what the pass did, no handlers just where no keys change. Where
the preview fails, the pass fails for the same reason and does nothing, and so it does with other
handlers. -/
theorem preview_agrees (r : Resource ρ) (d : Definition) (resolve : Store → Resolver)
    (consent : Consent) (w : World ρ) :
    (∃ texts, ((r.preview d resolve).run w).2 = noted texts w) ∧
      (∀ id operation, (r.replace id operation).preview d resolve = r.preview d resolve) ∧
      (∀ s t, (r.converge d ⟨false, consent⟩ resolve).run w = (.ok s, t) →
        ((r.preview d resolve).run w).1 = .ok s ∧ (s.handlers = [] ↔ s.changedKeys = [])) ∧
      ∀ cause, ((r.preview d resolve).run w).1 = .error cause →
        (r.converge d ⟨false, consent⟩ resolve).run w = (.error cause, w) ∧
          ∀ id operation, ((r.replace id operation).converge d ⟨false, consent⟩ resolve).run w =
            (.error cause, w) := by
  obtain ⟨texts, hpreview⟩ := run_preview r d resolve w
  rw [hpreview]
  refine ⟨⟨texts, rfl⟩, fun _ _ => preview_replace, ?_, ?_⟩
  · intro s t hrun
    obtain ⟨⟨diff, plan⟩, hfind, rfl⟩ := converge_outlook rfl hrun
    rw [hfind]
    exact ⟨rfl, outlook_handlers_iff hfind⟩
  · intro cause hcause
    cases hfind : r.findings d resolve w with
    | ok found =>
      rw [hfind] at hcause
      cases hcause
    | error other =>
      rw [hfind] at hcause
      cases hcause
      refine ⟨run_converge_refused rfl hfind, fun id operation => run_converge_refused rfl ?_⟩
      rw [findings_replace, hfind]
      rfl

end DesiredState.Resource
