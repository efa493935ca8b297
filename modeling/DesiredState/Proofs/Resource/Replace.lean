import DesiredState.Proofs.Resource.Course

/-!
# One handler works in another way

The driver of a pass looks at the ids, the keys and the order of handlers and not at what they do.
So a pass over a resource with another operation in the place of one of its handlers goes the same
way as long as the two operations do.
-/

namespace DesiredState

open DesiredState.Action

namespace Action

variable {σ ε δ α β γ : Type} {I : σ → Prop}

/-- Where `I` holds the second action runs like the first one, which keeps `I`. -/
structure Alike (I : σ → Prop) (a b : Action σ ε α) : Prop where
  same : ∀ s, I s → b.run s = a.run s
  keeps : ∀ s, I s → I (a.run s).2

variable {a b : Action σ ε α}

theorem alike_of_ends (h : ∀ s, I s → a.Ends s (fun _ t => I t) fun _ t => I t) : Alike I a a :=
  ⟨fun _ _ => rfl, fun s hs => (h s hs).state⟩

theorem Reads.alike (h : a.Reads) : Alike I a a :=
  ⟨fun _ _ => rfl, fun s hs => by rwa [h s]⟩

theorem alike_update {f : σ → σ} (h : ∀ s, I s → I (f s)) :
    Alike I (update f : Action σ ε Unit) (update f) := ⟨fun _ _ => rfl, h⟩

theorem Alike.bind {f g : α → Action σ ε β} (h : Alike I a b) (hf : ∀ x, Alike I (f x) (g x)) :
    Alike I (a >>= f) (b >>= g) := by
  have hboth : ∀ s, I s → (b >>= g).run s = (a >>= f).run s ∧ I ((a >>= f).run s).2 := by
    intro s hs
    have hkept := h.keeps s hs
    rw [run_bind, run_bind, h.same s hs]
    cases hr : a.run s with
    | mk outcome t =>
      rw [hr] at hkept
      cases outcome with
      | error e => exact ⟨rfl, hkept⟩
      | ok x => exact ⟨(hf x).same t hkept, (hf x).keeps t hkept⟩
  exact ⟨fun s hs => (hboth s hs).1, fun s hs => (hboth s hs).2⟩

theorem Alike.attempt (h : Alike I a b) :
    Alike I (attempt a : Action σ δ (Except ε α)) (attempt b) where
  same s hs := congrArg (fun r : Except ε α × σ => (Except.ok r.1, r.2)) (h.same s hs)
  keeps := h.keeps

/-- Results that belong together lead to actions that run alike. -/
theorem alike_ofExcept_bind {r : Except ε α} {k : α → γ} {f : α → Action σ ε β}
    {g : γ → Action σ ε β} (h : ∀ x, r = .ok x → Alike I (f x) (g (k x))) :
    Alike I (ofExcept r >>= f) (ofExcept (r.map k) >>= g) := by
  cases r with
  | error e => exact (reads_ofExcept (.error e)).alike
  | ok x => exact h x rfl

theorem alike_forEach {k : β → γ} {f : β → Action σ ε Unit} {g : γ → Action σ ε Unit}
    {xs : List β} (h : ∀ x ∈ xs, Alike I (f x) (g (k x))) :
    Alike I (forEach f xs) (forEach g (xs.map k)) := by
  induction xs with
  | nil => exact (reads_pure ()).alike
  | cons x xs ih =>
    exact (h x List.mem_cons_self).bind fun _ => ih fun y hy => h y (List.mem_cons_of_mem _ hy)

end Action

variable {ω : Type}

/-- The handler with an id gets another operation. -/
def Handler.replace (id : String) (operation : ω) (h : Handler ω) : Handler ω :=
  if h.id = id then { h with operation := operation } else h

def Registry.replace (id : String) (operation : ω) (r : Registry ω) : Registry ω :=
  ⟨r.handlers.map (Handler.replace id operation)⟩

/-- The same plan, one handler of which works in another way. -/
def Plan.replace (id : String) (operation : ω) (p : Plan ω) : Plan ω :=
  ⟨p.handlers.map (Handler.replace id operation)⟩

section Replace

variable {id : String} {operation : ω}

namespace Handler

@[simp] theorem id_replace (h : Handler ω) : (h.replace id operation).id = h.id := by
  unfold replace
  split <;> rfl

@[simp] theorem keys_replace (h : Handler ω) : (h.replace id operation).keys = h.keys := by
  unfold replace
  split <;> rfl

@[simp] theorem after_replace (h : Handler ω) : (h.replace id operation).after = h.after := by
  unfold replace
  split <;> rfl

end Handler

namespace Registry

variable (r : Registry ω)

@[simp] theorem size_replace : (r.replace id operation).size = r.size := List.length_map ..

@[simp] theorem at?_replace (place : Nat) :
    (r.replace id operation).at? place = (r.at? place).map (Handler.replace id operation) :=
  List.getElem?_map ..

@[simp] theorem place?_replace (other : String) :
    (r.replace id operation).place? other = r.place? other := by
  unfold place? replace
  rw [List.findIdx?_map]
  simp [Function.comp_def]

@[simp] theorem owns_replace (place : Nat) (key : String) :
    (r.replace id operation).owns place key = r.owns place key := by
  unfold owns
  rw [at?_replace]
  cases r.at? place with
  | none => rfl
  | some h => simp only [Option.map_some, Handler.keys_replace]

@[simp] theorem before_replace (place : Nat) :
    (r.replace id operation).before place = r.before place := by
  unfold before
  rw [at?_replace]
  cases r.at? place with
  | none => rfl
  | some h =>
    simp only [Option.map_some, Handler.after_replace]
    exact List.filterMap_congr fun other _ => r.place?_replace other

@[simp] theorem coveredKeys_replace : (r.replace id operation).coveredKeys = r.coveredKeys := by
  unfold coveredKeys replace
  rw [List.flatMap_map]
  simp

end Registry

namespace Plan

@[simp] theorem ids_replace (p : Plan ω) : (p.replace id operation).ids = p.ids := by
  unfold ids replace
  simp [Function.comp_def]

@[simp] theorem isEmpty_replace (p : Plan ω) : (p.replace id operation).isEmpty = p.isEmpty := by
  unfold isEmpty replace
  simp

theorem select?_replace (r : Registry ω) (keys : List String) :
    select? (r.replace id operation) keys = select? r keys := by
  have hcovers : covers (r.replace id operation) keys = covers r keys := by
    funext places
    simp [covers]
  simp [select?, hcovers]

theorem order_replace (r : Registry ω) (chosen : List Nat) :
    order (r.replace id operation) chosen = order r chosen := by
  have hbefore : (r.replace id operation).before = r.before := funext r.before_replace
  simp [order, hbefore]

/-- Which handlers are planned does not depend on what they do. -/
theorem make_replace (resourceType : String) (r : Registry ω) (d : Diff) :
    make resourceType (r.replace id operation) d =
      (make resourceType r d).map (Plan.replace id operation) := by
  unfold make
  simp only [Registry.coveredKeys_replace, select?_replace, order_replace]
  split
  · rfl
  split
  · rfl
  cases select? r d.changedKeys with
  | none => rfl
  | some chosen =>
    refine congrArg Except.ok (congrArg Plan.mk ?_)
    rw [List.map_filterMap]
    exact List.filterMap_congr fun place _ => r.at?_replace place

end Plan

end Replace

namespace Resource

variable {ρ : Type}

/-- The same resource, one handler of which works in another way. -/
def replace (id : String) (operation : Handling ρ) (r : Resource ρ) : Resource ρ :=
  { r with registry := r.registry.replace id operation }

variable {r : Resource ρ} {id : String} {operation : Handling ρ} {I : World ρ → Prop}
  {d : Definition} {consent : Consent} {options : PassOptions}

theorem planFor_replace (diff : Diff) :
    (r.replace id operation).planFor diff = (r.planFor diff).map (Plan.replace id operation) :=
  Plan.make_replace r.resourceType r.registry diff

/-- What the driver itself changes keeps `I`: the journal and the recorded status. -/
structure Driven (r : Resource ρ) (I : World ρ → Prop) : Prop where
  record : ∀ entry w, I w → I (w.record entry)
  status : ∀ status, Alike I (World.onStore (State.setStatus r.record status) : Task ρ Unit)
    (World.onStore (State.setStatus r.record status))

namespace Driven

theorem alike_record (h : r.Driven I) (entry : JournalEntry) :
    Alike I (update (World.record entry) : Task ρ Unit) (update (World.record entry)) :=
  alike_update (h.record entry)

theorem alike_readStatus (_ : r.Driven I) :
    Alike I (World.onStore (State.status r.record) : Task ρ Status)
      (World.onStore (State.status r.record)) :=
  Reads.alike fun w => by rw [run_status]

theorem settle (h : r.Driven I) : Alike I r.settle r.settle := by
  have hread : (World.onStore (State.resourceId r.record) : Task ρ (Option String)).Reads :=
    fun w => by rw [run_identity]
  unfold Resource.settle
  refine hread.alike.bind fun identity => ?_
  split
  · exact h.alike_record _
  · refine h.alike_readStatus.bind fun status => ?_
    split
    · exact h.alike_record _
    · exact (h.alike_record _).bind fun _ => h.status .up

theorem begin (h : r.Driven I) : Alike I r.begin r.begin := by
  unfold Resource.begin
  refine h.alike_readStatus.bind fun status => ?_
  split
  · exact h.status .starting
  · exact (reads_pure ()).alike

theorem reportEnd (h : r.Driven I) (handler : Handler (Handling ρ))
    (outcome : Except Failure Unit) : Alike I (r.reportEnd handler outcome)
      ((r.replace id operation).reportEnd (handler.replace id operation) outcome) := by
  unfold Resource.reportEnd
  rw [Handler.id_replace]
  split
  · exact h.alike_record _
  · exact (reads_pure ()).alike

theorem runHandler (h : r.Driven I) {handler : Handler (Handling ρ)}
    (hop : Alike I (handler.operation d consent)
      ((handler.replace id operation).operation d consent)) :
    Alike I (r.runHandler d consent handler)
      ((r.replace id operation).runHandler d consent (handler.replace id operation)) := by
  unfold Resource.runHandler
  rw [Handler.id_replace]
  exact (h.alike_record _).bind fun _ => hop.attempt.bind fun outcome =>
    (h.reportEnd handler outcome).bind fun _ => (reads_ofExcept outcome).alike

theorem apply (h : r.Driven I) {diff : Diff} {plan : Plan (Handling ρ)}
    (hops : ∀ handler ∈ plan.handlers, Alike I (handler.operation d consent)
      ((handler.replace id operation).operation d consent)) :
    Alike I (r.apply d consent diff plan)
      ((r.replace id operation).apply d consent diff (plan.replace id operation)) := by
  unfold Resource.apply
  rw [Plan.ids_replace]
  refine (h.alike_record _).bind fun _ => (h.alike_record _).bind fun _ => h.begin.bind fun _ => ?_
  refine (alike_forEach fun handler hm => h.runHandler (hops handler hm)).bind fun _ => ?_
  exact (h.status .up).bind fun _ => (reads_pure _).alike

theorem pass (h : r.Driven I) (resolve : Store → Resolver)
    (hops : ∀ handler ∈ r.registry.handlers, Alike I (handler.operation d consent)
      ((handler.replace id operation).operation d consent)) :
    Alike I (r.pass d consent resolve) ((r.replace id operation).pass d consent resolve) := by
  unfold Resource.pass
  refine (r.difference_reads d resolve).alike.bind fun diff => ?_
  rw [planFor_replace]
  refine alike_ofExcept_bind fun plan hplan => ?_
  rw [Plan.isEmpty_replace]
  split
  · exact h.settle.bind fun _ => (reads_pure _).alike
  · exact h.apply fun handler hm => hops handler (Plan.mem_registry_of_make hplan hm)

theorem warnDrift (h : r.Driven I) (report : CheckReport) :
    Alike I (Resource.warnDrift r.name report : Task ρ Unit)
      (Resource.warnDrift r.name report) := by
  unfold Resource.warnDrift
  have heach : Alike I (forEach (fun drift => World.log .warn .engine (driftText r.name drift))
      report.drift : Task ρ Unit) (forEach (fun drift => World.log .warn .engine
        (driftText r.name drift)) (report.drift.map id)) :=
    alike_forEach fun drift _ => h.alike_record _
  rwa [List.map_id] at heach

/-- A creating pass goes the same way as long as the handlers do. -/
theorem create (h : r.Driven I) (hcheck : Alike I r.check r.check)
    (hops : ∀ handler ∈ r.registry.handlers, Alike I (handler.operation d options.consent)
      ((handler.replace id operation).operation d options.consent)) :
    Alike I (r.create d options) ((r.replace id operation).create d options) := by
  unfold Resource.create Resource.converge
  refine (reads_ofExcept _).alike.bind fun _ => ?_
  split
  · refine hcheck.bind fun report => ?_
    exact (h.warnDrift report).bind fun _ => h.pass _ hops
  · exact h.pass _ hops

end Driven

end Resource

end DesiredState
