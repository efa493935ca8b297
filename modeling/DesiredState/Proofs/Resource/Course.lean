import DesiredState.Proofs.Plan.Make
import DesiredState.Proofs.Store.Frame
import DesiredState.Proofs.World
import DesiredState.Resource.Converge

/-!
# The course of a pass

A pass is followed deed by deed: what it shows, the statuses that it writes and the handlers that
it runs, with the world passed on from each to the next. Handlers are arbitrary; they may do
anything but remove the row of the resource. A pass does nothing that is not listed here.
-/

namespace DesiredState.Resource

open DesiredState.Action

variable {ρ : Type}

/-- One thing that a pass does. -/
inductive Deed (ρ : Type) where
  | shown (entry : JournalEntry)
  | wrote (status : Status)
  | ran (h : Handler (Handling ρ)) (outcome : Except Failure Unit)

/-- Deeds lead from one world to another: what is shown goes to the journal, a status that is
written gets into the store, and a handler does whatever it does. -/
inductive Does (r : Resource ρ) (d : Definition) (consent : Consent) :
    World ρ → List (Deed ρ) → World ρ → Prop
  | nothing {w : World ρ} : Does r d consent w [] w
  | shown {w t : World ρ} {entry : JournalEntry} {deeds : List (Deed ρ)} :
      Does r d consent (w.record entry) deeds t → Does r d consent w (.shown entry :: deeds) t
  | wrote {w u t : World ρ} {status : Status} {deeds : List (Deed ρ)} :
      (World.onStore (State.setStatus r.record status) : Task ρ Unit).run w = (.ok (), u) →
      Does r d consent u deeds t → Does r d consent w (.wrote status :: deeds) t
  | ran {w u t : World ρ} {h : Handler (Handling ρ)} {outcome : Except Failure Unit}
      {deeds : List (Deed ρ)} : (h.operation d consent).run w = (outcome, u) →
      Does r d consent u deeds t → Does r d consent w (.ran h outcome :: deeds) t

variable {r : Resource ρ} {d : Definition} {consent : Consent} {u v w t : World ρ}

theorem Does.append {first rest : List (Deed ρ)} (hfirst : Does r d consent u first v)
    (hrest : Does r d consent v rest w) : Does r d consent u (first ++ rest) w := by
  induction hfirst with
  | nothing => exact hrest
  | shown _ ih => exact .shown (ih hrest)
  | wrote hwrite _ ih => exact .wrote hwrite (ih hrest)
  | ran hrun _ ih => exact .ran hrun (ih hrest)

/-- The status of a resource, as far as it can be read. -/
def statusIn (r : Resource ρ) (w : World ρ) : Except Failure Status :=
  ((World.onStore (State.status r.record) : Task ρ Status).run w).1

/-- The provider's name for a resource, as far as it can be read. -/
def identityIn (r : Resource ρ) (w : World ρ) : Except Failure (Option String) :=
  ((World.onStore (State.resourceId r.record) : Task ρ (Option String)).run w).1

/-- What differs and what is planned, or the first reason why there is no plan. -/
def findings (r : Resource ρ) (d : Definition) (resolve : Store → Resolver) (w : World ρ) :
    Except Failure (Diff × Plan (Handling ρ)) := do
  r.checkType d
  let current ← ((World.onStore (State.snapshot r.record) : Task ρ (KeyMap Json)).run w).1
  let diff ← Diff.compute d current r.reserved (resolve w.store)
  let plan ← r.planFor diff
  return (diff, plan)

def line (level : LogLevel) (text : String) : JournalEntry := .logged ⟨level, .engine, text⟩

def announced (r : Resource ρ) (diff : Diff) (plan : Plan (Handling ρ)) : List (Deed ρ) :=
  [.shown (line .info
      (r.name ++ ": " ++ diff.summary.text ++ " (" ++ ", ".intercalate plan.ids ++ ")")),
    .shown (.progressed (.planned r.name plan.ids))]

def opened (status : Status) : List (Deed ρ) := if status = .up then [] else [.wrote .starting]

/-- The end of a handler is shown, unless the program ends in it. -/
def closed (r : Resource ρ) (outcome : Except Failure Unit) (h : Handler (Handling ρ)) :
    List (Deed ρ) :=
  if Failure.returns outcome then
    [.shown (.progressed (.completed r.name h.id (failureText? outcome)))]
  else []

/-- A handler runs, and its beginning and its end are shown. -/
def performed (r : Resource ρ) (outcome : Except Failure Unit) (h : Handler (Handling ρ)) :
    List (Deed ρ) :=
  .shown (.progressed (.started r.name h.id)) :: .ran h outcome :: r.closed outcome h

/-- The courses that a pass can take in a world, with their results. -/
inductive Course (r : Resource ρ) (d : Definition) (resolve : Store → Resolver) (w : World ρ) :
    List (Deed ρ) → Except Failure Summary → Prop
  /-- There is no plan. -/
  | refused {cause : Failure} : r.findings d resolve w = .error cause →
      Course r d resolve w [] (.error cause)
  /-- Nothing is planned for a resource that does not exist or is up. -/
  | unchanged {diff : Diff} {plan : Plan (Handling ρ)} :
      r.findings d resolve w = .ok (diff, plan) → plan.handlers = [] →
      (r.identityIn w = .ok none ∨
        (∃ id, r.identityIn w = .ok (some id)) ∧ r.statusIn w = .ok .up) →
      Course r d resolve w [.shown (line .debug (r.name ++ ": no change"))] (.ok .unchanged)
  /-- Nothing is planned for a resource that exists and is not up. -/
  | marked {diff : Diff} {plan : Plan (Handling ρ)} {id : String} {status : Status} :
      r.findings d resolve w = .ok (diff, plan) → plan.handlers = [] →
      r.identityIn w = .ok (some id) → r.statusIn w = .ok status → status ≠ .up →
      Course r d resolve w
        [.shown (line .info (r.name ++ ": nothing left to apply, marking up")), .wrote .up]
        (.ok .unchanged)
  /-- Nothing is planned and what the resource is cannot be read. -/
  | unsettled {diff : Diff} {plan : Plan (Handling ρ)} {cause : Failure} :
      r.findings d resolve w = .ok (diff, plan) → plan.handlers = [] →
      (r.identityIn w = .error cause ∨
        (∃ id, r.identityIn w = .ok (some id)) ∧ r.statusIn w = .error cause) →
      Course r d resolve w [] (.error cause)
  /-- Handlers are planned and the status cannot be read. -/
  | halted {diff : Diff} {plan : Plan (Handling ρ)} {cause : Failure} :
      r.findings d resolve w = .ok (diff, plan) → plan.handlers ≠ [] →
      r.statusIn w = .error cause →
      Course r d resolve w (r.announced diff plan) (.error cause)
  /-- All planned handlers run in order and succeed. -/
  | completed {diff : Diff} {plan : Plan (Handling ρ)} {status : Status} :
      r.findings d resolve w = .ok (diff, plan) → plan.handlers ≠ [] →
      r.statusIn w = .ok status →
      Course r d resolve w
        (r.announced diff plan ++ opened status ++
          plan.handlers.flatMap (r.performed (.ok ())) ++ [.wrote .up])
        (.ok ⟨plan.ids, diff.changedKeys⟩)
  /-- Planned handlers run in order until one fails. -/
  | failed {diff : Diff} {plan : Plan (Handling ρ)} {status : Status}
      {done rest : List (Handler (Handling ρ))} {h : Handler (Handling ρ)} {cause : Failure} :
      r.findings d resolve w = .ok (diff, plan) → plan.handlers = done ++ h :: rest →
      r.statusIn w = .ok status →
      Course r d resolve w
        (r.announced diff plan ++ opened status ++
          done.flatMap (r.performed (.ok ())) ++ r.performed (.error cause) h)
        (.error cause)

theorem run_status (r : Resource ρ) (w : World ρ) :
    (World.onStore (State.status r.record) : Task ρ Status).run w = (r.statusIn w, w) :=
  Prod.ext rfl (World.onStore_reads (State.status_reads r.record) w)

theorem run_identity (r : Resource ρ) (w : World ρ) :
    (World.onStore (State.resourceId r.record) : Task ρ (Option String)).run w =
      (r.identityIn w, w) :=
  Prod.ext rfl (World.onStore_reads (State.resourceId_reads r.record) w)

/-- The outcome of comparing a definition with the records. -/
def differenceIn (r : Resource ρ) (d : Definition) (resolve : Store → Resolver) (w : World ρ) :
    Except Failure Diff :=
  ((World.onStore (State.snapshot r.record) : Task ρ (KeyMap Json)).run w).1.bind fun current =>
    Diff.compute d current r.reserved (resolve w.store)

theorem run_difference (r : Resource ρ) (d : Definition) (resolve : Store → Resolver)
    (w : World ρ) : (r.difference d resolve).run w = (r.differenceIn d resolve w, w) := by
  have hsnapshot : ((World.onStore (State.snapshot r.record) : Task ρ _).run w).2 = w :=
    World.onStore_reads (State.snapshot_reads r.record) w
  unfold difference differenceIn
  rw [run_bind]
  cases hrun : (World.onStore (State.snapshot r.record) : Task ρ (KeyMap Json)).run w with
  | mk outcome t =>
    rw [hrun] at hsnapshot
    obtain rfl : t = w := hsnapshot
    cases outcome <;> rfl

theorem difference_reads (r : Resource ρ) (d : Definition) (resolve : Store → Resolver) :
    (r.difference d resolve).Reads := fun w => by rw [run_difference]

theorem findings_eq (r : Resource ρ) (d : Definition) (resolve : Store → Resolver)
    (w : World ρ) :
    r.findings d resolve w = (r.checkType d).bind fun _ => (r.differenceIn d resolve w).bind
      fun diff => (r.planFor diff).bind fun plan => .ok (diff, plan) := by
  unfold findings differenceIn
  cases r.checkType d with
  | error cause => rfl
  | ok _ =>
    cases ((World.onStore (State.snapshot r.record) : Task ρ (KeyMap Json)).run w).1 <;> rfl

/-- A pass that finds a plan goes on with it, and any other pass ends there. -/
theorem run_converge {options : PassOptions} (hcheck : options.check = false)
    (resolve : Store → Resolver) (w : World ρ) :
    (r.converge d options resolve).run w =
      match r.findings d resolve w with
      | .error cause => (.error cause, w)
      | .ok (diff, plan) =>
        if plan.isEmpty then (r.settle >>= fun _ => pure .unchanged).run w
        else (r.apply d options.consent diff plan).run w := by
  rw [findings_eq]
  unfold converge
  rw [run_bind, run_ofExcept]
  cases r.checkType d with
  | error cause => rfl
  | ok _ =>
    simp only [hcheck, Bool.false_eq_true, if_false]
    unfold pass
    rw [run_bind, run_difference]
    cases r.differenceIn d resolve w with
    | error cause => rfl
    | ok diff =>
      simp only
      rw [run_bind, run_ofExcept, Except.bind, Except.bind]
      cases r.planFor diff with
      | error cause => rfl
      | ok plan =>
        simp only [Except.bind]
        split <;> rfl

/-- The store can be read and changed, and the resource has its row. -/
structure Ready (r : Resource ρ) (w : World ρ) : Prop where
  clear : w.obstacles = {}
  stored : (w.store.resourceById? r.record.id).isSome

theorem Ready.record (h : Ready r w) (entry : JournalEntry) : Ready r (w.record entry) :=
  ⟨h.clear, h.stored⟩

theorem Ready.setStatus (h : Ready r w) (status : Status) :
    ∃ t, (World.onStore (State.setStatus r.record status) : Task ρ Unit).run w = (.ok (), t) ∧
      Ready r t := by
  obtain ⟨row, hrow⟩ := Option.isSome_iff_exists.mp h.stored
  have hrecords : w.store.Records r.record.id row.attributes.find? :=
    ⟨row.attributes, by rw [Store.attributesOf?, hrow, Option.map_some], fun _ => rfl⟩
  have hends : (World.onStore (State.setStatus r.record status) : Task ρ Unit).Ends w
      (fun _ t => Ready r t) fun _ _ => False := by
    refine World.onStore_ends h.clear (Ends.mapError ?_)
    exact (Store.set_ends hrecords _ _).imp fun _ _ hs => ⟨h.clear, hs.records.isSome⟩
  exact hends.elim (fun _ t hr ht => ⟨t, hr, ht⟩) fun _ _ _ hf => hf.elim

/-- A result and the world it comes with are reached by one of the courses. -/
def Follows (r : Resource ρ) (d : Definition) (consent : Consent) (resolve : Store → Resolver)
    (w : World ρ) (x : Except Failure Summary × World ρ) : Prop :=
  ∃ deeds, Does r d consent w deeds x.2 ∧ Course r d resolve w deeds x.1

variable {resolve : Store → Resolver} {diff : Diff} {plan : Plan (Handling ρ)}

theorem run_settle (r : Resource ρ) (w : World ρ) :
    r.settle.run w =
      match r.identityIn w with
      | .error cause => (.error cause, w)
      | .ok none => (.ok (), w.record (line .debug (r.name ++ ": no change")))
      | .ok (some _) =>
        match r.statusIn w with
        | .error cause => (.error cause, w)
        | .ok status =>
          if status = .up then
            (.ok (), w.record (line .debug (r.name ++ ": no change")))
          else
            (World.onStore (State.setStatus r.record .up) : Task ρ Unit).run
              (w.record (line .info (r.name ++ ": nothing left to apply, marking up"))) := by
  unfold settle
  rw [run_bind, run_identity]
  cases r.identityIn w with
  | error cause => rfl
  | ok found =>
    cases found with
    | none => rfl
    | some id =>
      simp only [Option.isNone_some, Bool.false_eq_true, if_false]
      rw [run_bind, run_status]
      cases r.statusIn w with
      | error cause => rfl
      | ok status =>
        simp only
        split <;> rfl

theorem follows_settle (hready : Ready r w) (hfind : r.findings d resolve w = .ok (diff, plan))
    (hnil : plan.handlers = []) :
    Follows r d consent resolve w ((r.settle >>= fun _ => pure .unchanged).run w) := by
  rw [run_bind, run_settle]
  cases hid : r.identityIn w with
  | error cause => exact ⟨[], .nothing, .unsettled hfind hnil (Or.inl hid)⟩
  | ok found =>
    cases found with
    | none => exact ⟨_, .shown .nothing, .unchanged hfind hnil (Or.inl hid)⟩
    | some id =>
      cases hstatus : r.statusIn w with
      | error cause => exact ⟨[], .nothing, .unsettled hfind hnil (Or.inr ⟨⟨id, hid⟩, hstatus⟩)⟩
      | ok status =>
        by_cases hup : status = .up
        · subst hup
          exact ⟨_, .shown .nothing, .unchanged hfind hnil (Or.inr ⟨⟨id, hid⟩, hstatus⟩)⟩
        · obtain ⟨t, ht, -⟩ := (hready.record
            (line .info (r.name ++ ": nothing left to apply, marking up"))).setStatus .up
          simp only [if_neg hup, ht]
          exact ⟨_, .shown (.wrote ht .nothing), .marked hfind hnil hid hstatus hup⟩

theorem run_begin (r : Resource ρ) (w : World ρ) :
    r.begin.run w =
      match r.statusIn w with
      | .error cause => (.error cause, w)
      | .ok status =>
        if status = .up then (.ok (), w)
        else (World.onStore (State.setStatus r.record .starting) : Task ρ Unit).run w := by
  unfold begin
  rw [run_bind, run_status]
  cases r.statusIn w with
  | error cause => rfl
  | ok status => by_cases hup : status = .up <;> simp [hup]

/-- A resource that can be written is opened. -/
theorem begin_does (hready : Ready r w) {status : Status} (hstatus : r.statusIn w = .ok status) :
    ∃ t, r.begin.run w = (.ok (), t) ∧ Does r d consent w (opened status) t ∧ Ready r t := by
  rw [run_begin, hstatus]
  unfold opened
  by_cases hup : status = .up
  · rw [if_pos hup]
    exact ⟨w, by simp [hup], .nothing, hready⟩
  · obtain ⟨t, ht, hready'⟩ := hready.setStatus .starting
    rw [if_neg hup]
    exact ⟨t, by simp [hup, ht], .wrote ht .nothing, hready'⟩

/-- A handler leaves the resource its row, whatever else it does. -/
def Keeps (r : Resource ρ) (d : Definition) (consent : Consent) (h : Handler (Handling ρ)) :
    Prop := ∀ w, Ready r w → Ready r ((h.operation d consent).run w).2

theorem reportEnd_does (d : Definition) (consent : Consent) (hready : Ready r w)
    (outcome : Except Failure Unit) (h : Handler (Handling ρ)) :
    ∃ t, (r.reportEnd h outcome).run w = (.ok (), t) ∧
      Does r d consent w (r.closed outcome h) t ∧ Ready r t := by
  unfold reportEnd closed
  split
  · exact ⟨_, rfl, .shown .nothing, hready.record _⟩
  · exact ⟨w, rfl, .nothing, hready⟩

theorem runHandler_does {h : Handler (Handling ρ)} (hkeeps : Keeps r d consent h)
    (hready : Ready r w) :
    ∃ outcome t, (r.runHandler d consent h).run w = (outcome, t) ∧
      Does r d consent w (r.performed outcome h) t ∧ Ready r t := by
  have hstart := hready.record (.progressed (.started r.name h.id))
  have hend := hkeeps _ hstart
  cases hrun : (h.operation d consent).run
      (w.record (.progressed (.started r.name h.id))) with
  | mk outcome t =>
    rw [hrun] at hend
    obtain ⟨u, hreport, hclosed, hready'⟩ := reportEnd_does d consent hend outcome h
    refine ⟨outcome, u, ?_, .shown (.ran hrun hclosed), hready'⟩
    have hattempt : ((h.operation d consent).attempt : Task ρ (Except Failure Unit)).run
        (w.record (.progressed (.started r.name h.id))) = (.ok outcome, t) := by
      change (Except.ok ((h.operation d consent).run _).1, ((h.operation d consent).run _).2) = _
      rw [hrun]
    unfold runHandler
    exact ((run_bind_ok rfl).trans (run_bind_ok hattempt)).trans (run_bind_ok hreport)

/-- Handlers run in turn, all of them or up to the first that fails. -/
theorem forEach_does {hs : List (Handler (Handling ρ))}
    (hkeeps : ∀ h ∈ hs, Keeps r d consent h) (hready : Ready r w) :
    (∃ t, (forEach (r.runHandler d consent) hs).run w = (.ok (), t) ∧
      Does r d consent w (hs.flatMap (r.performed (.ok ()))) t ∧ Ready r t) ∨
    ∃ done h rest cause t, hs = done ++ h :: rest ∧
      (forEach (r.runHandler d consent) hs).run w = (.error cause, t) ∧
        Does r d consent w
          (done.flatMap (r.performed (.ok ())) ++ r.performed (.error cause) h) t := by
  induction hs generalizing w with
  | nil => exact Or.inl ⟨w, rfl, .nothing, hready⟩
  | cons h hs ih =>
    obtain ⟨outcome, u, hrun, hdoes, hready'⟩ :=
      runHandler_does (hkeeps h List.mem_cons_self) hready
    cases outcome with
    | error cause =>
      exact Or.inr ⟨[], h, hs, cause, u, rfl, run_bind_error hrun, hdoes⟩
    | ok _ =>
      have hstep : (forEach (r.runHandler d consent) (h :: hs)).run w =
          (forEach (r.runHandler d consent) hs).run u := run_bind_ok hrun
      rw [hstep]
      rcases ih (fun g hg => hkeeps g (List.mem_cons_of_mem h hg)) hready' with
        ⟨t, ht, hrest, hready''⟩ | ⟨done, g, rest, cause, t, hsplit, ht, hrest⟩
      · exact Or.inl ⟨t, ht, hdoes.append hrest, hready''⟩
      · refine Or.inr ⟨h :: done, g, rest, cause, t, by rw [hsplit]; rfl, ht, ?_⟩
        rw [List.flatMap_cons, List.append_assoc]
        exact hdoes.append hrest

theorem follows_apply (hready : Ready r w) (hfind : r.findings d resolve w = .ok (diff, plan))
    (hne : plan.handlers ≠ []) (hkeeps : ∀ h ∈ plan.handlers, Keeps r d consent h) :
    Follows r d consent resolve w ((r.apply d consent diff plan).run w) := by
  -- The plan is shown before anything is read or written.
  obtain ⟨v, hannounced, hv, hreadyV, hstatusV⟩ : ∃ v, (r.apply d consent diff plan).run w =
      (do
        r.begin
        forEach (r.runHandler d consent) plan.handlers
        World.onStore (State.setStatus r.record .up)
        return ⟨plan.ids, diff.changedKeys⟩ : Task ρ Summary).run v ∧
        Does r d consent w (r.announced diff plan) v ∧ Ready r v ∧
          r.statusIn v = r.statusIn w :=
    ⟨_, rfl, .shown (.shown .nothing), (hready.record _).record _, rfl⟩
  rw [hannounced]
  cases hstatus : r.statusIn w with
  | error cause =>
    have hbegin : r.begin.run v = (.error cause, v) := by rw [run_begin, hstatusV, hstatus]
    rw [run_bind_error hbegin]
    exact ⟨_, hv, .halted hfind hne hstatus⟩
  | ok status =>
    obtain ⟨u, hbegin, hopened, hreadyU⟩ := begin_does hreadyV (hstatusV.trans hstatus)
    rw [run_bind_ok hbegin]
    rcases forEach_does hkeeps hreadyU with
      ⟨t, hall, hran, hreadyT⟩ | ⟨done, h, rest, cause, t, hsplit, hsome, hran⟩
    · obtain ⟨x, hup, -⟩ := hreadyT.setStatus .up
      rw [run_bind_ok hall, run_bind_ok hup]
      refine ⟨_, ?_, .completed hfind hne hstatus⟩
      exact ((hv.append hopened).append hran).append (.wrote hup .nothing)
    · rw [run_bind_error hsome]
      refine ⟨_, ?_, .failed hfind hsplit hstatus⟩
      rw [List.append_assoc]
      exact (hv.append hopened).append hran

theorem planFor_of_findings (hfind : r.findings d resolve w = .ok (diff, plan)) :
    r.planFor diff = .ok plan := by
  rw [findings_eq] at hfind
  obtain ⟨_, -, hfind⟩ := bind_eq_ok hfind
  obtain ⟨diff, -, hfind⟩ := bind_eq_ok hfind
  obtain ⟨plan, hplan, hfind⟩ := bind_eq_ok hfind
  cases hfind
  exact hplan

/-- A pass without a check takes one of the courses, whatever its handlers do. No handler is
planned twice. -/
theorem converge_follows {handlers : List (Handler (Handling ρ))}
    (hbuild : Registry.build handlers = .ok r.registry) {options : PassOptions}
    (hcheck : options.check = false) (hready : Ready r w)
    (hkeeps : ∀ h ∈ handlers, Keeps r d options.consent h) (resolve : Store → Resolver) :
    Follows r d options.consent resolve w ((r.converge d options resolve).run w) ∧
      ∀ diff plan, r.findings d resolve w = .ok (diff, plan) → plan.ids.Nodup := by
  obtain ⟨hhandlers, haccepted⟩ := Registry.accepted_of_build hbuild
  refine ⟨?_, fun diff plan hfind => Plan.nodup_ids_of_make haccepted (planFor_of_findings hfind)⟩
  rw [run_converge hcheck]
  cases hfind : r.findings d resolve w with
  | error cause => exact ⟨[], .nothing, .refused hfind⟩
  | ok found =>
    obtain ⟨diff, plan⟩ := found
    simp only
    split
    · rename_i hempty
      exact follows_settle hready hfind (List.isEmpty_iff.mp hempty)
    · rename_i hempty
      refine follows_apply hready hfind (fun hnil => hempty (List.isEmpty_iff.mpr hnil)) ?_
      intro h hmem
      exact hkeeps h (hhandlers ▸ Plan.mem_registry_of_make (planFor_of_findings hfind) hmem)

/-- A server that is installed by one handler and started by another one, which fails. -/
def brokenServer : Resource Unit where
  record := ⟨1, "dep-1", "web", "server"⟩
  resourceType := "server"
  registry := ⟨[⟨"start", KeySet.ofNames ["port"], ["install"],
      fun _ _ => Action.fail (.provider "web" "port taken")⟩,
    ⟨"install", KeySet.ofNames ["image"], [], fun _ _ => pure ()⟩]⟩
  check := pure (.inSync .up)
  destroy := fun _ _ => pure true

/-- A server of which nothing is recorded yet. -/
def newServer : World Unit :=
  { World.start () {} 0 with
    store := ⟨KeyMap.ofList [("dep-1", ⟨.empty, [⟨1, "web", "server", .empty⟩]⟩)], 1⟩ }

def wantedServer : Definition :=
  ⟨"web", "server",
    KeyMap.ofList [("image", .value (.str "debian")), ("port", .value (.bool true))]⟩

/-- The server is installed, and starting it fails the pass. -/
theorem converge_follows_brokenServer :
    Follows brokenServer wantedServer {} (fun _ => Resolver.unresolved) newServer
        ((brokenServer.converge wantedServer {} fun _ => Resolver.unresolved).run newServer) ∧
      ((brokenServer.converge wantedServer {} fun _ => Resolver.unresolved).run newServer).1 =
        .error (.provider "web" "port taken") := by
  have hkeeps : ∀ h ∈ brokenServer.registry.handlers, Keeps brokenServer wantedServer {} h := by
    intro h hmem w hready
    rcases List.mem_cons.mp hmem with rfl | hmem
    · exact hready
    · rw [List.mem_singleton.mp hmem]
      exact hready
  have hbuild : Registry.build brokenServer.registry.handlers = .ok brokenServer.registry := rfl
  have hcheck : ({} : PassOptions).check = false := rfl
  exact ⟨(converge_follows hbuild hcheck ⟨rfl, rfl⟩ hkeeps _).1, rfl⟩

end DesiredState.Resource
