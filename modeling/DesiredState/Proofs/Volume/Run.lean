import DesiredState.Proofs.Store.Declare
import DesiredState.Proofs.Volume.Sound

/-!
# Runs over the volumes of a deployment

A run declares volumes, passes over them in any order with any definitions and options, lets calls
to the provider fail, deletes volumes behind the engine's back and moves the clock. What every run
keeps is stated for a ledger that gives the entry of each declared volume.
-/

namespace DesiredState.Volume

open DesiredState.Action

inductive Pass where
  | create (d : Definition) (options : PassOptions)
  | check
  | destroy (wipe : Bool) (confirm : Confirmation)

/-- The world after an operation, however it ends. -/
def Pass.run (v : Resource Cloud) (w : World Cloud) : Pass → World Cloud
  | .create d options => ((v.create d options).run w).2
  | .check => (v.check.run w).2
  | .destroy wipe confirm => ((v.destroy wipe confirm).run w).2

/-- The next call to the provider that has no failure yet will fail. -/
def failing (cause : Failure) (w : World Cloud) : World Cloud :=
  { w with remote := w.remote.failNext cause }

def atTime (now : UInt64) (w : World Cloud) : World Cloud := { w with now := now.toNat }

/-- Something that happens to the volumes of a deployment. -/
inductive Event where
  | declare (name : String)
  | pass (name : String) (p : Pass)
  | fail (cause : Failure)
  /-- A volume is deleted behind the engine's back. -/
  | forget (id : String)
  | clock (now : UInt64)

/-- Whether the provider is tampered with. -/
def Event.tampers : Event → Bool
  | .forget _ => true
  | _ => false

/-- The world after an event. A volume is declared before a pass, which finds it by its name. -/
def Event.run (deployment : String) (w : World Cloud) : Event → World Cloud
  | .declare name => ((Volume.declare deployment name volumeType).run w).2
  | .pass name p =>
    match (Volume.declare deployment name volumeType).run w with
    | (.ok v, t) => p.run v t
    | (.error _, t) => t
  | .fail cause => failing cause w
  | .forget id => { w with remote := w.remote.forget id }
  | .clock now => atTime now w

/-- An empty deployment and a provider without volumes. -/
def fixture (deployment : String) (settlePolls : Nat) (services : Services) (now : UInt64) :
    World Cloud :=
  { World.start (Cloud.empty settlePolls) services now.toNat with
    store := ((Store.createDeployment deployment).run Store.empty).2 }

def after (deployment : String) (events : List Event) (w : World Cloud) : World Cloud :=
  events.foldl (Event.run deployment) w

/-- A world that a run without tampering leads to. -/
def Reached (deployment : String) (w : World Cloud) : Prop :=
  ∃ settlePolls services now events, (∀ event ∈ events, Event.tampers event = false) ∧
    after deployment events (fixture deployment settlePolls services now) = w

/-- Something that happens while passes are made over one volume only. -/
inductive Turn where
  | pass (p : Pass)
  | fail (cause : Failure)
  | clock (now : UInt64)

def Turn.run (v : Resource Cloud) (w : World Cloud) : Turn → World Cloud
  | .pass p => p.run v w
  | .fail cause => failing cause w
  | .clock now => atTime now w

def taking (v : Resource Cloud) (turns : List Turn) (w : World Cloud) : World Cloud :=
  turns.foldl (Turn.run v) w

/-- The record is that of a declared resource of the deployment. -/
def Declared (deployment : String) (w : World Cloud) (r : ResourceRecord) : Prop :=
  (w.store.resourceNamed? deployment r.name).map (StoredResource.record · deployment) = some r

instance (deployment : String) (w : World Cloud) (r : ResourceRecord) :
    Decidable (Declared deployment w r) := by unfold Declared; infer_instance

variable {intact intact' : Prop} {ledger : Int → Option Entry} {w t : World Cloud}
  {r : ResourceRecord} {e : Entry} {q : Site}

/-- The volume with an id is recorded for a resource. -/
def Owns (ledger : Int → Option Entry) (i : Int) (id : String) : Prop :=
  ∃ e placement, ledger i = some e ∧ e.placement = some placement ∧ placement.id = id

/-- What the provider has, as far as it is mirrored. -/
def provided (w : World Cloud) (id : String) : Option Live :=
  (w.remote.volume? id).map CloudVolume.live

def siteOf (w : World Cloud) (e : Entry) : Site := ⟨e, provided w, w.remote.created⟩

/-- The records of all volumes and the provider agree. -/
structure Mirrored (intact : Prop) (ledger : Int → Option Entry) (w : World Cloud) : Prop where
  records : ∀ {i e}, ledger i = some e → w.store.Records i e.text?
  absent : ∀ {i}, ledger i = none → w.store.attributesOf? (.resource i) = none
  bounded : ∀ {i e}, ledger i = some e → i ≤ w.store.lastId
  owned : ∀ {id l}, provided w id = some l → ∃ i, Owns ledger i id
  distinct : ∀ {i j id}, Owns ledger i id → Owns ledger j id → i = j
  numbered : ∀ {i id}, Owns ledger i id → Numbered w.remote.created id
  agrees : ∀ {i e}, ledger i = some e → (siteOf w e).Agrees
  alive : intact → ∀ {i id}, Owns ledger i id → (provided w id).isSome
  clear : w.obstacles = {}
  timely : w.now < Word.size 64

theorem Mirrored.weaken (h : Mirrored intact ledger w) (hi : intact' → intact) :
    Mirrored intact' ledger w :=
  ⟨h.records, h.absent, h.bounded, h.owned, h.distinct, h.numbered, h.agrees,
    fun hi' => h.alive (hi hi'), h.clear, h.timely⟩

/-- Another resource has the volume. -/
def Others (ledger : Int → Option Entry) (i : Int) (id : String) : Prop :=
  ∃ j, j ≠ i ∧ Owns ledger j id

theorem Mirrored.shows (h : Mirrored intact ledger w) (he : ledger r.id = some e) :
    Shows r w (siteOf w e) w :=
  ⟨Store.Beside.refl _ _, h.records he, ⟨fun _ => rfl, rfl⟩, rfl, h.clear⟩

theorem Mirrored.sound (h : Mirrored intact ledger w) {i : Int} (he : ledger i = some e) :
    Sound intact (Others ledger i) (provided w) (siteOf w e) where
  agrees := h.agrees he
  owned := by
    intro id l hl
    obtain ⟨j, hj⟩ := h.owned hl
    by_cases hij : j = i
    · subst hij
      obtain ⟨e', placement, he', hp, hid⟩ := hj
      obtain rfl := Option.some.inj (he.symm.trans he')
      exact Or.inr ⟨placement, hp, hid⟩
    · exact Or.inl ⟨j, hij, hj⟩
  apart := by
    rintro placement hp ⟨j, hij, hj⟩
    exact hij (h.distinct hj ⟨e, placement, he, hp, rfl⟩)
  numbered hp := h.numbered ⟨e, _, he, hp, rfl⟩
  numberedOthers := by
    rintro id ⟨j, -, hj⟩
    exact h.numbered hj
  untouched _ := rfl
  alive hi _ hp := h.alive hi ⟨e, _, he, hp, rfl⟩

theorem Shows.siteOf (h : Shows r w q t) : siteOf t q.entry = q := by
  obtain ⟨e, live, created⟩ := q
  have hlive : provided t = live := funext h.provides.live
  have hcreated : t.remote.created = created := h.provides.created
  rw [Volume.siteOf, hlive, hcreated]

abbrev enter (ledger : Int → Option Entry) (i : Int) (e : Entry) : Int → Option Entry :=
  Function.update ledger i (some e)

theorem enter_self {i : Int} (he : ledger i = some e) : enter ledger i e = ledger := by
  rw [enter, ← he, Function.update_eq_self]

theorem owns_enter {i j : Int} {id : String} (h : Owns (enter ledger i e) j id) :
    (j = i ∧ ∃ placement, e.placement = some placement ∧ placement.id = id) ∨
      (j ≠ i ∧ Owns ledger j id) := by
  obtain ⟨e', placement, he', hp, hid⟩ := h
  by_cases hj : j = i
  · subst hj
    rw [enter, Function.update_self] at he'
    cases he'
    exact Or.inl ⟨rfl, placement, hp, hid⟩
  · rw [enter, Function.update_of_ne hj] at he'
    exact Or.inr ⟨hj, e', placement, he', hp, hid⟩

theorem Owns.enter_of_ne {i j : Int} {id : String} (h : Owns ledger j id) (hj : j ≠ i) :
    Owns (enter ledger i e) j id := by
  obtain ⟨e', placement, he', hp, hid⟩ := h
  exact ⟨e', placement, by rwa [enter, Function.update_of_ne hj], hp, hid⟩

/-- A declared resource has its entry. -/
theorem Mirrored.entry_of_declared (h : Mirrored intact ledger w) {deployment : String}
    (hr : Declared deployment w r) : ∃ e, ledger r.id = some e := by
  obtain ⟨stored, hstored, rfl⟩ := Option.map_eq_some_iff.mp hr
  cases he : ledger (stored.record deployment).id with
  | some e => exact ⟨e, rfl⟩
  | none =>
    have habsent := h.absent he
    rw [Store.attributesOf?, Option.map_eq_none_iff] at habsent
    have hsome := Store.resourceById?_of_named hstored
    rw [StoredResource.record, habsent] at *
    cases hsome

/-- A change of one volume that keeps its site sound keeps all of them in agreement. -/
theorem Mirrored.step (h : Mirrored intact ledger w) (he : ledger r.id = some e)
    (hs : Shows r w q t) (hq : Sound intact (Others ledger r.id) (provided w) q) :
    Mirrored intact (enter ledger r.id q.entry) t where
  records := by
    intro i e' he'
    by_cases hi : i = r.id
    · subst hi
      rw [enter, Function.update_self] at he'
      cases he'
      exact hs.records
    · rw [enter, Function.update_of_ne hi] at he'
      exact (h.records he').beside hs.beside hi
  absent := by
    intro i hi
    by_cases hir : i = r.id
    · subst hir
      rw [enter, Function.update_self] at hi
      cases hi
    · rw [enter, Function.update_of_ne hir] at hi
      rw [hs.beside.others _ (by simpa using hir)]
      exact h.absent hi
  bounded := by
    intro i e' he'
    rw [hs.beside.lastId]
    by_cases hi : i = r.id
    · subst hi
      exact h.bounded he
    · rw [enter, Function.update_of_ne hi] at he'
      exact h.bounded he'
  owned := by
    intro id l hl
    rw [provided, hs.provides.live] at hl
    rcases hq.owned hl with ⟨j, hj, ho⟩ | ⟨placement, hp, hid⟩
    · exact ⟨j, ho.enter_of_ne hj⟩
    · exact ⟨r.id, q.entry, placement, Function.update_self .., hp, hid⟩
  distinct := by
    intro i j id hi hj
    rcases owns_enter hi with ⟨rfl, placement, hp, rfl⟩ | ⟨hir, hi⟩
    · rcases owns_enter hj with ⟨rfl, -⟩ | ⟨hjr, hj⟩
      · rfl
      · exact absurd ⟨j, hjr, hj⟩ (hq.apart hp)
    · rcases owns_enter hj with ⟨rfl, placement, hp, rfl⟩ | ⟨-, hj⟩
      · exact absurd ⟨i, hir, hi⟩ (hq.apart hp)
      · exact h.distinct hi hj
  numbered := by
    intro i id hi
    rw [hs.provides.created]
    rcases owns_enter hi with ⟨rfl, placement, hp, rfl⟩ | ⟨hir, hi⟩
    · exact hq.numbered hp
    · exact hq.numberedOthers ⟨i, hir, hi⟩
  agrees := by
    intro i e' he'
    by_cases hi : i = r.id
    · subst hi
      rw [enter, Function.update_self] at he'
      cases he'
      rw [hs.siteOf]
      exact hq.agrees
    · rw [enter, Function.update_of_ne hi] at he'
      intro placement l hp hl
      have hother : Others ledger r.id placement.id := ⟨i, hi, e', placement, he', hp, rfl⟩
      have hl' : provided t placement.id = some l := hl
      rw [provided, hs.provides.live, hq.untouched hother] at hl'
      exact h.agrees he' placement l hp hl'
  alive := by
    intro hi i id ho
    rw [provided, hs.provides.live]
    rcases owns_enter ho with ⟨rfl, placement, hp, rfl⟩ | ⟨hir, ho⟩
    · exact hq.alive hi hp
    · rw [hq.untouched ⟨i, hir, ho⟩]
      exact h.alive hi ho
  clear := hs.clear
  timely := by
    rw [hs.now]
    exact h.timely

/-- What a task leaves that ends well and badly alike. -/
theorem Mirrored.lead {α : Type} {a : Task Cloud α} {P : Site → Prop}
    (h : Mirrored intact ledger w) (he : ledger r.id = some e)
    (ha : Leads r w a (siteOf w e) (fun _ q => P q) P) :
    ∃ q, Shows r w q (a.run w).2 ∧ P q :=
  Ends.state (P := fun t => ∃ q, Shows r w q t ∧ P q) (ha w (h.shows he))

/-- A task that keeps its site sound keeps all volumes in agreement. -/
theorem Mirrored.task {α : Type} {a : Task Cloud α} (h : Mirrored intact ledger w)
    (he : ledger r.id = some e)
    (ha : Leads r w a (siteOf w e)
      (fun _ q => Sound intact (Others ledger r.id) (provided w) q)
      fun q => Sound intact (Others ledger r.id) (provided w) q) :
    ∃ e', Mirrored intact (enter ledger r.id e') (a.run w).2 := by
  obtain ⟨q, hq, hsound⟩ := h.lead he ha
  exact ⟨q.entry, h.step he hq hsound⟩

theorem Mirrored.pass (h : Mirrored intact ledger w) (he : ledger r.id = some e) (p : Pass) :
    ∃ e', Mirrored intact (enter ledger r.id e') (p.run (resource r) w) := by
  have hsound := h.sound he
  cases p with
  | create d options => exact h.task he (create_sound hsound)
  | check => exact h.task he (check_sound hsound)
  | destroy wipe confirm => exact h.task he (destroy_sound hsound)

theorem Mirrored.failing (h : Mirrored intact ledger w) (cause : Failure) :
    Mirrored intact ledger (failing cause w) :=
  ⟨h.records, h.absent, h.bounded, h.owned, h.distinct, h.numbered, h.agrees, h.alive, h.clear,
    h.timely⟩

theorem Mirrored.atTime (h : Mirrored intact ledger w) (now : UInt64) :
    Mirrored intact ledger (atTime now w) :=
  ⟨h.records, h.absent, h.bounded, h.owned, h.distinct, h.numbered, h.agrees, h.alive, h.clear,
    now.toNat_lt⟩

/-- A volume that somebody deleted is still recorded, and nothing else is wrong. -/
theorem Mirrored.forget (h : Mirrored intact ledger w) (id : String) :
    Mirrored False ledger { w with remote := w.remote.forget id } := by
  have hgone : ∀ {other l}, provided { w with remote := w.remote.forget id } other = some l →
      provided w other = some l := by
    intro other l hl
    simp only [provided, Cloud.volume?, Cloud.forget, KeyMap.find?_erase] at hl ⊢
    split at hl
    · cases hl
    · exact hl
  exact ⟨h.records, h.absent, h.bounded, fun hl => h.owned (hgone hl), h.distinct, h.numbered,
    fun he placement l hp hl => h.agrees he placement l hp (hgone hl), False.elim, h.clear,
    h.timely⟩

theorem records_blank {s : Store} {i : Int}
    (h : s.attributesOf? (.resource i) = some .empty) : s.Records i Entry.blank.text? := by
  refine ⟨_, h, fun key => ?_⟩
  simp [Entry.blank, Entry.text?]

/-- Nothing is recorded of a new resource. -/
theorem Mirrored.add (h : Mirrored intact ledger w) {deployment name : String}
    {d : StoredDeployment} (hd : w.store.deployments.find? deployment = some d) :
    Mirrored intact (enter ledger (w.store.lastId + 1) .blank)
      { w with store :=
          w.store.addResource deployment d ⟨w.store.lastId + 1, name, volumeType, .empty⟩ } := by
  have hnone : ledger (w.store.lastId + 1) = none := by
    cases hl : ledger (w.store.lastId + 1) with
    | none => rfl
    | some e =>
      have := h.bounded hl
      omega
  have hnew : w.store.resourceById? (w.store.lastId + 1) = none :=
    Option.map_eq_none_iff.mp (h.absent hnone)
  have hattributes := Store.attributesOf?_addResource
    (r := ⟨w.store.lastId + 1, name, volumeType, .empty⟩) hd hnew
  have howns : ∀ {i id}, Owns (enter ledger (w.store.lastId + 1) .blank) i id →
      Owns ledger i id := by
    intro i id ho
    rcases owns_enter ho with ⟨-, placement, hp, -⟩ | ⟨-, ho⟩
    · cases hp
    · exact ho
  refine ⟨?_, ?_, ?_, ?_, fun hi hj => h.distinct (howns hi) (howns hj),
    fun hi => h.numbered (howns hi), ?_, fun hi _ _ ho => h.alive hi (howns ho), h.clear,
    h.timely⟩
  · intro i e he
    by_cases hi : i = w.store.lastId + 1
    · subst hi
      rw [enter, Function.update_self] at he
      cases he
      exact records_blank ((hattributes _).trans (if_pos rfl))
    · rw [enter, Function.update_of_ne hi] at he
      obtain ⟨m, hm, hlook⟩ := h.records he
      exact ⟨m, ((hattributes i).trans (if_neg hi)).trans hm, hlook⟩
  · intro i hi
    by_cases hin : i = w.store.lastId + 1
    · subst hin
      rw [enter, Function.update_self] at hi
      cases hi
    · rw [enter, Function.update_of_ne hin] at hi
      exact ((hattributes i).trans (if_neg hin)).trans (h.absent hi)
  · intro i e he
    show i ≤ w.store.lastId + 1
    by_cases hi : i = w.store.lastId + 1
    · omega
    · rw [enter, Function.update_of_ne hi] at he
      have := h.bounded he
      omega
  · intro id l hl
    obtain ⟨i, ho⟩ := h.owned hl
    refine ⟨i, ho.enter_of_ne ?_⟩
    rintro rfl
    obtain ⟨e, -, he, -⟩ := ho
    rw [hnone] at he
    cases he
  · intro i e he
    by_cases hi : i = w.store.lastId + 1
    · subst hi
      rw [enter, Function.update_self] at he
      cases he
      intro placement l hp
      cases hp
    · rw [enter, Function.update_of_ne hi] at he
      exact h.agrees he

/-- Declaring finds the entry of a volume or enters a blank one, and changes nothing but the
store. -/
theorem Mirrored.declares (h : Mirrored intact ledger w) (deployment name : String) :
    (Volume.declare deployment name volumeType).Ends w
      (fun v t => ∃ r ledger' e, v = resource r ∧ ledger' r.id = some e ∧
        Mirrored intact ledger' t ∧ (ledger' = ledger ∨ ∃ i, ledger' = enter ledger i .blank) ∧
        t = { w with store := t.store })
      fun _ t => t = w := by
  unfold Volume.declare
  refine Ends.bind (World.onStore_ends h.clear (Ends.mapError
    ((Store.declareResource_ends w.store deployment name volumeType).mono ?_ ?_)))
  · rintro r t (⟨rfl, -, found, hfound, rfl⟩ | ⟨-, d, hd, rfl, rfl⟩)
    · cases he : ledger found.id with
      | some e => exact ends_pure ⟨_, ledger, e, rfl, he, h, Or.inl rfl, rfl⟩
      | none =>
        have habsent := h.absent he
        rw [Store.attributesOf?, Option.map_eq_none_iff] at habsent
        have hsome := Store.resourceById?_of_named hfound
        rw [habsent] at hsome
        cases hsome
    · exact ends_pure ⟨_, _, .blank, rfl, Function.update_self .., h.add hd, Or.inr ⟨_, rfl⟩, rfl⟩
  · rintro _ t rfl
    rfl

/-- A declared volume has its entry in the ledger. -/
theorem Mirrored.declare (h : Mirrored intact ledger w) (deployment name : String) :
    (Volume.declare deployment name volumeType).Ends w
      (fun v t => ∃ r ledger' e, v = resource r ∧ ledger' r.id = some e ∧
        Mirrored intact ledger' t)
      fun _ t => Mirrored intact ledger t := by
  refine (h.declares deployment name).mono ?_ ?_
  · rintro v t ⟨r, ledger', e, hv, he, h', -⟩
    exact ⟨r, ledger', e, hv, he, h'⟩
  · rintro _ t rfl
    exact h

theorem Mirrored.event (h : Mirrored intact ledger w) (deployment : String) (event : Event) :
    ∃ ledger', Mirrored (intact ∧ event.tampers = false) ledger' (event.run deployment w) := by
  cases event with
  | declare name =>
    refine Ends.state (P := fun t => ∃ ledger', Mirrored _ ledger' t)
      ((h.declare deployment name).mono ?_ ?_)
    · rintro _ t ⟨_, ledger', _, _, _, h'⟩
      exact ⟨ledger', h'.weaken And.left⟩
    · exact fun _ t h' => ⟨ledger, h'.weaken And.left⟩
  | pass name p =>
    refine (h.declare deployment name).elim ?_ ?_
    · rintro _ t hrun ⟨r, ledger', e, rfl, he, h'⟩
      obtain ⟨e', h''⟩ := h'.pass he p
      refine ⟨enter ledger' r.id e', ?_⟩
      simp only [Event.run, hrun]
      exact h''.weaken And.left
    · intro _ t hrun h'
      refine ⟨ledger, ?_⟩
      simp only [Event.run, hrun]
      exact h'.weaken And.left
  | fail cause => exact ⟨ledger, (h.failing cause).weaken And.left⟩
  | forget id => exact ⟨ledger, (h.forget id).weaken fun hi => by cases hi.2⟩
  | clock now => exact ⟨ledger, (h.atTime now).weaken And.left⟩

theorem mirrored_fixture (deployment : String) (settlePolls : Nat) (services : Services)
    (now : UInt64) :
    Mirrored True (fun _ => none) (fixture deployment settlePolls services now) where
  records := by
    intro i e he
    cases he
  absent := by
    intro i _
    rfl
  bounded := by
    intro i e he
    cases he
  owned := by
    intro id l hl
    cases hl
  distinct := by
    rintro i j id ⟨e, _, he, -⟩
    cases he
  numbered := by
    rintro i id ⟨e, _, he, -⟩
    cases he
  agrees := by
    intro i e he
    cases he
  alive := by
    rintro _ i id ⟨e, _, he, -⟩
    cases he
  clear := rfl
  timely := now.toNat_lt

/-- Every run keeps the agreement. -/
theorem mirrored_after (h : Mirrored intact ledger w) (deployment : String)
    (events : List Event) :
    ∃ ledger', Mirrored (intact ∧ ∀ event ∈ events, event.tampers = false) ledger'
      (after deployment events w) := by
  induction events generalizing intact ledger w with
  | nil => exact ⟨ledger, h.weaken And.left⟩
  | cons event events ih =>
    obtain ⟨ledger', h'⟩ := h.event deployment event
    obtain ⟨ledger'', h''⟩ := ih h'
    refine ⟨ledger'', h''.weaken ?_⟩
    simp only [List.forall_mem_cons]
    exact fun hi => ⟨⟨hi.1, hi.2.1⟩, hi.2.2⟩

theorem Reached.mirrored {deployment : String} (h : Reached deployment w) :
    ∃ ledger, Mirrored True ledger w := by
  obtain ⟨settlePolls, services, now, events, hintact, rfl⟩ := h
  obtain ⟨ledger, h⟩ :=
    mirrored_after (mirrored_fixture deployment settlePolls services now) deployment events
  exact ⟨ledger, h.weaken fun _ => ⟨trivial, hintact⟩⟩

/-- Reading an attribute of a resource finds a value. -/
def Recorded (s : Store) (i : Int) (key : String) (v : Json) : Prop :=
  ((Store.get (.resource i) key).run s).1 = .ok (some v)

instance (s : Store) (i : Int) (key : String) (v : Json) : Decidable (Recorded s i key v) := by
  unfold Recorded; infer_instance

theorem Mirrored.get {i : Int} (h : Mirrored intact ledger w) (he : ledger i = some e)
    (key : String) :
    ((Store.get (.resource i) key).run w.store).1 = Store.denoted (e.text? key) := by
  rw [Store.get_run (h.records he)]

theorem Mirrored.status (h : Mirrored intact ledger w) (he : ledger r.id = some e) :
    ((State.status r).run w.store).1 = .ok e.state := by
  rw [status_run (h.records he)]

theorem Mirrored.resourceId (h : Mirrored intact ledger w) (he : ledger r.id = some e) :
    ((State.resourceId r).run w.store).1 = .ok (e.placement.map Placement.id) := by
  rw [resourceId_run (h.records he)]

/-- Nothing else is recorded of a volume without identity. -/
theorem Mirrored.placement_of_new (h : Mirrored intact ledger w) (he : ledger r.id = some e)
    (hnew : ((State.resourceId r).run w.store).1 = .ok none) : e.placement = none := by
  have hid := (h.resourceId he).symm.trans hnew
  exact Option.map_eq_none_iff.mp (Except.ok.inj hid)

/-- The first volume of a deployment. -/
def firstVolume : ResourceRecord := ⟨1, "dep", "data", volumeType⟩

def placedIn (region : String) : Definition :=
  (Definition.bare firstVolume.name volumeType).withSetting "region" (.value (.str region))

def attachedIn (region : String) : Definition :=
  (placedIn region).withSetting "attachedTo" (.value (.str "web"))

def declaredWorld : World Cloud := after "dep" [.declare "data"] (fixture "dep" 0 {} 0)

/-- The volume is attached in its first region. -/
def attachedWorld : World Cloud :=
  after "dep" [.pass "data" (.create (attachedIn "us-east-1") {})] (fixture "dep" 0 {} 0)

/-- Volumes are not ready when they are first asked, and nobody asks twice. -/
def hasty : World Cloud :=
  after "dep" [.declare "data"] (fixture "dep" 1 { poll := { maxTries := 1 } } 0)

end DesiredState.Volume
