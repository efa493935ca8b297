import DesiredState.Proofs.Volume.Entry
import DesiredState.Proofs.World

/-!
# One volume and its provider

A site is what a task on a volume can see and change: the entry of the volume, and the volumes
that the provider has. `Leads` follows a task from site to site through both of its endings, with
everything else in the store left alone; the journal, the mutexes and the failures that the
provider has in store for later calls may be anything.
-/

namespace DesiredState

/-- A provider's volume, as far as the records mirror it. -/
structure Live where
  region : String
  size : Int
  attachedTo : Option String
  deriving DecidableEq

def CloudVolume.live (v : CloudVolume) : Live := ⟨v.region, v.size, v.attachedTo⟩

namespace Volume

open DesiredState.Action

/-- What is recorded of one volume, and what the provider has. -/
structure Site where
  entry : Entry
  live : String → Option Live
  created : Nat

namespace Site

/-- Another volume, or none, in the place of the one with an id. -/
def put (p : Site) (id : String) (l : Option Live) : Site :=
  { p with live := Function.update p.live id l }

def withEntry (p : Site) (e : Entry) : Site := { p with entry := e }

def withPlacement (p : Site) (placement : Option Placement) : Site :=
  p.withEntry { p.entry with placement := placement }

theorem put_self {p : Site} {id : String} {l : Option Live} (h : p.live id = l) :
    p.put id l = p := by
  rw [put, ← h, Function.update_eq_self]

end Site

/-- The provider has the volumes of the site. -/
structure Provides (c : Cloud) (p : Site) : Prop where
  live : ∀ id, (c.volume? id).map CloudVolume.live = p.live id
  created : c.created = p.created

/-- A world that differs from `w₀` at most in one volume shows the site of that volume. -/
structure Shows (r : ResourceRecord) (w₀ : World Cloud) (p : Site) (w : World Cloud) : Prop where
  beside : Store.Beside r.id w₀.store w.store
  records : w.store.Records r.id p.entry.text?
  provides : Provides w.remote p
  now : w.now = w₀.now
  clear : w.obstacles = {}

section Calls

variable {α : Type} {p : Site} {c : Cloud}

theorem run_call_calm (h : c.failures = []) (name : String) :
    (Cloud.call name).run c = (.ok (), { c with calls := c.calls ++ [name] }) := by
  unfold run Cloud.call
  simp only [h]

theorem run_call_failing {cause : Failure} {rest : List Failure} (h : c.failures = cause :: rest)
    (name : String) :
    (Cloud.call name).run c =
      (.error cause, { c with calls := c.calls ++ [name], failures := rest }) := by
  unfold run Cloud.call
  simp only [h]

/-- A call is logged, and it fails if a failure was arranged. -/
theorem call_ends (name : String) (c : Cloud) :
    (Cloud.call name).Ends c
      (fun _ d => c.failures = [] ∧ d = { c with calls := c.calls ++ [name] })
      fun cause d => ∃ rest, c.failures = cause :: rest ∧
        d = { c with calls := c.calls ++ [name], failures := rest } := by
  cases hfail : c.failures with
  | nil => exact Ends.of_ok (run_call_calm hfail name) ⟨rfl, by rw [hfail]⟩
  | cons cause rest => exact Ends.of_error (run_call_failing hfail name) ⟨rest, rfl, rfl⟩

theorem withVolume_none {id : String} (h : c.volume? id = none)
    (f : CloudVolume → α × CloudVolume) :
    (Cloud.withVolume id f).run c = (.error (.provider id "InvalidVolume.NotFound"), c) := by
  unfold run Cloud.withVolume
  simp only [h]

theorem withVolume_some {id : String} {v : CloudVolume} (h : c.volume? id = some v)
    (f : CloudVolume → α × CloudVolume) :
    (Cloud.withVolume id f).run c =
      (.ok (f v).1, { c with volumes := c.volumes.insert id (f v).2 }) := by
  unfold run Cloud.withVolume
  simp only [h]

theorem Provides.call {name : String} {f : Cloud.Call α} {Q : α → Cloud → Prop}
    (h : Provides c p) (hf : ∀ c, Provides c p → f.Ends c Q fun _ d => Provides d p) :
    (Cloud.call name >>= fun _ => f).Ends c Q fun _ d => Provides d p := by
  refine Ends.bind ((call_ends name c).mono ?_ ?_)
  · rintro _ d ⟨-, rfl⟩
    exact hf _ ⟨h.live, h.created⟩
  · rintro cause d ⟨rest, -, rfl⟩
    exact ⟨h.live, h.created⟩

theorem Provides.volume (h : Provides c p) {id : String} {v : CloudVolume}
    (hv : c.volume? id = some v) : p.live id = some v.live := by
  rw [← h.live id, hv]
  rfl

theorem Provides.live_insert (h : Provides c p) (id : String) (v : CloudVolume) (other : String) :
    ((c.volumes.insert id v).find? other).map CloudVolume.live =
      (p.put id (some v.live)).live other := by
  simp only [KeyMap.find?_insert, Site.put, Function.update_apply]
  split
  · rfl
  · exact h.live other

theorem Provides.withVolume (h : Provides c p) {id : String} {f : CloudVolume → α × CloudVolume}
    {g : Live → Live} (hg : ∀ v, (f v).2.live = g v.live) :
    (Cloud.withVolume id f).Ends c
      (fun _ d => ∃ l, p.live id = some l ∧ Provides d (p.put id (some (g l))))
      fun _ d => Provides d p := by
  cases hv : c.volume? id with
  | none => exact Ends.of_error (withVolume_none hv f) h
  | some v =>
    refine Ends.of_ok (withVolume_some hv f) ⟨v.live, h.volume hv, ?_⟩
    rw [← hg v]
    exact ⟨h.live_insert id (f v).2, h.created⟩

theorem Provides.createVolume (h : Provides c p) (region : String) (size : Int)
    (tags : KeyMap String) :
    (Cloud.createVolume region size tags).Ends c
      (fun id d => id = Cloud.volumeId (p.created + 1) ∧
        Provides d { p.put id (some ⟨region, size, none⟩) with created := p.created + 1 })
      fun _ d => Provides d p :=
  h.call fun c hc => Ends.of_ok rfl (by
    rw [← hc.created]
    exact ⟨rfl, hc.live_insert _ ⟨region, size, tags, none, c.settlePolls⟩, rfl⟩)

theorem Provides.resize (h : Provides c p) (id : String) (size : Int) :
    (Cloud.resize id size).Ends c
      (fun _ d => ∃ l, p.live id = some l ∧ Provides d (p.put id (some { l with size := size })))
      fun _ d => Provides d p :=
  h.call fun _ hc => hc.withVolume (g := fun l => { l with size := size }) fun _ => rfl

theorem Provides.attach (h : Provides c p) (id : String) (target : Option String) :
    (Cloud.attach id target).Ends c
      (fun _ d => ∃ l, p.live id = some l ∧
        Provides d (p.put id (some { l with attachedTo := target })))
      fun _ d => Provides d p :=
  h.call fun _ hc => hc.withVolume (g := fun l => { l with attachedTo := target }) fun _ => rfl

/-- Tags are not mirrored, so nothing changes on the site. -/
theorem Provides.setTags (h : Provides c p) (id : String) (tags : KeyMap String) :
    (Cloud.setTags id tags).Ends c
      (fun _ d => (∃ l, p.live id = some l) ∧ Provides d p) fun _ d => Provides d p :=
  h.call fun _ hc => (hc.withVolume (g := fun l => l) fun _ => rfl).imp fun _ _ hd => by
    obtain ⟨l, hl, hd⟩ := hd
    exact ⟨⟨l, hl⟩, by rwa [Site.put_self hl] at hd⟩

/-- Asking whether a volume is ready changes nothing that is mirrored. -/
theorem Provides.isReady (h : Provides c p) (id : String) :
    (Cloud.isReady id).Ends c (fun _ d => Provides d p) fun _ d => Provides d p :=
  h.call fun _ hc => (hc.withVolume (g := fun l => l) fun v => by split <;> rfl).imp
    fun _ _ hd => by
      obtain ⟨l, hl, hd⟩ := hd
      rwa [Site.put_self hl] at hd

theorem Provides.describe (h : Provides c p) (id : String) :
    (Cloud.describe id).Ends c
      (fun found d => found.map CloudVolume.live = p.live id ∧ Provides d p)
      fun _ d => Provides d p :=
  h.call fun _ hc => ends_view ⟨hc.live id, hc⟩

theorem Provides.deleteVolume (h : Provides c p) (id : String) :
    (Cloud.deleteVolume id).Ends c (fun _ d => Provides d (p.put id none))
      fun _ d => Provides d p :=
  h.call fun c hc => ends_update {
    live := fun other => by
      simp only [Cloud.volume?, Cloud.forget, KeyMap.find?_erase, Site.put, Function.update_apply]
      split
      · rfl
      · exact hc.live other
    created := hc.created }

end Calls

/-- From the site `p` the task returns with `Q` or fails with `E`. -/
def Leads {α : Type} (r : ResourceRecord) (w₀ : World Cloud) (a : Task Cloud α) (p : Site)
    (Q : α → Site → Prop) (E : Site → Prop) : Prop :=
  ∀ w, Shows r w₀ p w →
    a.Ends w (fun x t => ∃ q, Shows r w₀ q t ∧ Q x q) fun _ t => ∃ q, Shows r w₀ q t ∧ E q

section Leads

variable {α β : Type} {r : ResourceRecord} {w₀ : World Cloud} {p : Site}
  {Q Q' : α → Site → Prop} {E E' : Site → Prop}

theorem Shows.record (entry : JournalEntry) {w : World Cloud} (h : Shows r w₀ p w) :
    Shows r w₀ p (w.record entry) := ⟨h.beside, h.records, h.provides, h.now, h.clear⟩

theorem Leads.mono {a : Task Cloud α} (h : Leads r w₀ a p Q E) (hQ : ∀ x q, Q x q → Q' x q)
    (hE : ∀ q, E q → E' q) : Leads r w₀ a p Q' E' := fun w hw =>
  (h w hw).mono (fun _ _ ht => ht.imp fun _ hq => ⟨hq.1, hQ _ _ hq.2⟩)
    fun _ _ ht => ht.imp fun _ hq => ⟨hq.1, hE _ hq.2⟩

theorem Leads.imp {a : Task Cloud α} (h : Leads r w₀ a p Q E) (hQ : ∀ x q, Q x q → Q' x q) :
    Leads r w₀ a p Q' E := h.mono hQ fun _ he => he

theorem Leads.bind {a : Task Cloud α} {f : α → Task Cloud β} {R : β → Site → Prop}
    (h : Leads r w₀ a p (fun x q => Leads r w₀ (f x) q R E) E) : Leads r w₀ (a >>= f) p R E :=
  fun w hw => Ends.bind ((h w hw).imp fun _ t ht => by
    obtain ⟨q, hq, hf⟩ := ht
    exact hf t hq)

theorem leads_pure {x : α} (h : Q x p) : Leads r w₀ (pure x) p Q E :=
  fun _ hw => ends_pure ⟨p, hw, h⟩

theorem leads_fail {cause : Failure} (h : E p) : Leads r w₀ (Action.fail cause) p Q E :=
  fun _ hw => ends_fail ⟨p, hw, h⟩

theorem leads_ofExcept {x : Except Failure α} (hQ : ∀ y, x = .ok y → Q y p) (hE : E p) :
    Leads r w₀ (Action.ofExcept x) p Q E :=
  fun _ hw => ends_ofExcept (fun y hy => ⟨p, hw, hQ y hy⟩) fun _ _ => ⟨p, hw, hE⟩

theorem leads_reading {f : World Cloud → Except Failure α} (hQ : ∀ w x, f w = .ok x → Q x p)
    (hE : E p) : Leads r w₀ (Action.reading f) p Q E :=
  fun w hw => ends_reading (fun x hx => ⟨p, hw, hQ w x hx⟩) fun _ _ => ⟨p, hw, hE⟩

/-- The outcome of a task, whichever it is, together with the site it leaves. -/
theorem leads_attempt {a : Task Cloud α} {F : Site → Prop} (h : Leads r w₀ a p Q E) :
    Leads r w₀ a.attempt p
      (fun outcome q => (∀ x, outcome = .ok x → Q x q) ∧ ∀ cause, outcome = .error cause → E q)
      F := fun w hw => Ends.attempt ((h w hw).mono
    (fun x _ ⟨q, hq, hx⟩ => ⟨q, hq, fun _ hy => by cases hy; exact hx, fun _ hy => by cases hy⟩)
    fun _ _ ⟨q, hq, he⟩ => ⟨q, hq, fun _ hy => (by cases hy), fun _ _ => he⟩)

/-- A list of tasks keeps what each of them keeps. -/
theorem leads_forEach {f : β → Task Cloud Unit} {I : Site → Prop} {xs : List β}
    (step : ∀ x ∈ xs, ∀ q, I q → Leads r w₀ (f x) q (fun _ q => I q) E) (h : I p) :
    Leads r w₀ (Action.forEach f xs) p (fun _ q => I q) E := by
  induction xs generalizing p with
  | nil => exact leads_pure h
  | cons x xs ih =>
    refine Leads.bind ((step x List.mem_cons_self p h).imp fun _ q hq => ?_)
    exact ih (fun y hy => step y (List.mem_cons_of_mem _ hy)) hq

/-- A list from which some tasks are taken: the first one runs or is passed over. -/
theorem leads_filter {f : β → Task Cloud Unit} {chosen : β → Bool} {x : β} {xs : List β}
    {I : Site → Prop} {Q : Unit → Site → Prop}
    (hrun : chosen x = true → Leads r w₀ (f x) p (fun _ q => I q) E)
    (hskip : chosen x = false → I p)
    (hrest : ∀ q, I q → Leads r w₀ (Action.forEach f (xs.filter chosen)) q Q E) :
    Leads r w₀ (Action.forEach f ((x :: xs).filter chosen)) p Q E := by
  cases hx : chosen x with
  | true =>
    rw [List.filter_cons_of_pos hx]
    exact Leads.bind ((hrun hx).imp fun _ q hq => hrest q hq)
  | false =>
    rw [List.filter_cons_of_neg (by simp [hx])]
    exact hrest p (hskip hx)

theorem leads_now {Q : Nat → Site → Prop} (h : Q w₀.now p) :
    Leads r w₀ (Action.view World.now) p Q E :=
  fun _ hw => ends_view ⟨p, hw, by rwa [hw.now]⟩

/-- What only leaves a trace in the journal leaves the site. -/
theorem leads_record {entry : JournalEntry} {Q : Unit → Site → Prop} (h : Q () p) :
    Leads r w₀ (Action.update (World.record entry)) p Q E :=
  fun _ hw => ends_update ⟨p, hw.record entry, h⟩

/-- A reading of the store. -/
theorem leads_look {a : Action Store Failure α}
    (ha : ∀ s, s.Records r.id p.entry.text? →
      a.Ends s (fun x t => t = s ∧ Q x p) fun _ t => t = s) (hE : E p) :
    Leads r w₀ (World.onStore a) p Q E := fun _ hw =>
  World.onStore_ends hw.clear ((ha _ hw.records).mono
    (fun _ _ ht => ⟨p, by rw [ht.1]; exact hw, ht.2⟩) fun _ _ ht => ⟨p, by rw [ht]; exact hw, hE⟩)

/-- A reading of the records of the volume. -/
theorem leads_onStore {a : Action Store Failure α} {x : α}
    (ha : ∀ s, s.Records r.id p.entry.text? → a.run s = (.ok x, s)) (h : Q x p) :
    Leads r w₀ (World.onStore a) p Q E :=
  fun _ hw => Ends.of_ok (World.onStore_run hw.clear (ha _ hw.records)) ⟨p, hw, h⟩

theorem leads_inStore {a : Action Store StoreError α} {x : α}
    (ha : ∀ s, s.Records r.id p.entry.text? → a.run s = (.ok x, s)) (h : Q x p) :
    Leads r w₀ (World.inStore a) p Q E :=
  leads_onStore (fun s hs => by rw [run_mapError, ha s hs]; rfl) h

/-- A change of the records. -/
theorem leads_change {a : Action Store Failure Unit} {e : Entry} {Q : Unit → Site → Prop}
    (ha : ∀ s, s.Records r.id p.entry.text? →
      a.Ends s (fun _ t => Store.Becomes r.id s e.text? t) fun _ _ => False)
    (hQ : Q () (p.withEntry e)) : Leads r w₀ (World.onStore a) p Q E := fun _ hw =>
  World.onStore_ends hw.clear ((ha _ hw.records).mono
    (fun _ _ ht => ⟨p.withEntry e, ⟨hw.beside.trans ht.beside, ht.records,
      ⟨hw.provides.live, hw.provides.created⟩, hw.now, hw.clear⟩, hQ⟩)
    fun _ _ ht => ht.elim)

/-- A change of one attribute. -/
theorem leads_write {a : Action Store StoreError Unit} {key : String} {text : Option String}
    {e : Entry} {Q : Unit → Site → Prop}
    (ha : ∀ s, s.Records r.id p.entry.text? → a.Ends s
      (fun _ t => Store.Becomes r.id s (Function.update p.entry.text? key text) t)
      fun _ _ => False)
    (he : Function.update p.entry.text? key text = e.text?) (hQ : Q () (p.withEntry e)) :
    Leads r w₀ (World.inStore a) p Q E :=
  leads_change (fun s hs => Ends.mapError (he ▸ ha s hs)) hQ

/-- A call to the provider, again while its failures are transient. -/
theorem leads_remotely {label : String} {call : Cloud.Call α}
    (hcall : ∀ c, Provides c p → call.Ends c
      (fun x d => ∃ q, Provides d q ∧ q.entry = p.entry ∧ Q x q) fun _ d => Provides d p)
    (hE : E p) : Leads r w₀ (remotely label call) p Q E := by
  intro w hw
  refine (World.retrying_ends (I := Shows r w₀ p) (fun entry _ h => h.record entry)
    (fun v hv => World.onRemote_ends ((hcall _ hv.provides).mono ?_ ?_)) hw).mono
    (fun _ _ h => h) fun _ _ ht => ⟨p, ht, hE⟩
  · rintro x d ⟨q, hd, he, hq⟩
    exact ⟨q, ⟨hv.beside, he ▸ hv.records, hd, hv.now, hv.clear⟩, hq⟩
  · intro _ d hd
    exact ⟨hv.beside, hv.records, hd, hv.now, hv.clear⟩

theorem Shows.mutexes {w : World Cloud} (h : Shows r w₀ p w) (mutexes : Mutexes) :
    Shows r w₀ p { w with mutexes := mutexes } :=
  ⟨h.beside, h.records, h.provides, h.now, h.clear⟩

theorem leads_exclusive {key : LockKey} {a : Task Cloud α} (h : Leads r w₀ a p Q E) :
    Leads r w₀ (World.exclusive key a) p Q E := by
  intro w hw
  refine World.exclusive_ends ((h _ (hw.mutexes _)).mono ?_ ?_)
  · rintro x t ⟨q, ht, hq⟩
    exact ⟨q, ht.mutexes _, hq⟩
  · rintro _ t ⟨q, ht, hq⟩
    exact ⟨q, ht.mutexes _, hq⟩

/-- Waiting for a volume leaves the site. -/
theorem leads_polling {what id : String} {Q : Bool → Site → Prop} (hQ : ∀ held, Q held p)
    (hE : E p) : Leads r w₀ (World.polling what (World.onRemote (Cloud.isReady id))) p Q E := by
  intro w hw
  refine (World.polling_ends (I := Shows r w₀ p) (fun entry _ h => h.record entry)
    (fun v hv => World.onRemote_ends ((hv.provides.isReady id).mono ?_ ?_)) hw).mono
    (fun held _ ht => ⟨p, ht, hQ held⟩) fun _ _ ht => ⟨p, ht, hE⟩
  · intro _ d hd
    exact ⟨hv.beside, hv.records, hd, hv.now, hv.clear⟩
  · intro _ d hd
    exact ⟨hv.beside, hv.records, hd, hv.now, hv.clear⟩

end Leads

end Volume

end DesiredState
