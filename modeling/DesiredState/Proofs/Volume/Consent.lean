import DesiredState.Proofs.Volume.Run
import DesiredState.Proofs.Volume.Tended

/-!
# No disruption without consent

A creating pass that may not recreate anything deletes nothing at the provider, whatever state it
starts from: the only call that deletes is behind the consent. A pass that may not restart anything
asks for no other size of an attached volume. That guard looks at the recorded attachment only, so
it needs that records and provider agree at the moment of the call.
-/

namespace DesiredState

open DesiredState.Action

namespace Cloud

variable {R : Cloud → Cloud → Prop} [IsPreorder Cloud R]

/-- What every call keeps that neither deletes a volume nor changes its size. -/
structure Routine (R : Cloud → Cloud → Prop) : Prop where
  create : ∀ region size tags, Keeps R (createVolume region size tags)
  ready : ∀ id, Keeps R (isReady id)
  describe : ∀ id, Keeps R (describe id)
  tags : ∀ id tags, Keeps R (setTags id tags)
  attach : ∀ id target, Keeps R (attach id target)

/-- Another volume in the place of an old one, or of none. -/
def inserting (c : Cloud) (id : String) (v : CloudVolume) (created : Nat) : Cloud :=
  { c with volumes := c.volumes.insert id v, created := created }

theorem withVolume_keeps (h : ∀ c id v created, R c (inserting c id v created)) {α : Type}
    (id : String) (f : CloudVolume → α × CloudVolume) : Keeps R (withVolume id f) := by
  intro c
  unfold run withVolume
  split
  · exact refl_of R c
  · exact h c id _ c.created

theorem routine_of (hcall : ∀ name, name ≠ "delete" → name ≠ "resize" → Keeps R (call name))
    (h : ∀ c id v created, R c (inserting c id v created)) : Routine R where
  create _ _ _ := (hcall "create" (by decide) (by decide)).bind fun _ c => h c _ _ _
  ready id := (hcall "describe" (by decide) (by decide)).bind fun _ => withVolume_keeps h id _
  describe _ := (hcall "describe" (by decide) (by decide)).bind fun _ => keeps_view _
  tags id _ := (hcall "tag" (by decide) (by decide)).bind fun _ => withVolume_keeps h id _
  attach id _ := (hcall "attach" (by decide) (by decide)).bind fun _ => withVolume_keeps h id _

/-- From one state of the provider to a later one no call of a kind is made. -/
def Omits (kind : String) (c d : Cloud) : Prop :=
  ∃ made, d.calls = c.calls ++ made ∧ kind ∉ made

instance (kind : String) : IsPreorder Cloud (Omits kind) where
  refl _ := ⟨[], (List.append_nil _).symm, List.not_mem_nil⟩
  trans _ _ _ hcd hde := by
    obtain ⟨made, hmade, hnot⟩ := hcd
    obtain ⟨more, hmore, hnot'⟩ := hde
    refine ⟨made ++ more, by rw [hmore, hmade, List.append_assoc], fun hm => ?_⟩
    exact (List.mem_append.mp hm).elim hnot hnot'

/-- A call is logged, whether it fails or not, and changes no volume. -/
theorem run_call (name : String) (c : Cloud) : ∃ failures,
    ((call name).run c).2 = { c with calls := c.calls ++ [name], failures := failures } := by
  unfold run call
  dsimp only
  split
  · exact ⟨_, rfl⟩
  · exact ⟨_, rfl⟩

theorem call_omits {kind name : String} (h : name ≠ kind) : Keeps (Omits kind) (call name) := by
  intro c
  obtain ⟨failures, hrun⟩ := run_call name c
  rw [hrun]
  exact ⟨[name], rfl, by simpa using h.symm⟩

/-- Nothing but a call for it asks for another size. -/
theorem routine_omits_resize : Routine (Omits "resize") :=
  routine_of (fun _ _ h => call_omits h) fun c _ _ _ => refl_of (Omits "resize") c

theorem deleteVolume_omits_resize (id : String) : Keeps (Omits "resize") (deleteVolume id) :=
  (call_omits (by decide)).bind fun _ => keeps_update fun c => refl_of (Omits "resize") c

/-- From one state of the provider to a later one nothing is deleted. -/
structure Spares (c d : Cloud) : Prop where
  calls : Omits "delete" c d
  volumes : ∀ id, (c.volume? id).isSome → (d.volume? id).isSome

instance : IsPreorder Cloud Spares where
  refl c := ⟨refl_of _ c, fun _ h => h⟩
  trans _ _ _ hcd hde :=
    ⟨trans_of (Omits "delete") hcd.calls hde.calls, fun id h => hde.volumes id (hcd.volumes id h)⟩

theorem spares_inserting (c : Cloud) (id : String) (v : CloudVolume) (created : Nat) :
    c.Spares (inserting c id v created) where
  calls := refl_of (Omits "delete") c
  volumes other h := by
    simp only [inserting, volume?, KeyMap.find?_insert] at h ⊢
    split
    · rfl
    · exact h

theorem call_spares {name : String} (h : name ≠ "delete") : Keeps Spares (call name) := by
  intro c
  refine ⟨call_omits h c, fun id hlive => ?_⟩
  obtain ⟨failures, hrun⟩ := run_call name c
  rw [hrun]
  exact hlive

theorem routine_spares : Routine Spares := routine_of (fun _ h _ => call_spares h) spares_inserting

theorem resize_spares (id : String) (size : Int) : Keeps Spares (resize id size) :=
  (call_spares (by decide)).bind fun _ => withVolume_keeps spares_inserting id _

/-- Whether the provider has a volume attached to something. -/
def attached (c : Cloud) (id : String) : Bool := ((c.volume? id).bind CloudVolume.attachedTo).isSome

/-- A provider that does something else when it is asked to resize an attached volume. -/
def resizeDetached (instead : String → Int → Call Unit) (id : String) (size : Int) : Call Unit :=
  fun c => if c.attached id then instead id size c else resize id size c

end Cloud

namespace Volume

open DesiredState.World

variable {r : ResourceRecord} {d : Definition} {consent : Consent} {options : PassOptions}

/-- What routine calls keep is kept by the work on any volume, whatever ids are recorded. -/
theorem tended_of_routine {R : Cloud → Cloud → Prop} [IsPreorder Cloud R] (h : Cloud.Routine R)
    (r : ResourceRecord) : Tended r (fun _ => True) (Remotely R) where
  edit _ := onStore_keeps _
  name hnone hsome := (onStore_keeps _).bind fun found => by
    cases found with
    | none => exact hnone
    | some id => exact hsome id trivial
  create _ _ _ hf := (remotely_keeps (onRemote_keeps (h.create _ _ _)) _).bind fun id =>
    (keeps_view _).bind fun _ => (onStore_keeps _).bind fun _ => hf id trivial
  ready id _ := onRemote_keeps (h.ready id)
  describe id _ := onRemote_keeps (h.describe id)
  tags id tags _ := onRemote_keeps (h.tags id tags)
  attach id target _ := onRemote_keeps (h.attach id target)

/-- A creating pass that may not recreate deletes nothing, wherever it starts. -/
theorem create_keeps_spares (h : options.consent.allowRecreate = false) :
    Keeps (Remotely Cloud.Spares) ((resource r).create d options) := by
  rw [← resourceBy_resize]
  exact resourceBy_keeps (tended_of_routine Cloud.routine_spares r) (by simp [h])
    fun id size _ => onRemote_keeps (Cloud.resize_spares id size)

/-- A creating pass asks for other sizes in no other way. -/
theorem resourceBy_omits_resize {call : String → Int → Cloud.Call Unit}
    (hcall : ∀ id size, Keeps (Cloud.Omits "resize") (call id size)) :
    Keeps (Remotely (Cloud.Omits "resize")) ((resourceBy call r).create d options) :=
  resourceBy_keeps (tended_of_routine Cloud.routine_omits_resize r)
    (fun _ id _ => onRemote_keeps (Cloud.deleteVolume_omits_resize id))
    fun id size _ => onRemote_keeps (hcall id size)

/-- From a site one task runs like another one. -/
def SameAt {α : Type} (r : ResourceRecord) (w₀ : World Cloud) (p : Site) (a b : Task Cloud α) :
    Prop := ∀ w, Shows r w₀ p w → b.run w = a.run w

section SameAt

variable {α β : Type} {w₀ : World Cloud} {p : Site}

theorem sameAt_refl (a : Task Cloud α) : SameAt r w₀ p a a := fun _ _ => rfl

/-- What goes on may rely on where the task that comes first leads. -/
theorem sameAt_bind {a : Task Cloud α} {f g : α → Task Cloud β} {E : Site → Prop}
    (h : Leads r w₀ a p (fun x q => SameAt r w₀ q (f x) (g x)) E) :
    SameAt r w₀ p (a >>= f) (a >>= g) := by
  intro w hw
  refine (h w hw).elim (fun x t hr ht => ?_) fun e t hr _ => ?_
  · obtain ⟨q, hq, hsame⟩ := ht
    rw [run_bind_ok hr, run_bind_ok hr]
    exact hsame t hq
  · rw [run_bind_error hr, run_bind_error hr]

theorem sameAt_bind_left {a b : Task Cloud α} (h : SameAt r w₀ p a b) (f : α → Task Cloud β) :
    SameAt r w₀ p (a >>= f) (b >>= f) := by
  intro w hw
  rw [run_bind, run_bind, h w hw]

/-- Calls that do the same as long as the provider shows the site are tried again alike. -/
theorem sameAt_remotely {label : String} {call other : Cloud.Call α} {Q : α → Cloud → Prop}
    (hsame : ∀ c, Provides c p → other.run c = call.run c)
    (hcall : ∀ c, Provides c p → call.Ends c Q fun _ d => Provides d p) :
    SameAt r w₀ p (remotely label call) (remotely label other) := by
  intro w hw
  refine World.retrying_same (I := Shows r w₀ p) (Q := fun _ _ => True)
    (fun entry _ h => h.record entry) (fun v hv => ?_) (fun v hv => ?_) hw
  · have hrun := hsame _ hv.provides
    unfold run at hrun ⊢
    unfold World.onRemote zoom
    rw [hrun]
  · exact World.onRemote_ends ((hcall _ hv.provides).mono (fun _ _ _ => trivial)
      fun _ d hd => ⟨hv.beside, hv.records, hd, hv.now, hv.clear⟩)

/-- What is recorded as detached is detached at the provider. -/
theorem attached_eq_false {placement : Placement} {c : Cloud} (h : p.Agrees) (hc : Provides c p)
    (hpl : p.entry.placement = some placement) (hnone : placement.attachedTo = none) :
    c.attached placement.id = false := by
  unfold Cloud.attached
  cases hv : c.volume? placement.id with
  | none => rfl
  | some v =>
    obtain ⟨-, hattached, -⟩ := h placement v.live hpl (hc.volume hv)
    have hlive : v.attachedTo = none := hattached.trans hnone
    rw [Option.bind_some, hlive]
    rfl

/-- Without consent only volumes that are detached at the provider are asked to change. -/
theorem resize_sameAt (h : consent.allowReboot = false) (hp : p.Agrees)
    (instead : String → Int → Cloud.Call Unit) :
    SameAt r w₀ p (resize r d consent) (resizeBy (Cloud.resizeDetached instead) r d consent) := by
  unfold resize resizeBy
  refine sameAt_bind (requireId_leads (E := fun _ => True) (fun placement hpl => ?_) trivial)
  cases definedSize? d with
  | none => exact sameAt_refl _
  | some size =>
    refine sameAt_bind (E := fun _ => True) (leads_inStore (fun s hs => getAs_size hs) ?_)
    split
    · exact sameAt_refl _
    split
    · exact sameAt_refl _
    refine sameAt_bind (E := fun _ => True) (leads_inStore (fun s hs => get_attachedTo hs) ?_)
    split
    · exact sameAt_refl _
    · rename_i hconsent
      refine sameAt_bind_left (sameAt_remotely (fun c hc => ?_) fun c hc =>
        hc.resize placement.id size) _
      have hdetached : c.attached placement.id = false := by
        refine attached_eq_false hp hc hpl ?_
        rw [hpl, Option.bind_some, Option.isSome_map, h] at hconsent
        simpa using hconsent
      unfold run Cloud.resizeDetached
      rw [hdetached]
      rfl

end SameAt

section Sound

variable {w₀ : World Cloud} {intact : Prop} {others : String → Prop}
  {background : String → Option Live}

/-- The world shows a sound site of the volume. -/
def ShowsSound (r : ResourceRecord) (w₀ : World Cloud) (intact : Prop) (others : String → Prop)
    (background : String → Option Live) (w : World Cloud) : Prop :=
  ∃ p, Shows r w₀ p w ∧ Sound intact others background p

theorem alike_of_leads {α : Type} {a : Task Cloud α}
    (h : ∀ p, Sound intact others background p → Leads r w₀ a p
      (fun _ q => Sound intact others background q) (Sound intact others background)) :
    Alike (ShowsSound r w₀ intact others background) a a :=
  alike_of_ends fun w hw => by
    obtain ⟨p, hp, hsound⟩ := hw
    exact h p hsound w hp

theorem resource_driven : (resource r).Driven (ShowsSound r w₀ intact others background) where
  record entry w hw := by
    obtain ⟨p, hp, hsound⟩ := hw
    exact ⟨p, hp.record entry, hsound⟩
  status status := alike_of_leads fun p hp => setStatus_leads (hp.withStatus status)

/-- On sound sites every handler works alike, whatever a resize of an attached volume does. -/
theorem operation_alike (h : consent.allowReboot = false)
    (instead : String → Int → Cloud.Call Unit) {handler : Handler (Handling Cloud)}
    (hm : handler ∈ (registry r).handlers) :
    Alike (ShowsSound r w₀ intact others background) (handler.operation d consent)
      ((handler.replace "resize" (resizeBy (Cloud.resizeDetached instead) r)).operation d
        consent) := by
  have hkeeps : Alike (ShowsSound r w₀ intact others background) (handler.operation d consent)
      (handler.operation d consent) :=
    alike_of_leads fun p hp => (operation_leads hm).mono (fun _ _ hq => hp.handled hq)
      fun _ hq => hp.stopped hq
  simp only [registry, List.mem_cons, List.not_mem_nil, or_false] at hm
  rcases hm with rfl | rfl | rfl | rfl
  · exact hkeeps
  · refine ⟨fun w hw => ?_, hkeeps.keeps⟩
    obtain ⟨p, hp, hsound⟩ := hw
    exact resize_sameAt h hsound.agrees instead w hp
  · exact hkeeps
  · exact hkeeps

theorem create_alike (h : options.consent.allowReboot = false)
    (instead : String → Int → Cloud.Call Unit) :
    Alike (ShowsSound r w₀ intact others background) ((resource r).create d options)
      ((resourceBy (Cloud.resizeDetached instead) r).create d options) :=
  resource_driven.create (alike_of_leads fun _ hp => check_sound hp)
    fun _ hm => operation_alike h instead hm

end Sound

/-- After any run, what a creating pass of a declared volume may not do it does not do. Without
leave to recreate, no call of it deletes and every live volume stays alive. Without leave to
restart, it would go just the same if the provider did anything else when it is asked to resize an
attached volume: it never asks for that. And it asks for other sizes nowhere else: with another call
in the place of that one, no call of it resizes. -/
theorem create_spares (deployment : String) (settlePolls : Nat) (services : Services)
    (now : UInt64) (events : List Event) (r : ResourceRecord) (d : Definition)
    (options : PassOptions)
    (hr : Declared deployment
      (after deployment events (fixture deployment settlePolls services now)) r) :
    let w := after deployment events (fixture deployment settlePolls services now)
    let t := (((resource r).create d options).run w).2
    (options.consent.allowRecreate = false →
      w.remote.Omits "delete" t.remote ∧
        ∀ id, (w.remote.volume? id).isSome → (t.remote.volume? id).isSome) ∧
    (options.consent.allowReboot = false → ∀ instead : String → Int → Cloud.Call Unit,
      ((resourceBy (Cloud.resizeDetached instead) r).create d options).run w =
        ((resource r).create d options).run w) ∧
    ∀ call : String → Int → Cloud.Call Unit,
      (∀ id size, Keeps (Cloud.Omits "resize") (call id size)) →
        w.remote.Omits "resize" (((resourceBy call r).create d options).run w).2.remote := by
  intro w t
  refine ⟨fun h => ?_, fun h instead => ?_, fun call hcall => resourceBy_omits_resize hcall w⟩
  · have hspares : w.remote.Spares t.remote := create_keeps_spares h w
    exact ⟨hspares.calls, hspares.volumes⟩
  · obtain ⟨ledger, hmirrored⟩ :=
      mirrored_after (mirrored_fixture deployment settlePolls services now) deployment events
    obtain ⟨e, he⟩ := hmirrored.entry_of_declared hr
    exact (create_alike h instead).same w ⟨_, hmirrored.shows he, hmirrored.sound he⟩

/-- The first volume is to be attached and to grow. -/
def grownFirst : Definition :=
  (attachedIn "us-east-1").withSetting "size" (.value (.ofInt 16))

/-- Growing an attached volume without leave: the volume is attached, and it is not asked for. -/
theorem create_spares_growing :
    Declared "dep" attachedWorld firstVolume ∧ attachedWorld.remote.attached "vol-1" = true ∧
    (∀ id, (attachedWorld.remote.volume? id).isSome →
      ((((resource firstVolume).create grownFirst {}).run attachedWorld).2.remote.volume?
        id).isSome) ∧
    ∀ instead : String → Int → Cloud.Call Unit,
      ((resourceBy (Cloud.resizeDetached instead) firstVolume).create grownFirst {}).run
          attachedWorld =
        ((resource firstVolume).create grownFirst {}).run attachedWorld := by
  have hr : Declared "dep" attachedWorld firstVolume := by decide +kernel
  have hattached : attachedWorld.remote.attached "vol-1" = true := by decide +kernel
  unfold attachedWorld at hr hattached ⊢
  have h := create_spares "dep" 0 {} 0 [.pass "data" (.create (attachedIn "us-east-1") {})]
    firstVolume grownFirst {} hr
  exact ⟨hr, hattached, (h.1 rfl).2, h.2.1 rfl⟩

/-- With leave the volume is asked for, so that a provider that does nothing then is told apart. -/
example :
    ((((resource firstVolume).create grownFirst { consent := { allowReboot := true } }).run
      attachedWorld).2.remote.count "resize") = 1 ∧
    ((((resourceBy (Cloud.resizeDetached fun _ _ => pure ()) firstVolume).create grownFirst
      { consent := { allowReboot := true } }).run attachedWorld).2.remote.count "resize") = 0 := by
  decide +kernel

end Volume

end DesiredState
