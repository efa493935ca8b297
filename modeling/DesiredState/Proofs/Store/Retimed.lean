import DesiredState.Proofs.KeyMap
import DesiredState.Proofs.Parallel
import DesiredState.Proofs.Store.Frame
import DesiredState.State.Basic

/-!
# Stores that differ in a creation time

Two stores may differ in the time at which one resource was created and in nothing else: they are
one store once that time is deleted from both. Whatever reads and writes other attributes does the
same to both, and a reference that leads to the time finds a number in both.
-/

namespace DesiredState.Store

open DesiredState.Action

/-- The attributes of a resource changed; nothing if it does not exist. -/
def changed (i : Int) (f : KeyMap String → KeyMap String) (s : Store) : Store :=
  (s.changeAttributes? (.resource i) f).getD s

def assign (key : String) (v : Json) (m : KeyMap String) : KeyMap String :=
  if v.isNull then m.erase key else m.insert key v.render

variable {i : Int} {s t : Store} {key : String}

theorem Knows.isSome (h : Knows i s) : (s.resourceById? i).isSome := by
  obtain ⟨look, hlook⟩ := h
  exact hlook.isSome

theorem changed_eq (h : Knows i s) (f : KeyMap String → KeyMap String) :
    changed i f s = { s with
      deployments := s.deployments.map fun d =>
        d.changeResource i fun r => { r with attributes := f r.attributes } } := by
  rw [changed, changeAttributes?, if_pos h.isSome]
  rfl

theorem beside_changed (h : Knows i s) (f : KeyMap String → KeyMap String) :
    Beside i s (changed i f s) ∧
      (changed i f s).attributesOf (.resource i) = f (s.attributesOf (.resource i)) := by
  obtain ⟨look, m, hm, hlook⟩ := h
  obtain ⟨t, ht, hbeside, hattributes⟩ := changeAttributes?_resource ⟨m, hm, hlook⟩ f
  have hchanged : changed i f s = t := by rw [changed, ht]; rfl
  rw [hchanged, attributesOf, attributesOf, hattributes, hm]
  exact ⟨hbeside, rfl⟩

theorem Knows.changed (h : Knows i s) (f : KeyMap String → KeyMap String) :
    Knows i (changed i f s) := by
  obtain ⟨look, m, hm, hlook⟩ := h
  obtain ⟨t, ht, -, hattributes⟩ := changeAttributes?_resource ⟨m, hm, hlook⟩ f
  have hchanged : Store.changed i f s = t := by rw [Store.changed, ht]; rfl
  exact ⟨(f m).find?, f m, by rw [hchanged, hattributes, hm]; rfl, fun _ => rfl⟩

/-- Two changes in turn are one. -/
theorem changed_changed (h : Knows i s) (f g : KeyMap String → KeyMap String) :
    changed i f (changed i g s) = changed i (fun m => f (g m)) s := by
  rw [changed_eq (h.changed g), changed_eq h g, changed_eq h]
  simp only [KeyMap.map_map]
  congr 2
  funext d
  simp only [StoredDeployment.changeResource, List.map_map]
  congr 1
  refine List.map_congr_left fun r _ => ?_
  by_cases hr : r.id = i
  · simp [hr]
  · simp [hr]

theorem run_set (h : Knows i s) (key : String) (v : Json) :
    (set (.resource i) key v).run s = (.ok (), changed i (assign key v) s) := by
  unfold set assign
  split
  · rfl
  · unfold run put changed
    rw [changeAttributes?, if_pos h.isSome]
    rfl

/-- The store without the time at which a resource was created. -/
def timeless (i : Int) (s : Store) : Store :=
  ((delete (.resource i) State.creationTimeKey).run s).2

theorem timeless_eq (i : Int) (s : Store) :
    timeless i s = changed i (fun m => m.erase State.creationTimeKey) s := rfl

/-- Texts are the same or the texts of two times. -/
def Timed (text text' : Option String) : Prop :=
  text = text' ∨ ∃ n n' : Nat, n < Word.size 64 ∧ n' < Word.size 64 ∧
    text = some (Json.ofNat n).render ∧ text' = some (Json.ofNat n').render

/-- Two stores differ at most in the time at which one resource was created. -/
structure Retimed (i : Int) (s t : Store) : Prop where
  known : Knows i s
  known' : Knows i t
  same : timeless i s = timeless i t
  timed : Timed (s.textOf? (.resource i) State.creationTimeKey)
    (t.textOf? (.resource i) State.creationTimeKey)

theorem retimed_self (h : Knows i s) : Retimed i s s := ⟨h, h, rfl, Or.inl rfl⟩

theorem textOf?_timeless (h : Knows i s) {scope : Scope}
    (hne : scope = .resource i → key ≠ State.creationTimeKey) :
    (timeless i s).textOf? scope key = s.textOf? scope key := by
  obtain ⟨hbeside, hattributes⟩ := beside_changed h fun m => m.erase State.creationTimeKey
  rw [timeless_eq, textOf?, textOf?]
  by_cases hs : scope = .resource i
  · subst hs
    rw [hattributes, KeyMap.find?_erase_ne (hne rfl)]
  · rw [attributesOf, attributesOf, hbeside.others scope hs]

theorem listed_timeless (h : Knows i s) (deployment name : String) :
    ((timeless i s).resourceNamed? deployment name).map (StoredResource.record · deployment) =
      (s.resourceNamed? deployment name).map (StoredResource.record · deployment) :=
  (beside_changed h fun m => m.erase State.creationTimeKey).1.listed deployment name

namespace Retimed

theorem textOf? (h : Retimed i s t) {scope : Scope}
    (hne : scope = .resource i → key ≠ State.creationTimeKey) :
    t.textOf? scope key = s.textOf? scope key := by
  rw [← textOf?_timeless h.known hne, ← textOf?_timeless h.known' hne, h.same]

theorem listed (h : Retimed i s t) (deployment name : String) :
    (t.resourceNamed? deployment name).map (StoredResource.record · deployment) =
      (s.resourceNamed? deployment name).map (StoredResource.record · deployment) := by
  rw [← listed_timeless h.known, ← listed_timeless h.known', h.same]

/-- Changes that are one change apart from the time leave it at that. -/
theorem change (h : Retimed i s t) {f f' g : KeyMap String → KeyMap String}
    (hf : ∀ m, (f m).erase State.creationTimeKey = g (m.erase State.creationTimeKey))
    (hf' : ∀ m, (f' m).erase State.creationTimeKey = g (m.erase State.creationTimeKey))
    (htimed : ∀ m m' : KeyMap String,
      Timed (m.find? State.creationTimeKey) (m'.find? State.creationTimeKey) →
      Timed ((f m).find? State.creationTimeKey) ((f' m').find? State.creationTimeKey)) :
    Retimed i (changed i f s) (changed i f' t) where
  known := h.known.changed f
  known' := h.known'.changed f'
  same := by
    have hchange : ∀ {s f}, Knows i s →
        (∀ m, (f m).erase State.creationTimeKey = g (m.erase State.creationTimeKey)) →
        timeless i (Store.changed i f s) = Store.changed i g (timeless i s) := by
      intro s f hs hf
      rw [timeless_eq, timeless_eq, changed_changed hs, changed_changed hs]
      simp only [hf]
    rw [hchange h.known hf, hchange h.known' hf', h.same]
  timed := by
    unfold Store.textOf?
    rw [(beside_changed h.known f).2, (beside_changed h.known' f').2]
    exact htimed _ _ h.timed

end Retimed

theorem erase_erase (m : KeyMap String) (key other : String) :
    (m.erase key).erase other = (m.erase other).erase key := by
  refine KeyMap.ext fun k => ?_
  simp only [KeyMap.find?_erase]
  split <;> simp

theorem erase_assign (m : KeyMap String) (v : Json) {other : String} (h : key ≠ other) :
    (assign key v m).erase other = assign key v (m.erase other) := by
  unfold assign
  split
  · exact erase_erase m key other
  · refine KeyMap.ext fun k => ?_
    simp only [KeyMap.find?_erase, KeyMap.find?_insert]
    split
    · rename_i hk
      rw [if_neg (hk ▸ h.symm)]
    · rfl

theorem find?_assign_ne (m : KeyMap String) (v : Json) {other : String} (h : key ≠ other) :
    (assign key v m).find? other = m.find? other := by
  unfold assign
  split
  · exact KeyMap.find?_erase_ne h.symm m
  · exact KeyMap.find?_insert_ne h.symm m _

theorem get_retimed {scope : Scope} (hne : scope = .resource i → key ≠ State.creationTimeKey) :
    Parallel (Retimed i) (Retimed i) (get scope key) (get scope key) :=
  parallel_reading fun h => by rw [h.textOf? hne]

theorem set_retimed (hk : key ≠ State.creationTimeKey) (v : Json) :
    Parallel (Retimed i) (Retimed i) (set (.resource i) key v) (set (.resource i) key v) where
  outcome h := by rw [run_set h.known, run_set h.known']
  states h := by
    rw [run_set h.known, run_set h.known']
    refine h.change (fun m => erase_assign m v hk) (fun m => erase_assign m v hk)
      fun m m' hm => ?_
    rwa [find?_assign_ne m v hk, find?_assign_ne m' v hk]

theorem delete_retimed (key : String) :
    Parallel (Retimed i) (Retimed i) (delete (.resource i) key) (delete (.resource i) key) where
  outcome _ := rfl
  states h := by
    refine h.change (g := fun m => m.erase key) (fun m => erase_erase m key _)
      (fun m => erase_erase m key _) fun m m' hm => ?_
    rw [KeyMap.find?_erase, KeyMap.find?_erase]
    split
    · exact Or.inl rfl
    · exact hm

/-- Two times are recorded. -/
theorem setTime_retimed {n n' : Nat} (hn : n < Word.size 64) (hn' : n' < Word.size 64) :
    Parallel (Retimed i) (Retimed i) (set (.resource i) State.creationTimeKey (.ofNat n))
      (set (.resource i) State.creationTimeKey (.ofNat n')) where
  outcome h := by rw [run_set h.known, run_set h.known']
  states h := by
    rw [run_set h.known, run_set h.known']
    have herase : ∀ (v : Json) (m : KeyMap String),
        (assign State.creationTimeKey v m).erase State.creationTimeKey =
          m.erase State.creationTimeKey := by
      intro v m
      refine KeyMap.ext fun k => ?_
      simp only [KeyMap.find?_erase]
      split
      · rfl
      · exact find?_assign_ne m v (Ne.symm ‹_›)
    refine h.change (g := fun m => m) (herase _) (herase _) fun m m' _ => ?_
    refine Or.inr ⟨n, n', hn, hn', ?_, ?_⟩
    · exact KeyMap.find?_insert_self m _ _
    · exact KeyMap.find?_insert_self m' _ _

/-- The text of a time denotes a number. -/
theorem decodeText_time {n : Nat} (h : n < Word.size 64) :
    decodeText (Json.ofNat n).render = .ok (.ofNat n) := by
  have hwords : Json.InWords (n : Int) := by
    refine ⟨?_, by exact_mod_cast h⟩
    have : (0 : Int) < (Word.size 63 : Int) := by decide
    unfold Word.least
    omega
  exact decodeText_render (by simpa [Json.ofNat, Json.plain] using hwords) (Nat.zero_le _)

theorem run_attempt_get (scope : Scope) (key : String) (s : Store) :
    (State.attempt (get scope key)).run s =
      ((denoted (s.textOf? scope key)).mapError Failure.store, s) := by
  rw [State.attempt, run_mapError, get, run_reading]
  cases s.textOf? scope key <;> rfl

theorem run_status (r : ResourceRecord) (s : Store) :
    (State.status r).run s =
      (((denoted (s.textOf? r.scope State.statusKey)).mapError Failure.store).bind
        (State.decodeStatus r.name), s) := by
  rw [State.status, State.readStatus, run_bind, run_attempt_get]
  cases (denoted (s.textOf? r.scope State.statusKey)).mapError Failure.store <;> rfl

/-- Every attribute has the same text in both stores, or the texts of two times. -/
theorem Retimed.timedOf (h : Retimed i s t) (scope : Scope) (key : String) :
    Timed (s.textOf? scope key) (t.textOf? scope key) := by
  by_cases hkey : scope = .resource i ∧ key = State.creationTimeKey
  · rw [hkey.1, hkey.2]
    exact h.timed
  · exact Or.inl (h.textOf? fun hs hk => hkey ⟨hs, hk⟩).symm

/-- Stores with different times lead a reference to the same, or to two numbers. -/
theorem resolve_retimed (h : Retimed i s t) (deployment : String) (target : Reference) :
    ((State.resolve deployment target).run t).1 = ((State.resolve deployment target).run s).1 ∨
      ∃ n n' : Nat, ((State.resolve deployment target).run s).1 = .ok (.ready (.ofNat n)) ∧
        ((State.resolve deployment target).run t).1 = .ok (.ready (.ofNat n')) := by
  have hfind : ∀ s : Store, (State.attempt (findResource deployment target.resource)).run s =
      (.ok ((s.resourceNamed? deployment target.resource).map
        (StoredResource.record · deployment)), s) := fun _ => rfl
  unfold State.resolve
  rw [run_bind_ok (hfind t), run_bind_ok (hfind s), h.listed]
  cases (s.resourceNamed? deployment target.resource).map (StoredResource.record · deployment) with
  | none => exact Or.inl rfl
  | some r =>
    have hstatus : t.textOf? r.scope State.statusKey = s.textOf? r.scope State.statusKey :=
      h.textOf? fun _ => by decide
    simp only [run_bind, run_status, hstatus]
    cases ((denoted (s.textOf? r.scope State.statusKey)).mapError Failure.store).bind
      (State.decodeStatus r.name) with
    | error cause => exact Or.inl rfl
    | ok status =>
      by_cases hup : status = .up
      · simp only [hup, ne_eq, not_true_eq_false, if_false, run_bind, run_attempt_get]
        rcases h.timedOf r.scope target.output with hsame | ⟨n, n', hn, hn', htext, htext'⟩
        · rw [← hsame]
          left
          cases (denoted (s.textOf? r.scope target.output)).mapError Failure.store with
          | error cause => rfl
          | ok found => cases found <;> rfl
        · rw [htext, htext', denoted, denoted, decodeText_time hn, decodeText_time hn']
          exact Or.inr ⟨n, n', rfl, rfl⟩
      · simp only [hup, ne_eq, not_false_eq_true, if_true]
        exact Or.inl rfl

end DesiredState.Store
