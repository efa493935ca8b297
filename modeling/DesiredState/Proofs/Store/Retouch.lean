import DesiredState.Proofs.KeyMap
import DesiredState.Proofs.World
import DesiredState.State.Basic
import Mathlib.Logic.Function.Basic

/-!
# Actions that keep to one resource

An action that reads and changes the attributes of one resource alone has the same outcome and
makes the same change in all stores that differ only in the attributes of other resources. This
needs nothing of the store: ids may be given twice, and texts may denote nothing.
-/

namespace DesiredState.Store

open DesiredState.Action

/-- The attributes of every resource changed in the way of its id. -/
def retouch (edits : Int → KeyMap String → KeyMap String) (s : Store) : Store :=
  { s with deployments := s.deployments.map fun d =>
    { d with resources := d.resources.map fun r =>
      { r with attributes := edits r.id r.attributes } } }

def only (i : Int) (f : KeyMap String → KeyMap String) : Int → KeyMap String → KeyMap String :=
  Function.update (fun _ => id) i f

variable {i : Int} {s : Store} {edits : Int → KeyMap String → KeyMap String}
  {f g : KeyMap String → KeyMap String}

theorem retouch_retouch (s : Store) (edits others : Int → KeyMap String → KeyMap String) :
    (s.retouch edits).retouch others = s.retouch fun i m => others i (edits i m) := by
  simp only [retouch, KeyMap.map_map, List.map_map]
  rfl

theorem allResources_retouch (s : Store) (edits : Int → KeyMap String → KeyMap String) :
    (s.retouch edits).allResources =
      s.allResources.map fun r => { r with attributes := edits r.id r.attributes } := by
  simp only [retouch, allResources, KeyMap.values_map]
  rw [List.flatMap_map, List.map_flatMap]

theorem map_eq_self {α : Type} {f : α → α} {l : List α} : l.map f = l ↔ ∀ x ∈ l, f x = x := by
  simpa using List.map_inj_left (f := f) (g := id) (l := l)

/-- The store stays just if no attributes change. -/
theorem retouch_eq_self : s.retouch edits = s ↔
    ∀ r ∈ s.allResources, edits r.id r.attributes = r.attributes := by
  have hstore : s.retouch edits = s ↔ s.deployments.map (fun d =>
      { d with resources := d.resources.map fun r =>
        { r with attributes := edits r.id r.attributes } }) = s.deployments := by
    cases s
    simp [retouch]
  have hdeployment : ∀ d : StoredDeployment,
      { d with resources := d.resources.map fun r =>
        { r with attributes := edits r.id r.attributes } } = d ↔
        ∀ r ∈ d.resources, edits r.id r.attributes = r.attributes := by
    rintro ⟨attributes, resources⟩
    have hresource : ∀ r : StoredResource,
        { r with attributes := edits r.id r.attributes } = r ↔
          edits r.id r.attributes = r.attributes := by
      rintro ⟨⟩
      simp
    rw [StoredDeployment.mk.injEq, map_eq_self]
    simp only [true_and, hresource]
  rw [hstore, KeyMap.map_eq_self]
  simp only [hdeployment, allResources, List.mem_flatMap]
  exact ⟨fun h r ⟨d, hd, hr⟩ => h d hd r hr, fun h d hd r hr => h r ⟨d, hd, hr⟩⟩

theorem retouch_id (s : Store) : s.retouch (fun _ => id) = s :=
  retouch_eq_self.mpr fun _ _ => rfl

theorem only_id (i : Int) : only i id = fun _ => id := Function.update_eq_self i _

theorem only_of_ne {j : Int} (h : j ≠ i) : only i f j = id := Function.update_of_ne h _ _

/-- A change to one resource and changes to others commute. -/
theorem retouch_only_comm (h : edits i = id) :
    (s.retouch edits).retouch (only i f) = (s.retouch (only i f)).retouch edits := by
  rw [retouch_retouch, retouch_retouch]
  congr 1
  funext j m
  by_cases hj : j = i
  · simp [only, hj, h]
  · simp [only_of_ne hj]

theorem retouch_only_only (s : Store) (i : Int) (f g : KeyMap String → KeyMap String) :
    (s.retouch (only i f)).retouch (only i g) = s.retouch (only i fun m => g (f m)) := by
  rw [retouch_retouch]
  congr 1
  funext j m
  by_cases hj : j = i
  · simp [only, hj]
  · simp [only_of_ne hj]

theorem resourceById?_retouch (s : Store) (edits : Int → KeyMap String → KeyMap String)
    (i : Int) : (s.retouch edits).resourceById? i =
      (s.resourceById? i).map fun r => { r with attributes := edits r.id r.attributes } := by
  rw [resourceById?, allResources_retouch, List.find?_map]
  rfl

theorem changeAttributes?_eq (s : Store) (i : Int) (f : KeyMap String → KeyMap String) :
    s.changeAttributes? (.resource i) f =
      if (s.resourceById? i).isSome then some (s.retouch (only i f)) else none := by
  have hresource : ∀ r : StoredResource,
      (if r.id = i then { r with attributes := f r.attributes } else r) =
        { r with attributes := only i f r.id r.attributes } := fun r => by
    by_cases hr : r.id = i
    · simp [only, hr]
    · simp [only_of_ne hr, hr]
  simp only [changeAttributes?, StoredDeployment.changeResource, hresource]
  rfl

theorem attributesOf_retouch (h : edits i = id) :
    (s.retouch edits).attributesOf (.resource i) = s.attributesOf (.resource i) := by
  rw [attributesOf, attributesOf, attributesOf?, attributesOf?, resourceById?_retouch,
    Option.map_map]
  congr 1
  refine Option.map_congr fun r hr => ?_
  have hid : r.id = i := by simpa using List.find?_some hr
  simp [hid, h]

variable {ε δ α β : Type}

/-- The action has one outcome and makes one change to the attributes of the resource, whatever was
done to those of other resources. -/
def KeepsTo (i : Int) (a : Action Store ε α) : Prop :=
  ∀ s : Store, ∃ outcome f, ∀ edits : Int → KeyMap String → KeyMap String, edits i = id →
    a.run (s.retouch edits) = (outcome, (s.retouch edits).retouch (only i f))

/-- An action that changes nothing and sees what the resource has. -/
theorem keepsTo_of_view {a : Action Store ε α} {see : Store → Except ε α}
    (hrun : ∀ s, a.run s = (see s, s))
    (hsee : ∀ s edits, edits i = id → see (s.retouch edits) = see s) : KeepsTo i a := fun s =>
  ⟨see s, id, fun edits h => by rw [hrun, hsee s edits h, only_id, retouch_id]⟩

theorem keepsTo_pure (x : α) : KeepsTo i (pure x : Action Store ε α) :=
  keepsTo_of_view (fun _ => rfl) fun _ _ _ => rfl

theorem keepsTo_ofExcept (x : Except ε α) : KeepsTo i (ofExcept x) :=
  keepsTo_of_view (fun _ => rfl) fun _ _ _ => rfl

theorem KeepsTo.bind {a : Action Store ε α} {b : α → Action Store ε β} (h : KeepsTo i a)
    (hb : ∀ x, KeepsTo i (b x)) : KeepsTo i (a >>= b) := by
  intro s
  obtain ⟨outcome, f, hf⟩ := h s
  cases outcome with
  | error e => exact ⟨.error e, f, fun edits he => run_bind_error (hf edits he)⟩
  | ok x =>
    obtain ⟨outcome, g, hg⟩ := hb x (s.retouch (only i f))
    refine ⟨outcome, fun m => g (f m), fun edits he => ?_⟩
    rw [run_bind_ok (hf edits he), retouch_only_comm he, hg edits he, ← retouch_only_comm he,
      retouch_only_only]

theorem KeepsTo.mapError {a : Action Store ε α} (h : KeepsTo i a) (f : ε → δ) :
    KeepsTo i (a.mapError f) := by
  intro s
  obtain ⟨outcome, g, hg⟩ := h s
  exact ⟨outcome.mapError f, g, fun edits he => by rw [run_mapError, hg edits he]⟩

theorem KeepsTo.transaction {a : Action Store ε α} (h : KeepsTo i a) :
    KeepsTo i (Action.transaction a) := by
  intro s
  obtain ⟨outcome, f, hf⟩ := h s
  cases outcome with
  | ok x => exact ⟨.ok x, f, fun edits he => by rw [run_transaction, hf edits he]⟩
  | error e =>
    exact ⟨.error e, id, fun edits he => by
      rw [run_transaction, hf edits he, only_id, retouch_id]⟩

theorem keepsTo_forEach {b : β → Action Store ε Unit} {xs : List β}
    (h : ∀ x ∈ xs, KeepsTo i (b x)) : KeepsTo i (Action.forEach b xs) := by
  induction xs with
  | nil => exact keepsTo_pure ()
  | cons x xs ih =>
    exact (h x List.mem_cons_self).bind fun _ => ih fun y hy => h y (List.mem_cons_of_mem _ hy)

theorem keepsTo_get (i : Int) (key : String) : KeepsTo i (get (.resource i) key) :=
  keepsTo_of_view (fun _ => rfl) fun s edits h => by
    simp only [textOf?, attributesOf_retouch h]

theorem keepsTo_getAs (i : Int) (key : String) (expect : Json → Except Json.DecodeError α) :
    KeepsTo i (getAs (.resource i) key expect) := by
  refine (keepsTo_get i key).bind fun found => ?_
  cases found with
  | none => exact keepsTo_pure none
  | some v => exact keepsTo_ofExcept _

/-- A change to the attributes of the resource, if it exists. -/
theorem keepsTo_of_change {a : Action Store ε Unit} (missing : Except ε Unit)
    (hrun : ∀ s : Store, a.run s =
      match s.changeAttributes? (.resource i) f with
      | some t => (.ok (), t)
      | none => (missing, s)) : KeepsTo i a := by
  intro s
  cases hr : s.resourceById? i with
  | none =>
    refine ⟨missing, id, fun edits _ => ?_⟩
    rw [hrun, changeAttributes?_eq, resourceById?_retouch, hr, only_id, retouch_id]
    rfl
  | some r =>
    refine ⟨.ok (), f, fun edits _ => ?_⟩
    rw [hrun, changeAttributes?_eq, resourceById?_retouch, hr]
    rfl

theorem keepsTo_delete (i : Int) (key : String) : KeepsTo i (delete (.resource i) key) := by
  refine keepsTo_of_change (.ok ()) (f := fun m => m.erase key) fun s => ?_
  rw [delete, run_update]
  cases s.changeAttributes? (.resource i) fun m => m.erase key <;> rfl

theorem keepsTo_put (i : Int) (key text : String) : KeepsTo i (put (.resource i) key text) :=
  keepsTo_of_change (.error (.database .ownerMissing)) fun _ => rfl

theorem keepsTo_set (i : Int) (key : String) (v : Json) : KeepsTo i (set (.resource i) key v) := by
  unfold set
  split
  · exact keepsTo_delete i key
  · exact keepsTo_put i key v.render

/-- Whether the resource changes does not depend on other resources. -/
theorem retouch_only_eq_self (h : edits i = id) :
    (s.retouch edits).retouch (only i f) = s.retouch edits ↔ s.retouch (only i f) = s := by
  simp only [retouch_eq_self, allResources_retouch, List.forall_mem_map]
  refine forall₂_congr fun r _ => ?_
  by_cases hr : r.id = i
  · rw [hr, h, id]
  · simp [only_of_ne hr]

theorem hinders_congr [StoreFailure ε] {fault : DatabaseFault} {before after before' after' : Store}
    (h : after' = before' ↔ after = before) (outcome : Except ε α) :
    Obstacles.hinders fault before' after' outcome =
      Obstacles.hinders fault before after outcome := by
  cases outcome <;> simp [Obstacles.hinders, h]

/-- What is hindered in one of those stores is so in all of them. -/
theorem KeepsTo.guard [StoreFailure ε] {a : Action Store ε α} (h : KeepsTo i a) (o : Obstacles) :
    KeepsTo i (o.guard a) := by
  obtain ⟨reading, changing⟩ := o
  cases reading with
  | some fault => exact keepsTo_of_view (fun _ => rfl) fun _ _ _ => rfl
  | none =>
    cases changing with
    | none => exact h
    | some fault =>
      intro s
      obtain ⟨outcome, f, hf⟩ := h s
      have hinder : ∀ edits : Int → KeyMap String → KeyMap String, edits i = id →
          Obstacles.hinders fault (s.retouch edits) ((s.retouch edits).retouch (only i f)) outcome =
            Obstacles.hinders fault s (s.retouch (only i f)) outcome :=
        fun edits he => hinders_congr (retouch_only_eq_self he) outcome
      by_cases hh : Obstacles.hinders fault s (s.retouch (only i f)) outcome = true
      · refine ⟨.error (StoreFailure.ofStore (.database fault)), id, fun edits he => ?_⟩
        rw [Obstacles.run_guard_changing, hf edits he, if_pos ((hinder edits he).trans hh), only_id,
          retouch_id]
      · refine ⟨outcome, f, fun edits he => ?_⟩
        rw [Obstacles.run_guard_changing, hf edits he, if_neg ((hinder edits he).symm ▸ hh)]

end DesiredState.Store
