import DesiredState.Proofs.Json.RoundTrip
import DesiredState.Proofs.Outcome
import DesiredState.State.Basic
import Mathlib.Logic.Function.Basic

/-!
# Changes to one resource leave the rest of a store alone

What is recorded of a resource is a look-up of texts. Each operation on its attributes is
described by the look-up it leaves, and by a frame: every other owner, the names and types of all
resources and the last id stay.
-/

namespace DesiredState.Store

/-- The stores differ at most in the attributes of one resource. -/
structure Beside (i : Int) (s t : Store) : Prop where
  others : ∀ scope, scope ≠ .resource i → t.attributesOf? scope = s.attributesOf? scope
  listed : ∀ deployment name,
    (t.resourceNamed? deployment name).map (StoredResource.record · deployment) =
      (s.resourceNamed? deployment name).map (StoredResource.record · deployment)
  lastId : t.lastId = s.lastId

namespace Beside

theorem refl (i : Int) (s : Store) : Beside i s s := ⟨fun _ _ => rfl, fun _ _ => rfl, rfl⟩

theorem trans {i : Int} {s t u : Store} (h : Beside i s t) (k : Beside i t u) : Beside i s u where
  others scope hs := (k.others scope hs).trans (h.others scope hs)
  listed deployment name := (k.listed deployment name).trans (h.listed deployment name)
  lastId := k.lastId.trans h.lastId

end Beside

/-- The resource exists and has exactly the texts of the look-up. -/
def Records (s : Store) (i : Int) (look : String → Option String) : Prop :=
  ∃ m, s.attributesOf? (.resource i) = some m ∧ ∀ key, m.find? key = look key

variable {s t : Store} {i : Int} {look : String → Option String}

theorem Records.textOf? (h : s.Records i look) (key : String) :
    s.textOf? (.resource i) key = look key := by
  obtain ⟨m, hm, hlook⟩ := h
  rw [Store.textOf?, attributesOf, hm]
  exact hlook key

theorem Records.isSome (h : s.Records i look) : (s.resourceById? i).isSome := by
  obtain ⟨m, hm, -⟩ := h
  rw [attributesOf?, Option.map_eq_some_iff] at hm
  obtain ⟨r, hr, -⟩ := hm
  simp [hr]

theorem Records.beside {j : Int} (h : s.Records j look) (hb : Beside i s t) (hne : j ≠ i) :
    t.Records j look := by
  obtain ⟨m, hm, hlook⟩ := h
  refine ⟨m, ?_, hlook⟩
  rw [hb.others (.resource j) (by simpa using hne), hm]

def Knows (i : Int) (s : Store) : Prop := ∃ look, s.Records i look

section changeResource

variable {f : StoredResource → StoredResource}

theorem allResources_changeResource (s : Store) (i : Int) :
    allResources { s with deployments := s.deployments.map fun d => d.changeResource i f } =
      s.allResources.map fun r => if r.id = i then f r else r := by
  simp only [allResources, KeyMap.values, KeyMap.map, List.map_map]
  rw [List.flatMap_map, List.flatMap_map, List.map_flatMap]
  rfl

theorem resourceById?_changeResource (hid : ∀ r, (f r).id = r.id) (s : Store) (i j : Int) :
    resourceById? { s with deployments := s.deployments.map fun d => d.changeResource i f } j =
      (s.resourceById? j).map fun r => if r.id = i then f r else r := by
  unfold resourceById?
  rw [allResources_changeResource, List.find?_map]
  congr 2
  funext r
  simp only [Function.comp_apply]
  split
  · rw [hid]
  · rfl

theorem resourceNamed?_changeResource (hname : ∀ r, (f r).name = r.name) (s : Store) (i : Int)
    (deployment name : String) :
    resourceNamed? { s with deployments := s.deployments.map fun d => d.changeResource i f }
      deployment name =
      (s.resourceNamed? deployment name).map fun r => if r.id = i then f r else r := by
  unfold resourceNamed? resourcesOf
  rw [KeyMap.find?_map]
  cases s.deployments.find? deployment with
  | none => rfl
  | some d =>
    simp only [Option.map_some, Option.getD_some, StoredDeployment.changeResource, List.find?_map]
    congr 2
    funext r
    simp only [Function.comp_apply]
    split
    · rw [hname]
    · rfl

end changeResource

theorem changeAttributes?_resource (h : s.Records i look) (f : KeyMap String → KeyMap String) :
    ∃ t, s.changeAttributes? (.resource i) f = some t ∧ Beside i s t ∧
      t.attributesOf? (.resource i) = (s.attributesOf? (.resource i)).map f := by
  have hid : ∀ r : StoredResource, { r with attributes := f r.attributes }.id = r.id :=
    fun _ => rfl
  have hname : ∀ r : StoredResource, { r with attributes := f r.attributes }.name = r.name :=
    fun _ => rfl
  refine ⟨_, if_pos h.isSome, ⟨?_, ?_, rfl⟩, ?_⟩
  · intro scope hs
    cases scope with
    | deployment uuid =>
      simp only [attributesOf?, KeyMap.find?_map, Option.map_map]
      rfl
    | resource j =>
      have hne : j ≠ i := fun he => hs (by rw [he])
      rw [attributesOf?, resourceById?_changeResource hid, Option.map_map,
        attributesOf?]
      cases hj : s.resourceById? j with
      | none => rfl
      | some r =>
        have hrj : r.id = j := by simpa using List.find?_some hj
        simp [hrj, hne]
  · intro deployment name
    rw [resourceNamed?_changeResource hname, Option.map_map]
    congr 1
    funext r
    simp only [Function.comp_apply, StoredResource.record]
    split <;> rfl
  · rw [attributesOf?, resourceById?_changeResource hid, Option.map_map,
      attributesOf?, Option.map_map]
    cases hi : s.resourceById? i with
    | none => rfl
    | some r =>
      have hri : r.id = i := by simpa using List.find?_some hi
      simp [hri]

/-- What is recorded of the resource becomes another look-up, and nothing else changes. -/
structure Becomes (i : Int) (s : Store) (look : String → Option String) (t : Store) : Prop where
  beside : Beside i s t
  records : t.Records i look

theorem Becomes.trans {u : Store} {look' : String → Option String} (h : Becomes i s look t)
    (k : Becomes i t look' u) : Becomes i s look' u := ⟨h.beside.trans k.beside, k.records⟩

variable {E : StoreError → Store → Prop}

theorem put_ends (h : s.Records i look) (key text : String) :
    (put (.resource i) key text).Ends s
      (fun _ t => Becomes i s (Function.update look key (some text)) t) E := by
  obtain ⟨t, ht, hb, hattributes⟩ := changeAttributes?_resource h fun m => m.insert key text
  obtain ⟨m, hm, hlook⟩ := h
  have hrun : (put (.resource i) key text).run s = (.ok (), t) := by
    unfold Action.run put
    rw [ht]
  refine Action.Ends.of_ok hrun ⟨hb, m.insert key text, ?_, fun other => ?_⟩
  · rw [hattributes, hm]
    rfl
  · rw [KeyMap.find?_insert, Function.update_apply, hlook]

theorem delete_ends (h : s.Records i look) (key : String) :
    (delete (.resource i) key).Ends s
      (fun _ t => Becomes i s (Function.update look key none) t) E := by
  obtain ⟨t, ht, hb, hattributes⟩ := changeAttributes?_resource h fun m => m.erase key
  obtain ⟨m, hm, hlook⟩ := h
  refine Action.ends_update ?_
  rw [ht]
  refine ⟨hb, m.erase key, ?_, fun other => ?_⟩
  · rw [Option.getD_some, hattributes, hm]
    rfl
  · rw [KeyMap.find?_erase, Function.update_apply, hlook]

/-- The text that is stored for a value; none for `null`. -/
def stored (v : Json) : Option String := if v.isNull then none else some v.render

theorem set_ends (h : s.Records i look) (key : String) (v : Json) :
    (set (.resource i) key v).Ends s
      (fun _ t => Becomes i s (Function.update look key (stored v)) t) E := by
  unfold set stored
  split
  · exact delete_ends h key
  · exact put_ends h key v.render

def putAll (look : String → Option String) (values : List (String × Json)) :
    String → Option String :=
  values.foldl (fun look entry => Function.update look entry.1 (stored entry.2)) look

theorem putAll_cons (look : String → Option String) (entry : String × Json)
    (values : List (String × Json)) :
    putAll look (entry :: values) =
      putAll (Function.update look entry.1 (stored entry.2)) values := rfl

theorem putAll_append (look : String → Option String) (values more : List (String × Json)) :
    putAll look (values ++ more) = putAll (putAll look values) more := List.foldl_append

theorem putAll_of_not_mem {values : List (String × Json)} {key : String}
    (h : key ∉ values.map Prod.fst) : putAll look values key = look key := by
  induction values generalizing look with
  | nil => rfl
  | cons entry values ih =>
    rw [List.map_cons, List.mem_cons, not_or] at h
    rw [putAll_cons, ih h.2, Function.update_of_ne h.1]

theorem putAll_of_mem {values : List (String × Json)} (h : (values.map Prod.fst).Nodup)
    {entry : String × Json} (hm : entry ∈ values) :
    putAll look values entry.1 = stored entry.2 := by
  induction values generalizing look with
  | nil => cases hm
  | cons first values ih =>
    obtain ⟨hnot, hrest⟩ := List.nodup_cons.mp h
    rw [putAll_cons]
    rcases List.mem_cons.mp hm with rfl | hm
    · rw [putAll_of_not_mem hnot, Function.update_self]
    · exact ih hrest hm

theorem setEach_ends (h : s.Records i look) (values : List (String × Json)) :
    (setEach (.resource i) values).Ends s (fun _ t => Becomes i s (putAll look values) t) E := by
  unfold setEach
  induction values generalizing s look with
  | nil => exact Action.ends_pure ⟨Beside.refl i s, h⟩
  | cons entry values ih =>
    refine Action.Ends.bind ((set_ends h entry.1 entry.2).imp fun _ t ht => ?_)
    exact (ih ht.records).imp fun _ u hu => ht.trans hu

def removeAll (look : String → Option String) (keys : List String) : String → Option String :=
  fun key => if key ∈ keys then none else look key

theorem removeAll_cons (look : String → Option String) (key : String) (keys : List String) :
    removeAll (Function.update look key none) keys = removeAll look (key :: keys) := by
  funext other
  by_cases ho : other = key <;> simp [removeAll, ho]

theorem removeAll_nil (look : String → Option String) : removeAll look [] = look := by
  funext key
  simp [removeAll]

theorem deleteEach_ends {ε : Type} (f : StoreError → ε) {E : ε → Store → Prop}
    (h : s.Records i look) (keys : List String) :
    (Action.forEach (fun key => (delete (.resource i) key).mapError f) keys).Ends s
      (fun _ t => Becomes i s (removeAll look keys) t) E := by
  induction keys generalizing s look with
  | nil => exact Action.ends_pure ⟨Beside.refl i s, by rwa [removeAll_nil]⟩
  | cons key keys ih =>
    refine Action.Ends.bind (Action.Ends.mapError ((delete_ends h key).imp fun _ t ht => ?_))
    exact (ih ht.records).imp fun _ u hu => ht.trans (removeAll_cons look key keys ▸ hu)

theorem decodeText_render {v : Json} (hp : v.plain = true) (hd : v.depth ≤ Json.maxDepth) :
    decodeText v.render = .ok v := by
  rw [decodeText, Json.decode_render hp hd]
  rfl

def denoted : Option String → Except StoreError (Option Json)
  | none => .ok none
  | some text => (decodeText text).map some

theorem denoted_eq_some_iff {text? : Option String} {v : Json} :
    denoted text? = .ok (some v) ↔ ∃ text, text? = some text ∧ decodeText text = .ok v := by
  cases text? with
  | none => simp [denoted]
  | some text => cases hd : decodeText text <;> simp [denoted, hd, Except.map]

theorem get_run (h : s.Records i look) (key : String) :
    (get (.resource i) key).run s = (denoted (look key), s) := by
  rw [get, Action.run_reading, h.textOf? key]
  cases look key <;> rfl

theorem getAs_reads {α : Type} {scope : Scope} {key : String}
    {expect : Json → Except Json.DecodeError α} : (getAs scope key expect).Reads := by
  refine (Action.reads_reading _).bind fun v => ?_
  cases v with
  | none => exact Action.reads_pure _
  | some v => exact Action.reads_ofExcept _

theorem getAs_none {α : Type} (h : s.Records i look) {key : String} (hk : look key = none)
    (expect : Json → Except Json.DecodeError α) :
    (getAs (.resource i) key expect).run s = (.ok none, s) := by
  rw [getAs, Action.run_bind_ok ((get_run h key).trans (by rw [hk]; rfl))]
  rfl

theorem getAs_some {α : Type} (h : s.Records i look) {key text : String} {v : Json}
    (hk : look key = some text) (hv : decodeText text = .ok v)
    {expect : Json → Except Json.DecodeError α} {x : α} (hx : expect v = .ok x) :
    (getAs (.resource i) key expect).run s = (.ok (some x), s) := by
  rw [getAs, Action.run_bind_ok ((get_run h key).trans (by rw [hk, denoted, hv]; rfl))]
  simp only [hx, Action.run_ofExcept]
  rfl

/-- All attributes are exported only if all their texts denote values, and then as these. -/
theorem exportAttributes_ends (h : s.Records i look) :
    (exportAttributes (.resource i)).Ends s
      (fun m t => t = s ∧ ∀ key, denoted (look key) = .ok (m.find? key)) (fun _ t => t = s) := by
  obtain ⟨m, hm, hlook⟩ := h
  have hm' : s.attributesOf (.resource i) = m := by rw [attributesOf, hm]; rfl
  unfold exportAttributes
  refine Action.ends_reading (fun n hn => ⟨rfl, fun key => ?_⟩) fun _ _ => rfl
  simp only [hm'] at hn
  rw [KeyMap.find?_of_mapM? hn, ← hlook key]
  cases hk : m.find? key with
  | none => rfl
  | some text =>
    obtain ⟨v, hv⟩ := KeyMap.ok_of_mapM? hn hk
    simp only [denoted, hv, Option.bind_some]
    rfl

/-- If all texts denote values, all attributes are exported. -/
theorem exportAttributes_run (h : s.Records i look)
    (hall : ∀ key, ∃ v, denoted (look key) = .ok v) :
    ∃ m, (exportAttributes (.resource i)).run s = (.ok m, s) := by
  obtain ⟨m, hm, hlook⟩ := h
  have hm' : s.attributesOf (.resource i) = m := by rw [attributesOf, hm]; rfl
  have hvalues : ∀ key text, m.find? key = some text → ∃ v, decodeText text = .ok v := by
    intro key text hk
    obtain ⟨v, hv⟩ := hall key
    rw [← hlook key, hk, denoted] at hv
    cases htext : decodeText text with
    | error e =>
      rw [htext] at hv
      cases hv
    | ok value => exact ⟨value, rfl⟩
  obtain ⟨n, hn⟩ := KeyMap.mapM?_isOk hvalues
  exact ⟨n, by rw [exportAttributes, Action.run_reading, hm', hn]⟩

end DesiredState.Store

namespace DesiredState.State

open DesiredState.Action

theorem status_reads (r : ResourceRecord) : (status r).Reads :=
  (reads_reading _).mapError.bind fun _ => reads_ofExcept _

theorem resourceId_reads (r : ResourceRecord) : (resourceId r).Reads := Store.getAs_reads.mapError

theorem snapshot_reads (r : ResourceRecord) : (snapshot r).Reads := (reads_reading _).mapError

end DesiredState.State
