import DesiredState.Proofs.Store.Refinement
import DesiredState.Proofs.Store.Rows

/-!
# Handles that outlive their resource

A handle on a resource is its id. Once the resource is gone, the id is never given to another one,
so nothing is ever read, written or removed through the handle again: reading finds nothing,
removing does nothing, and storing fails.
-/

namespace DesiredState.Store

open DesiredState.Action Relation

variable {P : String → Prop} {s t : Store} {i : Int}

/-- An id was given and is given no more. -/
structure Gone (i : Int) (s : Store) : Prop where
  given : i ≤ s.lastId
  absent : ∀ deployment, i ∉ s.idsOf deployment

theorem Step.lastId_le (h : Step P s t) : s.lastId ≤ t.lastId := by
  rcases h.idsOf with ⟨hlast, -⟩ | ⟨_, hlast, -⟩ <;> omega

theorem Reaches.lastId_le (h : Reaches P s t) : s.lastId ≤ t.lastId := by
  induction h with
  | refl => exact Int.le_refl _
  | tail _ hstep ih => exact Int.le_trans ih hstep.lastId_le

/-- No step gives an id a second time: the next one is above all that were given. -/
theorem Step.gone (h : Step P s t) (hs : Gone i s) : Gone i t := by
  refine ⟨Int.le_trans hs.given h.lastId_le, fun deployment hi => ?_⟩
  rcases h.idsOf with ⟨-, hsub⟩ | ⟨home, -, hids⟩
  · exact hs.absent deployment ((hsub deployment).subset hi)
  rw [hids, Function.update_apply] at hi
  split at hi
  · rcases List.mem_append.mp hi with hi | hi
    · exact hs.absent home hi
    · have hlast := hs.given
      have hnew := List.mem_singleton.mp hi
      omega
  · exact hs.absent deployment hi

theorem Reaches.gone (h : Reaches P s t) (hs : Gone i s) : Gone i t := by
  induction h with
  | refl => exact hs
  | tail _ hstep ih => exact hstep.gone ih

theorem Gone.not_mem_rows (h : Gone i s) : i ∉ s.resourceRows.map ResourceRecord.id := by
  intro hi
  obtain ⟨deployment, hi⟩ := mem_ids_iff.mp hi
  exact h.absent deployment hi

theorem Gone.attributesOf?_eq_none (h : Gone i s) : s.attributesOf? (.resource i) = none :=
  Option.map_eq_none_iff.mpr (resourceById?_eq_none h.absent)

variable {ε : Type} [StoreFailure ε]

theorem declareResource_row (s : Store) (deployment name resourceType : String) :
    (declareResource deployment name resourceType).Ends s (fun r t => r ∈ t.resourceRows)
      fun _ _ => True := by
  refine (declareResource_ends s deployment name resourceType).mono ?_ fun _ _ _ => trivial
  rintro r t (⟨rfl, -, found, hfound, rfl⟩ | ⟨-, d, -, rfl, rfl⟩)
  · exact mem_resourceRows_iff.mpr ⟨found, List.mem_of_find?_eq_some hfound, rfl⟩
  · refine mem_resourceRows_iff.mpr ⟨⟨s.lastId + 1, name, resourceType, .empty⟩, ?_, rfl⟩
    rw [addResource, resourcesOf_insert, if_pos rfl]
    exact List.mem_append_right _ List.mem_cons_self

/-- All records in the answer are rows of the store. -/
def Listed (answer : Answer) (t : Store) : Prop := ∀ r ∈ answer.records, r ∈ t.resourceRows

theorem told_listed {α : Type} {answer : α → Answer} {a : Action Store StoreError α}
    (h : a.Ends s (fun x t => Listed (answer x) t) fun _ _ => True) :
    (Call.told answer a : Action Store (List Reply × ε) Answer).Ends s Listed fun _ _ => True :=
  Ends.bind (h.mapError.imp fun _ _ => ends_pure)

theorem told_listed_nil {α : Type} {answer : α → Answer} (a : Action Store StoreError α)
    (h : ∀ x, (answer x).records = []) :
    (Call.told answer a : Action Store (List Reply × ε) Answer).Ends s Listed fun _ _ => True := by
  refine told_listed ⟨fun _ r hr => ?_, fun _ => trivial⟩
  rw [h] at hr
  cases hr

/-- Every record that a call answers with is that of a resource which then exists. -/
theorem Call.listed (call : Call ε) (s : Store) :
    call.perform.Ends s Listed fun _ _ => True := by
  cases call with
  | declareResource deployment name resourceType =>
    refine told_listed ((declareResource_row s deployment name resourceType).imp ?_)
    intro r t hr row hrow
    obtain rfl := List.mem_singleton.mp hrow
    exact hr
  | resources deployment =>
    refine told_listed (ends_view fun row hrow => ?_)
    obtain ⟨r, hr, rfl⟩ := List.mem_map.mp hrow
    exact mem_resourceRows_iff.mpr ⟨r, hr, rfl⟩
  | findResource deployment name =>
    refine told_listed (ends_view fun row hrow => ?_)
    obtain ⟨r, hr, rfl⟩ := Option.map_eq_some_iff.mp (Option.mem_toList.mp hrow)
    exact mem_resourceRows_iff.mpr ⟨r, List.mem_of_find?_eq_some hr, rfl⟩
  | createDeployment uuid => exact told_listed_nil _ fun _ => rfl
  | purgeDeployment uuid => exact told_listed_nil _ fun _ => rfl
  | deployments => exact told_listed_nil _ fun _ => rfl
  | findDeployment key => exact told_listed_nil _ fun _ => rfl
  | renameResource deployment source target => exact told_listed_nil _ fun _ => rfl
  | purgeResource id => exact told_listed_nil _ fun _ => rfl
  | exportDeployment uuid => exact told_listed_nil _ fun _ => rfl
  | importDeployments snapshots => exact told_listed_nil _ fun _ => rfl
  | attributes operation =>
    refine Ends.bind ⟨fun _ => ends_pure fun _ hr => ?_, fun _ => trivial⟩
    cases hr
  | session steps refusal =>
    refine Ends.mono (Ends.transaction (E := fun _ _ => True) (Ends.bind
      ⟨fun _ => ?_, fun _ => trivial⟩)) (fun _ _ h => h) fun _ _ _ => trivial
    cases refusal with
    | none =>
      refine ends_pure fun _ hr => ?_
      cases hr
    | some e => exact ends_fail trivial

/-- The records that are answered in a run are those of resources that existed at some point. -/
theorem listed_of_mem_callAll {calls : List (Call ε)} {answer : Answer}
    (h : .ok answer ∈ (callAll calls s).1) :
    ∃ first rest, calls = first ++ rest ∧ Listed answer (callAll first s).2 := by
  obtain ⟨before, call, after, rfl, hrun⟩ := mem_callAll h
  refine ⟨before ++ [call], after, by simp, ?_⟩
  rw [callAll_append_state]
  exact (call.listed _).ok (Prod.ext hrun rfl)

/-- For want of an owner an action fails if it would store something; nothing changes. -/
def Ownerless {α : Type} (s : Store) (stores : Bool) (x : α) (a : Action Store StoreError α) :
    Prop := a.run s = (if stores then .error (.database .ownerMissing) else .ok x, s)

theorem Ownerless.bind {α β : Type} {p q : Bool} {x : α} {y : β} {a : Action Store StoreError α}
    {f : α → Action Store StoreError β} (h : Ownerless s p x a) (hf : Ownerless s q y (f x)) :
    Ownerless s (p || q) y (a >>= f) := by
  unfold Ownerless at *
  cases p with
  | true => exact run_bind_error h
  | false => exact (run_bind_ok h).trans hf

theorem Ownerless.transaction {α : Type} {p : Bool} {x : α} {a : Action Store StoreError α}
    (h : Ownerless s p x a) : Ownerless s p x (Action.transaction a) := by
  unfold Ownerless at *
  rw [run_transaction, h]
  cases p <;> rfl

section Ownerless

variable {scope : Scope} (h : s.attributesOf? scope = none)

include h

theorem ownerless_put (key text : String) : Ownerless s true () (put scope key text) := by
  unfold Ownerless run put
  rw [changeAttributes?_none h]
  rfl

theorem ownerless_delete (key : String) : Ownerless s false () (delete scope key) := by
  rw [Ownerless, delete, run_update, changeAttributes?_none h]
  rfl

theorem ownerless_clear : Ownerless s false () (clear scope) := by
  rw [Ownerless, clear, run_update, changeAttributes?_none h]
  rfl

theorem ownerless_set (key : String) (v : Json) :
    Ownerless s (¬ v.isNull) () (set scope key v) := by
  unfold set
  cases v.isNull with
  | true => exact ownerless_delete h key
  | false => exact ownerless_put h key v.render

theorem ownerless_setEach (values : List (String × Json)) :
    Ownerless s ((values.map Prod.snd).any fun v => ¬ v.isNull) () (setEach scope values) := by
  induction values with
  | nil => rfl
  | cons entry rest ih => exact (ownerless_set h entry.1 entry.2).bind ih

theorem ownerless_replaceAttributes (values : KeyMap Json) :
    Ownerless s (values.values.any fun v => ¬ v.isNull) () (replaceAttributes scope values) :=
  (ownerless_clear h).bind (ownerless_setEach h values.entries)

theorem ownerless_get (key : String) : Ownerless s false none (get scope key) := by
  rw [Ownerless, get, run_reading, textOf?, attributesOf, h]
  rfl

theorem ownerless_exportAttributes : Ownerless s false .empty (exportAttributes scope) := by
  rw [Ownerless, exportAttributes, run_reading, attributesOf, h]
  rfl

theorem ownerless_keys : Ownerless s false [] (keys scope) := by
  rw [Ownerless, keys, run_view, attributesOf, h]
  rfl

/-- Without an owner a request that stores fails, and any other is answered as by an empty map. -/
theorem ownerless_alone (request : Request) :
    Ownerless s request.stores (request.answer .empty) (request.alone scope) := by
  have hdone : Ownerless s false Reply.done (pure .done) := rfl
  have halso : request.stores = (request.stores || false) := (Bool.or_false _).symm
  cases request with
  | get key => exact (ownerless_get h key).bind rfl
  | getOr key default =>
    have hdefault : Ownerless s false default (pure default) := rfl
    have hget : Ownerless s false default (getOr scope key default) :=
      (ownerless_get h key).bind hdefault
    exact hget.bind rfl
  | keys => exact (ownerless_keys h).bind rfl
  | exportAll => exact (ownerless_exportAttributes h).bind rfl
  | set key v => exact (ownerless_set h key v).bind hdone
  | setMany values => exact halso ▸ (ownerless_setEach h values).transaction.bind hdone
  | delete key => exact (ownerless_delete h key).bind hdone
  | clear => exact (ownerless_clear h).bind hdone
  | importAll values =>
    exact halso ▸ (ownerless_replaceAttributes h values).transaction.bind hdone

theorem ownerless_within (request : Request) :
    Ownerless s request.stores (request.answer .empty) (request.within scope) := by
  have hdone : Ownerless s false Reply.done (pure .done) := rfl
  have halso : request.stores = (request.stores || false) := (Bool.or_false _).symm
  cases request with
  | setMany values => exact halso ▸ (ownerless_setEach h values).bind hdone
  | importAll values => exact halso ▸ (ownerless_replaceAttributes h values).bind hdone
  | get => exact ownerless_alone h _
  | getOr => exact ownerless_alone h _
  | keys => exact ownerless_alone h _
  | exportAll => exact ownerless_alone h _
  | set => exact ownerless_alone h _
  | delete => exact ownerless_alone h _
  | clear => exact ownerless_alone h _

end Ownerless

/-- Whether an operation would store something for an owner. -/
def Operation.StoresAt (scope : Scope) : Operation ε → Prop
  | .alone other request => other = scope ∧ request.stores = true
  | .transaction steps _ => ∃ step ∈ steps, step.1 = scope ∧ step.2.stores = true

def Request.refused (request : Request) : Except StoreError Reply :=
  if request.stores then .error (.database .ownerMissing) else .ok (request.answer .empty)

theorem Gone.within (h : Gone i s) (request : Request) :
    (request.within (.resource i)).run s = (request.refused, s) :=
  ownerless_within h.attributesOf?_eq_none request

/-- Whatever is written, an id that is gone stays gone. -/
theorem Gone.after (h : Gone i s) (scope : Scope) (request : Request) :
    Gone i ((request.within scope).run s).2 :=
  (within_keeps (P := fun _ => True) scope (fun _ _ _ => trivial) s).reaches.gone h

/-- Requests in turn do not get past one that would store something without an owner. -/
theorem askEach_stale {steps : List (Scope × Request)} (h : Gone i s)
    (hstores : ∃ step ∈ steps, step.1 = .resource i ∧ step.2.stores = true) :
    (askEach steps : Action Store (List Reply × ε) (List Reply)).Ends s (fun _ _ => False)
      fun _ _ => True := by
  induction steps generalizing s with
  | nil =>
    obtain ⟨_, hmem, -⟩ := hstores
    cases hmem
  | cons step rest ih =>
    obtain ⟨other, request⟩ := step
    rcases hstores with ⟨found, hmem, hscope, hfound⟩
    rcases List.mem_cons.mp hmem with rfl | hmem
    · obtain rfl : other = .resource i := hscope
      have hrun := h.within request
      rw [Request.refused, if_pos hfound] at hrun
      exact Ends.bind (Ends.mapError (Ends.of_error hrun trivial))
    · refine Ends.bind (Ends.mapError ⟨fun {reply t} hrun => ?_, fun _ => trivial⟩)
      have ht := h.after other request
      rw [hrun] at ht
      have hrest := ih ht ⟨found, hmem, hscope, hfound⟩
      exact Ends.bind (Ends.mapError (hrest.mono (fun _ _ hnot => hnot.elim) fun _ _ _ => trivial))

theorem run_tryEach_cons {δ : Type} {scope : Scope} {request : Request}
    {rest : List (Scope × Request)} {outcomes : List (Except StoreError Reply)}
    (h : (tryEach rest : Action Store δ _).run ((request.within scope).run s).2 =
      (.ok outcomes, t)) :
    (tryEach ((scope, request) :: rest) : Action Store δ _).run s =
      (.ok (((request.within scope).run s).1 :: outcomes), t) :=
  (run_bind_ok rfl).trans (run_bind_ok h)

/-- In a session a stale handle is refused each time, and nothing comes of it. -/
theorem tryEach_stale (δ : Type) (steps : List (Scope × Request)) (h : Gone i s) :
    ∃ outcomes others t, (tryEach steps : Action Store δ _).run s = (.ok outcomes, t) ∧
      List.Forall₂ (fun step outcome => step.1 = .resource i → outcome = step.2.refused)
        steps outcomes ∧
      (tryEach (steps.filter fun step => step.1 ≠ .resource i) : Action Store δ _).run s =
        (.ok others, t) := by
  induction steps generalizing s with
  | nil => exact ⟨[], [], s, rfl, .nil, rfl⟩
  | cons step rest ih =>
    obtain ⟨other, request⟩ := step
    obtain ⟨outcomes, others, t, hrun, hrefused, hwithout⟩ := ih (h.after other request)
    have hall := run_tryEach_cons hrun
    by_cases hother : other = .resource i
    · subst hother
      have hwithin := h.within request
      rw [hwithin] at hall hwithout
      refine ⟨_, others, t, hall, .cons (fun _ => rfl) hrefused, ?_⟩
      rw [List.filter_cons_of_neg (by simp)]
      exact hwithout
    · refine ⟨_, ((request.within other).run s).1 :: others, t, hall,
        .cons (fun he => absurd he hother) hrefused, ?_⟩
      rw [List.filter_cons_of_pos (by simpa using hother)]
      exact run_tryEach_cons hwithout

/-- A handle on nothing. -/
structure Stale (ε : Type) [StoreFailure ε] (scope : Scope) (s : Store) : Prop where
  reads : ∀ key, (get scope key).run s = (.ok none, s)
  readsAs : ∀ {α : Type} key (expect : Json → Except Json.DecodeError α),
    (getAs scope key expect).run s = (.ok none, s)
  exports : (exportAttributes scope).run s = (.ok .empty, s)
  /-- A request that stores fails, any other is answered as by an empty map, and nothing changes. -/
  requests : ∀ request : Request, (request.alone scope).run s = (request.refused, s)
  /-- An operation that would store something fails as a whole. -/
  operations : ∀ operation : Operation ε, operation.StoresAt scope →
    ∃ failure, operation.perform.run s = (.error failure, s)
  /-- In a session the requests fare as alone, and the others as without them. -/
  sessions : ∀ {δ : Type} steps, ∃ outcomes others t,
    (tryEach steps : Action Store δ _).run s = (.ok outcomes, t) ∧
    List.Forall₂ (fun step outcome => step.1 = scope → outcome = step.2.refused) steps outcomes ∧
    (tryEach (steps.filter fun step => step.1 ≠ scope) : Action Store δ _).run s = (.ok others, t)

theorem Gone.stale (h : Gone i s) : Stale ε (.resource i) s where
  reads := ownerless_get h.attributesOf?_eq_none
  readsAs {α} key expect := run_bind_ok (ownerless_get h.attributesOf?_eq_none key)
  exports := ownerless_exportAttributes h.attributesOf?_eq_none
  requests := ownerless_alone h.attributesOf?_eq_none
  operations operation hstores := by
    cases operation with
    | alone other request =>
      obtain ⟨rfl, hrequest⟩ := hstores
      have hrun := ownerless_alone h.attributesOf?_eq_none request
      rw [Ownerless, if_pos hrequest] at hrun
      exact ⟨_, run_bind_error (by rw [run_mapError, hrun]; rfl)⟩
    | transaction steps refusal =>
      have hsteps := askEach_stale (ε := ε) h hstores
      rcases hrun : (askEach steps : Action Store (List Reply × ε) _).run s with ⟨e | replies, t⟩
      · refine ⟨e, ?_⟩
        rw [Operation.perform, run_transaction, run_bind_error hrun]
      · exact (hsteps.ok hrun).elim
  sessions {δ} steps := tryEach_stale δ steps h

/-- Any calls are steps, if it does not matter what they write. -/
theorem callAll_reaches_any (calls : List (Call ε)) (s : Store) :
    Reaches (fun _ => True) s (callAll calls s).2 :=
  callAll_reaches (fun _ _ _ _ _ => trivial) s

/-- Once the resource of a record that was ever answered is gone, whichever calls follow, whether
they fail or not: no resource and no answer has its id again, and its handle stays stale. -/
theorem callAll_stale {before meanwhile : List (Call ε)} {answer : Answer} {r : ResourceRecord}
    (hanswer : .ok answer ∈ (callAll before .empty).1) (hr : r ∈ answer.records)
    (hgone : r.id ∉
      (callAll (before ++ meanwhile) .empty).2.resourceRows.map ResourceRecord.id)
    (later : List (Call ε)) :
    let s := (callAll (before ++ meanwhile) .empty).2
    let t := (callAll later s).2
    (∀ row ∈ t.resourceRows, row.id ≠ r.id) ∧
      (∀ outcome, .ok outcome ∈ (callAll later s).1 → ∀ row ∈ outcome.records, row.id ≠ r.id) ∧
      Stale ε r.scope t := by
  intro s t
  have hs : Gone r.id s := by
    refine ⟨?_, fun deployment hi => hgone (mem_ids_iff.mpr ⟨deployment, hi⟩)⟩
    -- the id was given when the record was answered, and ids given are never taken back
    obtain ⟨first, rest, rfl, hlisted⟩ := listed_of_mem_callAll hanswer
    have hcoherent := (callAll_reaches_any first .empty).coherent (coherent_of_empty rfl)
    obtain ⟨deployment, hi⟩ := mem_ids_iff.mp (List.mem_map_of_mem (hlisted r hr))
    have hsame : s = (callAll (rest ++ meanwhile) (callAll first .empty).2).2 := by
      rw [← callAll_append_state, ← List.append_assoc]
    rw [hsame]
    exact Int.le_trans (hcoherent.bounded hi) (callAll_reaches_any _ _).lastId_le
  have hlater : ∀ calls : List (Call ε), ∀ row ∈ (callAll calls s).2.resourceRows,
      row.id ≠ r.id := fun calls row hrow he =>
    ((callAll_reaches_any calls s).gone hs).not_mem_rows (he ▸ List.mem_map_of_mem hrow)
  refine ⟨hlater later, fun outcome houtcome row hrow => ?_,
    ((callAll_reaches_any later s).gone hs).stale⟩
  obtain ⟨first, rest, rfl, hlisted⟩ := listed_of_mem_callAll houtcome
  exact hlater first row (hlisted row hrow)

/-- Two resources are declared, and one of them is removed with its deployment. -/
def removed : List (Call StoreError) :=
  [.createDeployment "a", .declareResource "a" "web" "server", .declareResource "a" "web" "server",
    .createDeployment "b", .declareResource "b" "disk" "volume"]

/-- What follows writes through the old handle, alone and in company, and declares and imports
resources anew. -/
def replaced : List (Call StoreError) :=
  [.attributes (.alone (.resource 1) (.set "size" (.ofInt 8))),
    .createDeployment "a", .declareResource "a" "web" "server",
    .session [(.resource 1, .set "size" (.ofInt 8)), (.resource 3, .set "size" (.ofInt 8))] none,
    .importDeployments [⟨"c", .empty, .ofList [("web", ⟨"server", .empty⟩)]⟩]]

theorem callAll_stale_replaced :
    let s := (callAll (removed ++ [.purgeDeployment "a"]) .empty).2
    let t := (callAll replaced s).2
    t.resourceRows.map ResourceRecord.id = [3, 2, 4] ∧ Stale StoreError (.resource 1) t := by
  intro s t
  have hanswer : .ok (.resource ⟨1, "a", "web", "server"⟩) ∈ (callAll removed .empty).1 :=
    List.mem_cons_of_mem _ List.mem_cons_self
  exact ⟨by decide, (callAll_stale hanswer List.mem_cons_self (by decide) replaced).2.2⟩

end DesiredState.Store
