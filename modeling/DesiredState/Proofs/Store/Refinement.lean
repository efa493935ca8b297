import DesiredState.Proofs.Store.Declare
import DesiredState.Proofs.Store.Maps
import Mathlib.Data.Option.Basic

/-!
# The attributes of a store are one map for each owner

The texts of an owner denote a map of values. Every change to the attributes of an owner changes
its map alone and in the way that the request says, so that stores and maps answer alike for
good, whatever is done to them and whichever part of it fails.
-/

namespace DesiredState.Store

variable {s t : Store} {M : Maps} {scope : Scope}

theorem changeAttributes?_none (h : s.attributesOf? scope = none)
    (f : KeyMap String → KeyMap String) : s.changeAttributes? scope f = none := by
  cases scope with
  | deployment uuid =>
    have hd : s.deployments.find? uuid = none := by simpa [attributesOf?] using h
    simp [changeAttributes?, hd]
  | resource i =>
    have hr : s.resourceById? i = none := by simpa [attributesOf?] using h
    simp [changeAttributes?, hr]

/-- Other attributes for a deployment leave all resources in their places. -/
theorem resourceById?_insert {uuid : String} {d : StoredDeployment}
    (hd : s.deployments.find? uuid = some d) (texts : KeyMap String) (i : Int) :
    resourceById?
      { s with deployments := s.deployments.insert uuid { d with attributes := texts } } i =
      s.resourceById? i := by
  have hentries : (s.deployments.insert uuid { d with attributes := texts }).entries = _ :=
    insertEntry_of_find _ s.deployments.ascending hd
  rw [resourceById?_eq_findSome?, resourceById?_eq_findSome?, hentries, List.findSome?_map]
  refine findSome?_congr_of_mem fun entry he => ?_
  simp only [Function.comp_apply]
  split
  · rename_i hk
    have hsame := KeyMap.find?_eq_some_iff.mpr he
    rw [hk, hd] at hsame
    rw [Option.some.inj hsame]
  · rfl

/-- The attributes of an owner that exists can be changed, and no other owner's change. -/
theorem changeAttributes?_some {texts : KeyMap String} (h : s.attributesOf? scope = some texts)
    (f : KeyMap String → KeyMap String) :
    ∃ t, s.changeAttributes? scope f = some t ∧
      t.attributesOf? = Function.update s.attributesOf? scope (some (f texts)) := by
  cases scope with
  | deployment uuid =>
    obtain ⟨d, hd, rfl⟩ := Option.map_eq_some_iff.mp h
    refine ⟨_, by rw [changeAttributes?, hd, Option.map_some], ?_⟩
    funext other
    cases other with
    | deployment other =>
      by_cases ho : other = uuid
      · simp [attributesOf?, ho]
      · simp [attributesOf?, KeyMap.find?_insert, ho]
    | resource i =>
      rw [Function.update_of_ne (by simp), attributesOf?, resourceById?_insert hd, attributesOf?]
  | resource i =>
    have hrecords : s.Records i texts.find? := ⟨texts, h, fun _ => rfl⟩
    obtain ⟨t, ht, hbeside, hattributes⟩ := changeAttributes?_resource hrecords f
    refine ⟨t, ht, ?_⟩
    funext other
    by_cases ho : other = .resource i
    · rw [ho, Function.update_self, hattributes, h, Option.map_some]
    · rw [Function.update_of_ne ho, hbeside.others other ho]

/-- Whether or not its owner exists, a change leaves the attributes of the other owners. -/
theorem attributesOf?_change_of_ne {other : Scope} (h : other ≠ scope)
    (f : KeyMap String → KeyMap String) (s : Store) :
    ((s.changeAttributes? scope f).getD s).attributesOf? other = s.attributesOf? other := by
  cases hs : s.attributesOf? scope with
  | none => rw [changeAttributes?_none hs, Option.getD_none]
  | some texts =>
    obtain ⟨t, ht, hattributes⟩ := changeAttributes?_some hs f
    rw [ht, Option.getD_some, hattributes, Function.update_of_ne h]

/-- Each owner has a map just if it exists, and its texts denote the values of the map. -/
def Denotes (s : Store) (M : Maps) : Prop :=
  ∀ scope, Option.Rel (fun texts values => texts.mapM? decodeText = .ok values)
    (s.attributesOf? scope) (M scope)

theorem Denotes.texts (h : Denotes s M) (scope : Scope) :
    (s.attributesOf scope).mapM? decodeText = .ok ((M scope).getD .empty) := by
  have hscope := h scope
  unfold attributesOf
  generalize s.attributesOf? scope = texts at hscope
  generalize M scope = values at hscope
  cases hscope with
  | some hvalues => exact hvalues
  | none => exact KeyMap.mapM?_empty decodeText

theorem Denotes.present (h : Denotes s M) {values : KeyMap Json} (hm : M scope = some values) :
    ∃ texts, s.attributesOf? scope = some texts ∧ texts.mapM? decodeText = .ok values := by
  have hscope := h scope
  rw [hm] at hscope
  generalize s.attributesOf? scope = texts at hscope
  cases hscope with
  | some hvalues => exact ⟨_, rfl, hvalues⟩

theorem Denotes.absent (h : Denotes s M) (hm : M scope = none) : s.attributesOf? scope = none := by
  have hscope := h scope
  rw [hm] at hscope
  generalize s.attributesOf? scope = texts at hscope
  cases hscope
  rfl

theorem Denotes.update (h : Denotes s M) {texts : KeyMap String} {values : KeyMap Json}
    (ht : t.attributesOf? = Function.update s.attributesOf? scope (some texts))
    (hvalues : texts.mapM? decodeText = .ok values) :
    Denotes t (Function.update M scope (some values)) := by
  intro other
  rw [ht]
  by_cases ho : other = scope
  · rw [ho, Function.update_self, Function.update_self]
    exact .some hvalues
  · rw [Function.update_of_ne ho, Function.update_of_ne ho]
    exact h other

/-- An action changes the map of an owner in one way, if there is one; without an owner it fails
where it would store something and changes nothing. -/
structure Writes (scope : Scope) (a : Action Store StoreError Unit)
    (f : KeyMap Json → KeyMap Json) (stores : Bool) : Prop where
  present : ∀ {s M values}, Denotes s M → M scope = some values →
    ∃ t, a.run s = (.ok (), t) ∧ Denotes t (Function.update M scope (some (f values)))
  absent : ∀ {s : Store}, s.attributesOf? scope = none →
    a.run s = (if stores then .error (.database .ownerMissing) else .ok (), s)

variable {a b : Action Store StoreError Unit} {f g : KeyMap Json → KeyMap Json} {p q : Bool}

theorem writes_pure : Writes scope (pure ()) id false where
  present {s M values} h hm := by
    refine ⟨s, rfl, ?_⟩
    rw [id, ← hm, Function.update_eq_self]
    exact h
  absent _ := rfl

theorem Writes.andThen (h : Writes scope a f p) (k : Writes scope b g q) :
    Writes scope (a >>= fun _ => b) (fun m => g (f m)) (p || q) where
  present {s M values} hs hm := by
    obtain ⟨t, ht, hM⟩ := h.present hs hm
    obtain ⟨u, hu, hM'⟩ := k.present hM (Function.update_self scope _ M)
    refine ⟨u, by rw [Action.run_bind_ok ht, hu], ?_⟩
    rwa [Function.update_idem] at hM'
  absent {s} hs := by
    have ha := h.absent hs
    cases p with
    | true => exact Action.run_bind_error ha
    | false => exact (Action.run_bind_ok ha).trans (k.absent hs)

/-- Where an action either runs through or leaves the store alone, a transaction adds nothing. -/
theorem Writes.transaction (h : Writes scope a f p) :
    Writes scope (Action.transaction a) f p where
  present {s M values} hs hm := by
    obtain ⟨t, ht, hM⟩ := h.present hs hm
    exact ⟨t, by rw [Action.run_transaction, ht], hM⟩
  absent {s} hs := by
    rw [Action.run_transaction, h.absent hs]
    cases p <;> rfl

/-- What changes the attributes of an owner, if there is one, changes its map as the texts say. -/
theorem writes_of_change {g : KeyMap String → KeyMap String}
    (hrun : ∀ s : Store, a.run s =
      match s.changeAttributes? scope g with
      | some t => (.ok (), t)
      | none => (if p then .error (.database .ownerMissing) else .ok (), s))
    (hg : ∀ {texts values}, texts.mapM? decodeText = .ok values →
      (g texts).mapM? decodeText = .ok (f values)) : Writes scope a f p where
  present {s M values} hs hm := by
    obtain ⟨texts, htexts, hvalues⟩ := hs.present hm
    obtain ⟨t, ht, hattributes⟩ := changeAttributes?_some htexts g
    exact ⟨t, by rw [hrun, ht], hs.update hattributes (hg hvalues)⟩
  absent {s} hs := by rw [hrun, changeAttributes?_none hs]

theorem writes_delete (scope : Scope) (key : String) :
    Writes scope (delete scope key) (fun m => m.erase key) false := by
  refine writes_of_change (g := fun m => m.erase key) (fun s => ?_)
    fun h => KeyMap.mapM?_erase h key
  rw [delete, Action.run_update]
  cases s.changeAttributes? scope fun m => m.erase key <;> rfl

theorem writes_clear (scope : Scope) : Writes scope (clear scope) (fun _ => .empty) false := by
  refine writes_of_change (g := fun _ => .empty) (fun s => ?_)
    fun _ => KeyMap.mapM?_empty decodeText
  rw [clear, Action.run_update]
  cases s.changeAttributes? scope fun _ => .empty <;> rfl

theorem writes_put (scope : Scope) (key : String) {text : String} {v : Json}
    (hv : decodeText text = .ok v) :
    Writes scope (put scope key text) (fun m => m.insert key v) true := by
  refine writes_of_change (g := fun m => m.insert key text) (fun s => ?_)
    fun h => KeyMap.mapM?_insert h key hv
  unfold Action.run put
  cases s.changeAttributes? scope fun m => m.insert key text <;> rfl

/-- A value that is read back from its text as it was. -/
def Faithful (v : Json) : Prop := decodeText v.render = .ok v

theorem writes_set (scope : Scope) (key : String) {v : Json} (hv : Faithful v) :
    Writes scope (set scope key v) (fun m => record m key v) (¬ v.isNull) := by
  unfold set record
  cases v.isNull with
  | true => exact writes_delete scope key
  | false => exact writes_put scope key hv

theorem writes_setEach (scope : Scope) {values : List (String × Json)}
    (hvalues : ∀ v ∈ values.map Prod.snd, Faithful v) :
    Writes scope (setEach scope values)
      (fun m => values.foldl (fun m entry => record m entry.1 entry.2) m)
      ((values.map Prod.snd).any fun v => ¬ v.isNull) := by
  induction values with
  | nil => exact writes_pure
  | cons entry rest ih =>
    have hfirst := writes_set scope entry.1 (hvalues entry.2 List.mem_cons_self)
    exact hfirst.andThen (ih fun v hv => hvalues v (List.mem_cons_of_mem _ hv))

/-- Putting the entries of a map one by one, all but the `null`s are there. -/
theorem find?_foldl_record {entries : List (String × Json)} (h : Ascending entries)
    (m : KeyMap Json) (key : String) :
    (entries.foldl (fun m entry => record m entry.1 entry.2) m).find? key =
      match findEntry key entries with
      | some v => if v.isNull then none else some v
      | none => m.find? key := by
  induction entries generalizing m with
  | nil => rfl
  | cons head rest ih =>
    obtain ⟨k, v⟩ := head
    rw [List.foldl_cons, ih (List.pairwise_cons.mp h).2, findEntry]
    by_cases hk : k = key
    · subst hk
      rw [findEntry_eq_none_of_lt (List.pairwise_cons.mp h).1, if_pos rfl]
      by_cases hnull : v.isNull = true <;> simp [record, hnull]
    · have hother : (record m k v).find? key = m.find? key := by
        unfold record
        split
        · exact KeyMap.find?_erase_ne (Ne.symm hk) m
        · exact KeyMap.find?_insert_ne (Ne.symm hk) m v
      rw [if_neg hk, hother]

theorem foldl_record_entries (values : KeyMap Json) :
    values.entries.foldl (fun m entry => record m entry.1 entry.2) .empty =
      values.filter fun _ v => ¬ v.isNull := by
  refine KeyMap.ext fun key => ?_
  rw [find?_foldl_record values.ascending, KeyMap.find?_filter]
  change (match values.find? key with | some v => _ | none => _) = _
  cases values.find? key with
  | none => rfl
  | some v => cases hnull : v.isNull <;> simp [Option.filter, hnull]

theorem writes_replaceAttributes (scope : Scope) {values : KeyMap Json}
    (hvalues : ∀ v ∈ values.values, Faithful v) :
    Writes scope (replaceAttributes scope values)
      (fun _ => values.filter fun _ v => ¬ v.isNull) (values.values.any fun v => ¬ v.isNull) := by
  have h := (writes_clear scope).andThen (writes_setEach scope hvalues)
  rw [foldl_record_entries, Bool.false_or] at h
  exact h

/-- The same is observed of a store and of its maps, and what they become fits again. -/
def Agree {α : Type} (x : α × Store) (y : α × Maps) : Prop := x.1 = y.1 ∧ Denotes x.2 y.2

theorem Agree.outcome {α : Type} {x : α × Store} {y : α × Maps} (h : Agree x y) :
    ∃ a t N, x = (a, t) ∧ y = (a, N) ∧ Denotes t N := by
  obtain ⟨a, t⟩ := x
  obtain ⟨b, N⟩ := y
  obtain ⟨rfl, hN⟩ := h
  exact ⟨a, t, N, rfl, rfl, hN⟩

theorem ask_of_effect {request : Request} (h : ∀ m, request.effect m = m)
    (hstores : request.stores = false) (M : Maps) (scope : Scope) :
    M.ask scope request = (.ok (request.answer ((M scope).getD .empty)), M) := by
  unfold Maps.ask
  split
  · rename_i m hm
    rw [h, ← hm, Function.update_eq_self, hm, Option.getD_some]
  · rename_i hm
    rw [hstores, hm]
    rfl

theorem Writes.agree (hs : Denotes s M) {request : Request}
    (h : Writes scope a request.effect request.stores)
    (hdone : ∀ m, request.answer m = .done) :
    Agree ((a >>= fun _ => pure Reply.done).run s) (M.ask scope request) := by
  unfold Maps.ask
  split
  · rename_i m hm
    obtain ⟨t, ht, hM⟩ := h.present hs hm
    rw [Action.run_bind_ok ht, hdone]
    exact ⟨rfl, hM⟩
  · rename_i hm
    have ha := h.absent (hs.absent hm)
    split
    · rename_i hstores
      rw [if_pos hstores] at ha
      rw [Action.run_bind_error ha]
      exact ⟨rfl, hs⟩
    · rename_i hstores
      rw [if_neg hstores] at ha
      rw [Action.run_bind_ok ha, hdone]
      exact ⟨rfl, hs⟩

theorem get_of_denotes (hs : Denotes s M) (scope : Scope) (key : String) :
    (get scope key).run s = (.ok (((M scope).getD .empty).find? key), s) := by
  have hkey := KeyMap.mapM?_eq_ok_iff_find?.mp (hs.texts scope) key
  rw [get, Action.run_reading, textOf?]
  cases hfound : (s.attributesOf scope).find? key with
  | none =>
    rw [hfound, Option.map_none] at hkey
    rw [Option.map_eq_none_iff.mp hkey.symm]
  | some text =>
    rw [hfound, Option.map_some] at hkey
    obtain ⟨v, hv, htext⟩ := Option.map_eq_some_iff.mp hkey.symm
    rw [hv]
    simp only [← htext]
    rfl

theorem alone_agree (hs : Denotes s M) (scope : Scope) {request : Request}
    (hvalues : ∀ v ∈ request.values, Faithful v) :
    Agree ((request.alone scope).run s) (M.ask scope request) := by
  cases request with
  | get key =>
    rw [ask_of_effect (fun _ => rfl) rfl, Request.alone,
      Action.run_bind_ok (get_of_denotes hs scope key)]
    exact ⟨rfl, hs⟩
  | getOr key default =>
    rw [ask_of_effect (fun _ => rfl) rfl, Request.alone, getOr, bind_assoc,
      Action.run_bind_ok (get_of_denotes hs scope key)]
    exact ⟨rfl, hs⟩
  | keys =>
    rw [ask_of_effect (fun _ => rfl) rfl]
    have hkeys := KeyMap.keys_of_mapM? (hs.texts scope)
    exact ⟨congrArg (fun names => Except.ok (Reply.names names)) hkeys, hs⟩
  | exportAll =>
    have hall : (exportAttributes scope).run s = (.ok ((M scope).getD .empty), s) := by
      rw [exportAttributes, Action.run_reading, hs.texts scope]
    rw [ask_of_effect (fun _ => rfl) rfl, Request.alone, Action.run_bind_ok hall]
    exact ⟨rfl, hs⟩
  | set key v =>
    have hwrites := writes_set scope key (hvalues v List.mem_cons_self)
    rw [← Bool.or_false (decide (¬ v.isNull = true))] at hwrites
    exact Writes.agree hs hwrites fun _ => rfl
  | setMany values =>
    exact Writes.agree hs (writes_setEach scope hvalues).transaction fun _ => rfl
  | delete key => exact Writes.agree hs (writes_delete scope key) fun _ => rfl
  | clear => exact Writes.agree hs (writes_clear scope) fun _ => rfl
  | importAll values =>
    exact Writes.agree hs (writes_replaceAttributes scope hvalues).transaction fun _ => rfl

theorem within_agree (hs : Denotes s M) (scope : Scope) {request : Request}
    (hvalues : ∀ v ∈ request.values, Faithful v) :
    Agree ((request.within scope).run s) (M.ask scope request) := by
  cases request with
  | setMany values => exact Writes.agree hs (writes_setEach scope hvalues) fun _ => rfl
  | importAll values => exact Writes.agree hs (writes_replaceAttributes scope hvalues) fun _ => rfl
  | get => exact alone_agree hs scope hvalues
  | getOr => exact alone_agree hs scope hvalues
  | keys => exact alone_agree hs scope hvalues
  | exportAll => exact alone_agree hs scope hvalues
  | set => exact alone_agree hs scope hvalues
  | delete => exact alone_agree hs scope hvalues
  | clear => exact alone_agree hs scope hvalues

variable {ε : Type} [StoreFailure ε]

theorem askEach_agree {steps : List (Scope × Request)} (hs : Denotes s M)
    (hvalues : ∀ step ∈ steps, ∀ v ∈ step.2.values, Faithful v) :
    Agree ((askEach steps : Action Store (List Reply × ε) (List Reply)).run s)
      (M.askEach steps) := by
  induction steps generalizing s M with
  | nil => exact ⟨rfl, hs⟩
  | cons step rest ih =>
    obtain ⟨scope, request⟩ := step
    obtain ⟨reply, t, N, hrun, hask, hN⟩ :=
      (within_agree hs scope (hvalues _ List.mem_cons_self)).outcome
    rw [askEach, Action.run_bind, Action.run_mapError, hrun, Maps.askEach, hask]
    cases reply with
    | error e => exact ⟨rfl, hN⟩
    | ok reply =>
      obtain ⟨replies, u, O, hrest, hanswers, hO⟩ :=
        (ih hN fun step hmem => hvalues step (List.mem_cons_of_mem _ hmem)).outcome
      simp only [Except.mapError, Action.run_bind, Action.run_mapError, hrest, hanswers]
      cases replies with
      | error failure => exact ⟨rfl, hO⟩
      | ok replies => exact ⟨rfl, hO⟩

theorem perform_agree {operation : Operation ε} (hs : Denotes s M)
    (hvalues : ∀ v ∈ operation.values, Faithful v) :
    Agree (operation.perform.run s) (M.perform operation) := by
  cases operation with
  | alone scope request =>
    obtain ⟨reply, t, N, hrun, hask, hN⟩ := (alone_agree hs scope hvalues).outcome
    rw [Operation.perform, Action.run_bind, Action.run_mapError, hrun, Maps.perform, Maps.askEach,
      hask]
    cases reply with
    | error e => exact ⟨rfl, hN⟩
    | ok reply => exact ⟨rfl, hN⟩
  | transaction steps refusal =>
    have hsteps : ∀ step ∈ steps, ∀ v ∈ step.2.values, Faithful v := fun step hstep v hv =>
      hvalues v (List.mem_flatMap.mpr ⟨step, hstep, hv⟩)
    obtain ⟨replies, t, N, hrun, hask, hN⟩ := (askEach_agree (ε := ε) hs hsteps).outcome
    rw [Operation.perform, Action.run_transaction, Action.run_bind, hrun, Maps.perform, hask]
    cases replies with
    | error failure => exact ⟨rfl, hs⟩
    | ok replies =>
      cases refusal with
      | some e => exact ⟨rfl, hs⟩
      | none => exact ⟨rfl, hN⟩

/-- Whatever is done to a store, alone or in transactions, by any handles in any order: what is
observed is what one map for each owner would answer, and the maps stay what the store denotes. -/
theorem performAll_refines {operations : List (Operation ε)} (hs : Denotes s M)
    (hvalues : ∀ operation ∈ operations, ∀ v ∈ operation.values,
      v.plain = true ∧ v.depth ≤ Json.maxDepth) :
    (performAll operations s).1 = (M.performAll operations).1 ∧
      Denotes (performAll operations s).2 (M.performAll operations).2 := by
  induction operations generalizing s M with
  | nil => exact ⟨rfl, hs⟩
  | cons operation rest ih =>
    have hfaithful : ∀ v ∈ operation.values, Faithful v := by
      intro v hv
      obtain ⟨hplain, hdepth⟩ := hvalues operation List.mem_cons_self v hv
      exact decodeText_render hplain hdepth
    obtain ⟨hfirst, hN⟩ := perform_agree hs hfaithful
    obtain ⟨hrest, hlast⟩ := ih hN fun operation hmem =>
      hvalues operation (List.mem_cons_of_mem _ hmem)
    refine ⟨?_, hlast⟩
    rw [performAll, Maps.performAll]
    exact congrArg₂ List.cons hfirst hrest

/-- A deployment with a resource, neither with attributes. -/
def bare : Store :=
  ⟨KeyMap.ofList [("dep-1", ⟨.empty, [⟨1, "web", "server", .empty⟩]⟩)], 1⟩

/-- An empty map for the deployment and one for its resource. -/
def bareMaps : Maps
  | .deployment uuid => if uuid = "dep-1" then some .empty else none
  | .resource i => if i = 1 then some .empty else none

theorem denotes_bare : Denotes bare bareMaps := by
  intro scope
  cases scope with
  | deployment uuid =>
    by_cases hu : uuid = "dep-1"
    · subst hu
      exact .some rfl
    · have hfind : bare.deployments.find? uuid = none := KeyMap.find?_insert_ne hu .empty _
      rw [attributesOf?, hfind, bareMaps, if_neg hu]
      exact .none
  | resource i =>
    by_cases hi : i = 1
    · subst hi
      exact .some rfl
    · have hall : bare.allResources = [⟨1, "web", "server", .empty⟩] := rfl
      have hfind : bare.resourceById? i = none := by simp [resourceById?, hall, Ne.symm hi]
      rw [attributesOf?, hfind, bareMaps, if_neg hi]
      exact .none

/-- A transaction over both owners, which the caller fails, between a write and two reads. -/
def interrupted : List (Operation StoreError) :=
  [.alone (.resource 1) (.set "ready" (.bool false)),
    .transaction [(.resource 1, .clear), (.deployment "dep-1", .set "ready" (.bool true)),
      (.resource 1, .get "ready")] (some (.deploymentNotFound "simulated")),
    .alone (.resource 1) (.getOr "ready" (.bool true)),
    .alone (.deployment "dep-1") .keys]

/-- What the transaction wrote is seen in it and nowhere else, and `false` is there. -/
theorem performAll_refines_interrupted :
    (performAll interrupted bare).1 =
      [.ok [.done], .error ([.done, .done, .found none], .deploymentNotFound "simulated"),
        .ok [.value (.bool false)], .ok [.names []]] := by
  rw [(performAll_refines denotes_bare (by decide)).1]
  rfl

end DesiredState.Store
