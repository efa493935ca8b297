import DesiredState.Proofs.Diff.Exact
import DesiredState.Proofs.State.Resolver

/-!
# Carrying out a difference

Every wanted value is stored and every unwanted one is removed; a value that is pending cannot be
stored, so its change waits. Afterwards a key that takes part holds what the definition wants for
it unless that is still pending, and comparing again finds the pending keys and no others.
-/

namespace DesiredState.Diff

/-- What is recorded once the change of one key is made. -/
def Entry.apply (entry : Entry) (current : KeyMap Json) : KeyMap Json :=
  match entry.kind, entry.desired with
  | .unset, _ => current.erase entry.key
  | .set, some (.value v) => current.insert entry.key v
  | .update, some (.value v) => current.insert entry.key v
  | _, _ => current

/-- What is recorded once every change is made that does not wait. -/
def apply (diff : Diff) (current : KeyMap Json) : KeyMap Json :=
  diff.entries.foldl (fun values entry => entry.apply values) current

/-- The value at a key of a definition: its literal, or what its reference is ready with. A `null`
is no value. -/
def wantedValue? (d : Definition) (resolve : Resolver) (key : String) : Option Json :=
  let found := match d.get? key with
    | none => none
    | some (.value v) => some v
    | some (.reference target) =>
      match resolve target with
      | .ok (.ready v) => some v
      | _ => none
  found.filter fun v => ¬ v.isNull

/-- The setting of a key refers to a value that is pending. -/
def Awaiting (d : Definition) (resolve : Resolver) (key : String) : Prop :=
  ∃ target, d.get? key = some (.reference target) ∧ resolve target = .ok .pending

/-- Every reference that takes part is pending, or ready with a value other than `null`. -/
def Answered (d : Definition) (reserved : List String) (resolve : Resolver) : Prop :=
  ∀ key target, key ∉ reserved → d.get? key = some (.reference target) →
    resolve target = .ok .pending ∨ ∃ v, v ≠ .null ∧ resolve target = .ok (.ready v)

variable {d : Definition} {current values : KeyMap Json} {reserved : List String}
  {resolve : Resolver} {key : String} {entry : Entry} {entries : List Entry} {diff : Diff}
  {wanted wanted' : Option Desired}

theorem Entry.find?_apply_ne (h : key ≠ entry.key) :
    (entry.apply values).find? key = values.find? key := by
  unfold Entry.apply
  split
  · exact KeyMap.find?_erase_ne h values
  · exact KeyMap.find?_insert_ne h values _
  · exact KeyMap.find?_insert_ne h values _
  · rfl

/-- At its own key a change leaves what is wanted, unless this is pending. -/
theorem Entry.find?_apply_self (h : Change entry.current entry.desired entry.kind) :
    (entry.apply values).find? entry.key =
      match entry.desired with
      | none => none
      | some (.value v) => some v
      | some (.pending _) => values.find? entry.key := by
  obtain ⟨key, kind, recorded, wanted⟩ := entry
  cases h with
  | set wanted =>
    cases wanted with
    | value v => exact KeyMap.find?_insert_self values key v
    | pending target => rfl
  | @update _ wanted _ =>
    cases wanted with
    | value v => exact KeyMap.find?_insert_self values key v
    | pending target => rfl
  | unset v => exact KeyMap.find?_erase_self values key

theorem find?_foldl_apply_ne (h : ∀ entry ∈ entries, key ≠ entry.key) :
    (entries.foldl (fun values entry => entry.apply values) values).find? key =
      values.find? key := by
  induction entries generalizing values with
  | nil => rfl
  | cons head rest ih =>
    obtain ⟨hhead, hrest⟩ := List.forall_mem_cons.mp h
    exact (ih hrest).trans (Entry.find?_apply_ne hhead)

/-- Among changes of different keys, each has its own effect. -/
theorem find?_foldl_apply (hnodup : (entries.map Entry.key).Nodup) (hentry : entry ∈ entries)
    (h : Change entry.current entry.desired entry.kind) :
    (entries.foldl (fun values entry => entry.apply values) values).find? entry.key =
      (entry.apply values).find? entry.key := by
  obtain ⟨before, after, rfl⟩ := List.append_of_mem hentry
  rw [List.map_append, List.map_cons] at hnodup
  have hbefore : ∀ other ∈ before, entry.key ≠ other.key := by
    intro other hother he
    have hdisjoint := List.disjoint_of_nodup_append hnodup (List.mem_map_of_mem hother)
    exact hdisjoint (he ▸ List.mem_cons_self)
  have hafter : ∀ other ∈ after, entry.key ≠ other.key := by
    intro other hother he
    have hnew := (List.nodup_cons.mp (List.Nodup.of_append_right hnodup)).1
    exact hnew (he ▸ List.mem_map_of_mem hother)
  rw [List.foldl_append, List.foldl_cons, find?_foldl_apply_ne hafter,
    Entry.find?_apply_self h, Entry.find?_apply_self h]
  cases entry.desired with
  | none => rfl
  | some wanted =>
    cases wanted with
    | value v => rfl
    | pending target => exact find?_foldl_apply_ne hbefore

/-- A key without an entry keeps its value. -/
theorem find?_apply_of_none (h : compute d current reserved resolve = .ok diff)
    (hkey : diff.get? key = none) : (diff.apply current).find? key = current.find? key := by
  apply find?_foldl_apply_ne
  intro entry hentry he
  obtain ⟨other, hother⟩ := mem_entries_iff.mp hentry
  have hsame : entry.key = other := ((get?_eq_some_iff h).mp hother).1
  rw [he, hsame, hother] at hkey
  cases hkey

theorem find?_apply_of_some (h : compute d current reserved resolve = .ok diff)
    (hkey : diff.get? key = some entry) :
    (diff.apply current).find? key = (entry.apply current).find? key := by
  obtain ⟨rfl, hdue⟩ := (get?_eq_some_iff h).mp hkey
  have hnodup : (diff.entries.map Entry.key).Nodup := by
    rw [keys_entries h]
    exact diff.changes.nodup_keys
  exact find?_foldl_apply hnodup (mem_entries_iff.mpr ⟨_, hkey⟩) hdue.change

/-- A definition wants one thing for a key. -/
theorem Wants.unique (h : Wants d resolve key wanted) (h' : Wants d resolve key wanted') :
    wanted = wanted' := by
  cases hget : d.get? key with
  | none =>
    have hnone := (wants_of_unmentioned hget).mp h
    exact hnone.trans ((wants_of_unmentioned hget).mp h').symm
  | some setting =>
    have hsame := ((wants_iff hget).mp h).symm.trans ((wants_iff hget).mp h')
    exact Except.ok.inj hsame

/-- Reserved keys are left as they are. -/
theorem find?_apply_reserved (h : compute d current reserved resolve = .ok diff)
    (hr : key ∈ reserved) : (diff.apply current).find? key = current.find? key := by
  apply find?_apply_of_none h
  cases hkey : diff.get? key with
  | none => rfl
  | some entry =>
    obtain ⟨rfl, hdue⟩ := (get?_eq_some_iff h).mp hkey
    exact absurd hr hdue.free

theorem find?_apply_pending (h : compute d current reserved resolve = .ok diff)
    {target : Reference} (hw : Wants d resolve key (some (.pending target))) :
    (diff.apply current).find? key = current.find? key := by
  cases hkey : diff.get? key with
  | none => exact find?_apply_of_none h hkey
  | some entry =>
    obtain ⟨rfl, hdue⟩ := (get?_eq_some_iff h).mp hkey
    rw [find?_apply_of_some h hkey, Entry.find?_apply_self hdue.change,
      hdue.wanted.unique hw]

/-- A key that takes part holds what is wanted for it once nothing is pending there. -/
theorem settled_apply (h : compute d current reserved resolve = .ok diff) (hr : key ∉ reserved)
    (hw : Wants d resolve key wanted) (hready : ∀ target, wanted ≠ some (.pending target)) :
    Settled ((diff.apply current).find? key) wanted := by
  cases hkey : diff.get? key with
  | none =>
    rw [find?_apply_of_none h hkey]
    by_contra hnot
    obtain ⟨entry, hentry⟩ := (exists_entry_iff h).mpr ⟨hr, wanted, hw, hnot⟩
    rw [hkey] at hentry
    cases hentry
  | some entry =>
    obtain ⟨rfl, hdue⟩ := (get?_eq_some_iff h).mp hkey
    rw [find?_apply_of_some h hkey, Entry.find?_apply_self hdue.change, hdue.wanted.unique hw]
    cases wanted with
    | none => exact .absent
    | some wanted =>
      cases wanted with
      | value v => exact .equal v.same_refl
      | pending target => exact absurd rfl (hready target)

/-- Where all references are answered the comparison succeeds. -/
theorem Answered.compute_isOk (h : Answered d reserved resolve) (current : KeyMap Json) :
    ∃ diff, compute d current reserved resolve = .ok diff := by
  cases hc : compute d current reserved resolve with
  | ok diff => exact ⟨diff, rfl⟩
  | error cause =>
    obtain ⟨key, cause', hr, hunresolvable⟩ := exists_compute_eq_error_iff.mp ⟨cause, hc⟩
    cases hunresolvable with
    | failed hget hfailed =>
      rcases h key _ hr hget with hpending | ⟨v, -, hready⟩
      · cases hfailed.symm.trans hpending
      · cases hfailed.symm.trans hready
    | unknown hget hunknown =>
      rcases h key _ hr hget with hpending | ⟨v, -, hready⟩
      · cases hunknown.symm.trans hpending
      · cases hunknown.symm.trans hready

/-- What is wanted for a key is its value, unless this is pending. -/
theorem Answered.wants (h : Answered d reserved resolve) (hr : key ∉ reserved)
    (hready : ¬ Awaiting d resolve key) :
    Wants d resolve key ((wantedValue? d resolve key).map .value) := by
  have hfilter : ∀ v : Json, v ≠ .null →
      (some v).filter (fun v => decide ¬ v.isNull) = some v := by
    intro v hv
    simp [Option.filter, mt isNull_eq_true_iff.mp hv]
  unfold wantedValue?
  cases hget : d.get? key with
  | none => exact .unmentioned hget
  | some setting =>
    cases setting with
    | value v =>
      by_cases hv : v = .null
      · subst hv
        exact .null hget
      · rw [hfilter v hv]
        exact .literal hget hv
    | reference target =>
      rcases h key target hr hget with hpending | ⟨v, hv, hfound⟩
      · exact absurd ⟨target, hget, hpending⟩ hready
      · simp only [hfound]
        rw [hfilter v hv]
        exact .ready hget hfound

/-- What is left to change once a difference is carried out is what is pending. -/
theorem Answered.mem_changedKeys_rest (h : Answered d reserved resolve)
    (hdiff : compute d current reserved resolve = .ok diff) {rest : Diff}
    (hrest : compute d (diff.apply current) reserved resolve = .ok rest) :
    key ∈ rest.changedKeys ↔ key ∉ reserved ∧ Awaiting d resolve key := by
  rw [mem_changedKeys_iff_exists_entry, exists_entry_iff hrest]
  refine and_congr_right fun hr => ?_
  constructor
  · rintro ⟨wanted, hw, hnot⟩
    by_contra hready
    have hsame := hw.unique (h.wants hr hready)
    subst hsame
    refine hnot (settled_apply hdiff hr hw ?_)
    intro target
    cases wantedValue? d resolve key <;> nofun
  · rintro ⟨target, hget, hpending⟩
    exact ⟨_, .pending hget hpending, not_settled_pending⟩

/-- Carrying out a difference brings about the definition. Where every reference is answered, and
with no `null`, the comparison succeeds before and after; reserved keys and keys with a pending
reference are left as they are; every other key holds just the value that the definition has for
it; what is left to change is what is pending, so nothing is where nothing is pending. The answers
of a store that was filled value by value are of this kind: only a resource that is up makes a
reference ready, and never with `null`. -/
theorem apply_reaches (current : KeyMap Json) (h : Answered d reserved resolve) :
    (∃ diff rest, compute d current reserved resolve = .ok diff ∧
      compute d (diff.apply current) reserved resolve = .ok rest ∧
      (∀ key ∈ reserved, (diff.apply current).find? key = current.find? key) ∧
      (∀ key, Awaiting d resolve key → (diff.apply current).find? key = current.find? key) ∧
      (∀ key, key ∉ reserved → ¬ Awaiting d resolve key →
        Settled ((diff.apply current).find? key) ((wantedValue? d resolve key).map .value)) ∧
      (∀ key, key ∈ rest.changedKeys ↔ key ∉ reserved ∧ Awaiting d resolve key) ∧
      ((∀ key, key ∉ reserved → ¬ Awaiting d resolve key) → rest.isEmpty = true)) ∧
    ∀ calls : List (Store.Call Failure),
      (∀ call ∈ calls, ∀ v ∈ call.values, v.writable = true) → ∀ deployment target v,
      State.resolver (Store.callAll calls .empty).2 deployment target = .ok (.ready v) →
        v ≠ .null ∧
          ∃ r, State.UpAt (Store.callAll calls .empty).2 deployment target.resource r := by
  constructor
  · obtain ⟨diff, hdiff⟩ := h.compute_isOk current
    obtain ⟨rest, hrest⟩ := h.compute_isOk (diff.apply current)
    have hleft : ∀ key, key ∈ rest.changedKeys ↔ key ∉ reserved ∧ Awaiting d resolve key :=
      fun _ => h.mem_changedKeys_rest hdiff hrest
    refine ⟨diff, rest, hdiff, hrest, fun _ => find?_apply_reserved hdiff, ?_, ?_, hleft, ?_⟩
    · rintro key ⟨target, hget, hpending⟩
      exact find?_apply_pending hdiff (.pending hget hpending)
    · intro key hr hready
      apply settled_apply hdiff hr (h.wants hr hready)
      intro target
      cases wantedValue? d resolve key <;> nofun
    · intro hready
      apply isEmpty_iff.mpr
      apply List.eq_nil_iff_forall_not_mem.mpr
      intro key hkey
      obtain ⟨hr, hawaiting⟩ := (hleft key).mp hkey
      exact hready key hr hawaiting
  · intro calls hvalues deployment target v hready
    exact ⟨State.ne_null_of_callAll hvalues hready, State.up_of_resolver_ready hready⟩

/-- A server that is up, and a disk that is only declared. -/
def serving : Store :=
  let calls : List (Store.Call Failure) := [.createDeployment "a",
    .declareResource "a" "web" "server", .declareResource "a" "disk" "volume",
    .attributes (.alone (.resource 1) (.set State.statusKey (.ofInt Status.up.ordinal))),
    .attributes (.alone (.resource 1) (.set "id" (.str "i-2")))]
  (Store.callAll calls .empty).2

/-- Settings of every kind; the place of display is not for a definition to choose. -/
def joining : Definition :=
  ⟨"app", "service", .ofList [("disk", .reference ⟨"disk", "id"⟩),
    ("index", .reference ⟨"nobody", "index"⟩), ("label", .value (.str "new")),
    ("region", .value .null), ("server", .reference ⟨"web", "id"⟩), ("size", .value (.ofInt 8))]⟩

def joinedBefore : KeyMap Json :=
  .ofList [("index", .ofInt 3), ("region", .str "us-east-1"), ("server", .str "i-1"),
    ("size", .ofInt 8), ("zone", .str "b")]

theorem answered_joining : Answered joining ["index"] (State.resolver serving "a") := by
  intro key target hr hget
  have hmem := KeyMap.find?_eq_some_iff.mp hget
  have hentries : joining.settings.entries = [("disk", .reference ⟨"disk", "id"⟩),
      ("index", .reference ⟨"nobody", "index"⟩), ("label", .value (.str "new")),
      ("region", .value .null), ("server", .reference ⟨"web", "id"⟩),
      ("size", .value (.ofInt 8))] := rfl
  rw [hentries] at hmem
  simp only [List.mem_cons, Prod.mk.injEq, Setting.reference.injEq, reduceCtorEq, and_false,
    List.not_mem_nil, or_false, false_or] at hmem
  rcases hmem with ⟨rfl, rfl⟩ | ⟨rfl, rfl⟩ | ⟨rfl, rfl⟩
  · exact Or.inl rfl
  · exact absurd List.mem_cons_self hr
  · exact Or.inr ⟨.str "i-2", nofun, rfl⟩

/-- The setting of the server is brought about, and the one of the disk is left. -/
theorem apply_reaches_joining : Answered joining ["index"] (State.resolver serving "a") ∧
    ∃ diff rest,
      compute joining joinedBefore ["index"] (State.resolver serving "a") = .ok diff ∧
      diff.changedKeys = ["disk", "label", "region", "server", "zone"] ∧
      (diff.apply joinedBefore).entries = [("index", .ofInt 3), ("label", .str "new"),
        ("server", .str "i-2"), ("size", .ofInt 8)] ∧
      compute joining (diff.apply joinedBefore) ["index"] (State.resolver serving "a") =
        .ok rest ∧
      Settled ((diff.apply joinedBefore).find? "server") (some (.value (.str "i-2"))) ∧
      "disk" ∈ rest.changedKeys ∧ "server" ∉ rest.changedKeys := by
  have hawaiting : ¬ Awaiting joining (State.resolver serving "a") "server" := by
    rintro ⟨target, hget, hpending⟩
    cases hget
    cases hpending
  obtain ⟨⟨diff, rest, hdiff, hrest, -, -, hsettled, hleft, -⟩, -⟩ :=
    apply_reaches joinedBefore answered_joining
  refine ⟨answered_joining, diff, rest, hdiff, ?_, ?_, hrest, ?_, ?_, ?_⟩
  · cases hdiff
    decide +kernel
  · cases hdiff
    decide +kernel
  · exact hsettled "server" (by decide) hawaiting
  · exact (hleft "disk").mpr ⟨by decide, ⟨"disk", "id"⟩, rfl, rfl⟩
  · exact fun hmem => hawaiting ((hleft "server").mp hmem).2

end DesiredState.Diff
