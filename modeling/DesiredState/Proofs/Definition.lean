import DesiredState.Definition.Codec
import DesiredState.Proofs.Json.Canonical

/-!
# Definitions read back

The JSON form of a definition is always read as a definition. It is the same one, except that a
literal which looks like a reference comes back as that reference. No definition that was itself
read from a value without repeated keys has such a literal.
-/

namespace DesiredState

variable {r target : Reference} {v : Json} {members : List (String × Json)}

theorem Reference.ofJson?_obj_iff (h : (members.map Prod.fst).Nodup) :
    Reference.ofJson? (.obj members) = some r ↔
      ("resource", .str r.resource) ∈ members ∧ ("attr", .str r.output) ∈ members := by
  rw [← Json.Field.find_eq_once_iff h, ← Json.Field.find_eq_once_iff h,
    ← Json.Field.string?_eq_some_iff, ← Json.Field.string?_eq_some_iff, Reference.ofJson?]
  cases (Json.Field.find "resource" members).string? with
  | none => simp
  | some resource =>
    cases (Json.Field.find "attr" members).string? with
    | none => simp
    | some output =>
      cases r
      simp

theorem Reference.ofJson?_arr_iff {items : List Json} : Reference.ofJson? (.arr items) = some r ↔
    items = [.str r.resource, .str r.output] := by
  constructor
  · intro h
    unfold Reference.ofJson? at h
    split at h
    · cases ‹Json.arr items = .obj _›
    · cases ‹Json.arr items = .arr _›
      cases h
      rfl
    · cases h
  · rintro rfl
    rfl

/-- A value without repeated keys and its canonical form are the same reference, if any. -/
theorem Reference.ofJson?_canonical (h : v.UniqueKeys) :
    Reference.ofJson? v.canonical = Reference.ofJson? v := by
  refine Option.ext fun r => ?_
  cases h with
  | null | bool | num | str => rfl
  | arr =>
    rw [Json.canonical, Reference.ofJson?_arr_iff, Reference.ofJson?_arr_iff,
      Json.canonicalItems_eq_map]
    simp [List.map_eq_cons_iff, Json.canonical_eq_str_iff]
  | obj distinct =>
    rw [Json.canonical, Reference.ofJson?_obj_iff (KeyMap.nodup_keys _),
      Reference.ofJson?_obj_iff distinct, Json.mem_canonical_iff distinct,
      Json.mem_canonical_iff distinct]
    simp [Json.canonical_eq_str_iff]

theorem Reference.ofJson?_toJson (r : Reference) : Reference.ofJson? r.toJson = some r :=
  (Reference.ofJson?_obj_iff (by simp)).mpr ⟨by simp, by simp⟩

/-- A literal value that looks like a reference: an object with a member `$ref` that can be read as
one. -/
def Disguised (v : Json) (target : Reference) : Prop :=
  ∃ members inner, v = .obj members ∧ ("$ref", inner) ∈ members ∧
    Reference.ofJson? inner = some target

namespace Setting

theorem target?_obj_iff (h : (members.map Prod.fst).Nodup) :
    target? (.obj members) = some target ↔
      ∃ inner, ("$ref", inner) ∈ members ∧ Reference.ofJson? inner = some target := by
  simp only [← Json.Field.find_eq_once_iff h, target?]
  cases Json.Field.find "$ref" members <;> simp

theorem target?_eq_some_iff (h : v.canonical = v) :
    target? v = some target ↔ Disguised v target := by
  cases v with
  | obj members =>
    rw [target?_obj_iff (Json.nodup_of_canonical h)]
    simp [Disguised]
  | null | bool | num | str | arr => simp [target?, Disguised]

/-- Taking the canonical form neither makes nor hides a reference. -/
theorem target?_canonical (h : v.UniqueKeys) : target? v.canonical = target? v := by
  refine Option.ext fun target => ?_
  cases h with
  | null | bool | num | str | arr => rfl
  | obj distinct inner =>
    rw [Json.canonical, target?_obj_iff (KeyMap.nodup_keys _), target?_obj_iff distinct]
    simp only [Json.mem_canonical_iff distinct]
    constructor
    · rintro ⟨_, ⟨v, hm, rfl⟩, htarget⟩
      exact ⟨v, hm, Reference.ofJson?_canonical (inner _ hm) ▸ htarget⟩
    · rintro ⟨v, hm, htarget⟩
      exact ⟨_, ⟨v, hm, rfl⟩, (Reference.ofJson?_canonical (inner _ hm)).trans htarget⟩

theorem ofJson_toJson_reference (target : Reference) :
    ofJson (toJson (.reference target)) = .reference target := by
  have htarget : target? (toJson (.reference target)) = some target :=
    (target?_obj_iff (by simp)).mpr ⟨_, List.mem_singleton_self _, target.ofJson?_toJson⟩
  rw [ofJson, htarget]

theorem ofJson_of_disguised (h : v.canonical = v) (hd : Disguised v target) :
    ofJson v = .reference target := by
  rw [ofJson, (target?_eq_some_iff h).mpr hd]

theorem ofJson_of_not_disguised (h : v.canonical = v) (hd : ∀ target, ¬ Disguised v target) :
    ofJson v = .value v := by
  have hnone : target? v = none :=
    Option.eq_none_iff_forall_ne_some.mpr fun target ht => hd target ((target?_eq_some_iff h).mp ht)
  rw [ofJson, hnone]
  exact congrArg value h

theorem ofJson_eq_value_iff {w : Json} :
    ofJson w = .value v ↔ target? w = none ∧ w.canonical = v := by
  unfold ofJson
  cases target? w <;> simp

theorem canonical_of_ofJson {w : Json} (h : ofJson w = .value v) : v.canonical = v :=
  (ofJson_eq_value_iff.mp h).2 ▸ w.canonical_canonical

/-- A literal that was read from a value without repeated keys does not look like a reference. -/
theorem undisguised_of_ofJson {w : Json} (h : w.UniqueKeys) (hv : ofJson w = .value v) :
    ∀ target, ¬ Disguised v target := by
  obtain ⟨hnone, rfl⟩ := ofJson_eq_value_iff.mp hv
  intro target hd
  rw [← target?_eq_some_iff w.canonical_canonical, target?_canonical h, hnone] at hd
  cases hd

end Setting

namespace Definition

variable {d : Definition} {key : String}

/-- The literal values of a definition are canonical. -/
def Canonical (d : Definition) : Prop := ∀ key v, d.get? key = some (.value v) → v.canonical = v

/-- No literal value of a definition looks like a reference. -/
def Undisguised (d : Definition) : Prop :=
  ∀ key v, d.get? key = some (.value v) → ∀ target, ¬ Disguised v target

/-- The definition with each setting written and read again. -/
def reread (d : Definition) : Definition :=
  { d with settings := d.settings.map fun setting => Setting.ofJson setting.toJson }

theorem get?_reread : d.reread.get? key = (d.get? key).map fun setting =>
    Setting.ofJson setting.toJson := KeyMap.find?_map _ _ _

theorem ofJson?_toJson (d : Definition) : ofJson? d.toJson = some d.reread := by
  have hentries : (d.settings.map Setting.toJson).entries.map
      (fun member => (member.1, Setting.ofJson member.2)) = d.reread.settings.entries := by
    simp [KeyMap.map, reread]
  have hsettings : settingsOf? (.obj (d.settings.map Setting.toJson).entries) =
      some d.reread.settings := by
    rw [settingsOf?, hentries, KeyMap.ofList_entries]
  simp [toJson, ofJson?, Json.Field.find, Json.Field.string?, hsettings, reread]

theorem reread_eq_self_iff (h : d.Canonical) : d.reread = d ↔ d.Undisguised := by
  have hsettings : d.reread = d ↔ ∀ key, d.reread.get? key = d.get? key := by
    refine ⟨fun hr key => by rw [hr], fun hr => ?_⟩
    have hmaps : d.reread.settings = d.settings := KeyMap.ext hr
    cases d
    simpa [reread] using hmaps
  rw [hsettings]
  constructor
  · intro hr key v hv target hd
    have hkey := hr key
    rw [get?_reread, hv, Option.map_some] at hkey
    have hback := (Setting.ofJson_of_disguised (h key v hv) hd).symm.trans (Option.some.inj hkey)
    cases hback
  · intro hp key
    rw [get?_reread]
    cases hk : d.get? key with
    | none => rfl
    | some setting =>
      cases setting with
      | reference target => rw [Option.map_some, Setting.ofJson_toJson_reference]
      | value v =>
        exact congrArg some (Setting.ofJson_of_not_disguised (h key v hk) (hp key v hk))

theorem exists_of_settingsOf? {settings : KeyMap Setting} (hs : settingsOf? v = some settings)
    {setting : Setting} (hk : settings.find? key = some setting) :
    ∃ w, Setting.ofJson w = setting ∧ (v.UniqueKeys → w.UniqueKeys) := by
  unfold settingsOf? at hs
  split at hs
  · cases hs
    obtain ⟨member, hm, he⟩ := List.mem_map.mp (KeyMap.mem_of_find?_ofList hk)
    cases he
    refine ⟨member.2, rfl, fun h => ?_⟩
    cases h with
    | obj _ inner => exact inner member hm
  · cases hs

/-- Every setting of a definition is read from a value inside that of the definition. -/
theorem exists_of_ofJson? (hd : ofJson? v = some d) {setting : Setting}
    (hk : d.get? key = some setting) :
    ∃ w, Setting.ofJson w = setting ∧ (v.UniqueKeys → w.UniqueKeys) := by
  unfold ofJson? at hd
  split at hd
  · rename_i members
    obtain ⟨name, -, hd⟩ := Option.bind_eq_some_iff.mp hd
    obtain ⟨resourceType, -, hd⟩ := Option.bind_eq_some_iff.mp hd
    split at hd
    · cases hd
      cases hk
    · rename_i settings hfind
      obtain ⟨_, hs, rfl⟩ := Option.map_eq_some_iff.mp hd
      obtain ⟨w, hw, hunique⟩ := exists_of_settingsOf? hs hk
      refine ⟨w, hw, fun h => hunique ?_⟩
      cases h with
      | obj distinct inner => exact inner _ ((Json.Field.find_eq_once_iff distinct).mp hfind)
    · cases hd
  · cases hd
    cases hk
  · obtain ⟨_, hs, rfl⟩ := Option.map_eq_some_iff.mp hd
    obtain ⟨w, hw, hunique⟩ := exists_of_settingsOf? hs hk
    refine ⟨w, hw, fun h => hunique ?_⟩
    cases h with
    | arr inner => exact inner _ (by simp)
  · cases hd

/-- A definition that is read from a value without repeated keys has no disguised literal. -/
theorem undisguised_of_ofJson? (h : v.UniqueKeys) (hd : ofJson? v = some d) : d.Undisguised := by
  intro key w hk
  obtain ⟨source, hw, hunique⟩ := exists_of_ofJson? hd hk
  exact (Setting.undisguised_of_ofJson (hunique h) hw)

/-- How definitions come about: they are read, or built setting by setting. -/
inductive Made : Definition → Prop where
  | read {v : Json} {d : Definition} (h : ofJson? v = some d) : Made d
  | bare (name resourceType : String) : Made (bare name resourceType)
  | reference {d : Definition} (h : Made d) (key : String) (target : Reference) :
      Made (d.withSetting key (.reference target))
  | literal {d : Definition} (h : Made d) (key : String) (v : Json) :
      Made (d.withSetting key (.value v.canonical))

theorem Canonical.withSetting (h : d.Canonical) {setting : Setting}
    (hs : ∀ v, setting = .value v → v.canonical = v) : (d.withSetting key setting).Canonical := by
  intro other v hk
  rw [get?, Definition.withSetting, KeyMap.find?_insert] at hk
  split at hk
  · exact hs v (Option.some.inj hk)
  · exact h other v hk

theorem Made.canonical (h : Made d) : d.Canonical := by
  induction h with
  | read hd =>
    intro key v hk
    obtain ⟨w, hw, -⟩ := exists_of_ofJson? hd hk
    exact Setting.canonical_of_ofJson hw
  | bare => exact fun _ _ hk => by cases hk
  | reference _ _ _ ih => exact ih.withSetting fun _ he => by cases he
  | literal _ _ v ih =>
    refine ih.withSetting fun w he => ?_
    cases he
    exact v.canonical_canonical

/-- The JSON form of a definition is read as the definition, save that literals which look like
references become those references; it is read as the same one just if there are none. A definition
that is read from a value without repeated keys has none, so its JSON form is read as itself. -/
theorem json_round_trip :
    (∀ d, Made d → ∃ back, ofJson? d.toJson = some back ∧
      back.name = d.name ∧ back.resourceType = d.resourceType ∧
      (∀ key, d.get? key = none → back.get? key = none) ∧
      (∀ key target, d.get? key = some (.reference target) →
        back.get? key = some (.reference target)) ∧
      (∀ key v target, d.get? key = some (.value v) → Disguised v target →
        back.get? key = some (.reference target)) ∧
      (∀ key v, d.get? key = some (.value v) → (∀ target, ¬ Disguised v target) →
        back.get? key = some (.value v)) ∧
      (back = d ↔ d.Undisguised)) ∧
    ∀ (v : Json) (d : Definition), v.UniqueKeys → ofJson? v = some d →
      d.Undisguised ∧ ofJson? d.toJson = some d := by
  constructor
  · intro d hd
    have h := hd.canonical
    refine ⟨d.reread, ofJson?_toJson d, rfl, rfl, ?_, ?_, ?_, ?_, reread_eq_self_iff h⟩
    · intro key hk
      rw [get?_reread, hk, Option.map_none]
    · intro key target hk
      rw [get?_reread, hk, Option.map_some, Setting.ofJson_toJson_reference]
    · intro key v target hk hd
      rw [get?_reread, hk]
      exact congrArg some (Setting.ofJson_of_disguised (h key v hk) hd)
    · intro key v hk hd
      rw [get?_reread, hk]
      exact congrArg some (Setting.ofJson_of_not_disguised (h key v hk) hd)
  · intro v d hv hd
    have hundisguised := undisguised_of_ofJson? hv hd
    have hsame : d.reread = d := (reread_eq_self_iff (Made.read hd).canonical).mpr hundisguised
    exact ⟨hundisguised, by rw [ofJson?_toJson, hsame]⟩

/-- A machine whose subnet is given by a literal that looks like a reference. -/
def machine : Definition :=
  (bare "web" "vm").withSetting "subnet" (.value (Setting.reference ⟨"net", "id"⟩).toJson.canonical)

theorem uniqueKeys_toJson_machine : machine.toJson.UniqueKeys := by
  have hmachine : machine.toJson = .obj [("name", .str "web"),
      ("settings", .obj [("subnet", .obj [("$ref", .obj [("attr", .str "id"),
        ("resource", .str "net")])])]), ("type", .str "vm")] := by decide
  have hsingle : ∀ {key : String} {v : Json}, v.UniqueKeys → (Json.obj [(key, v)]).UniqueKeys :=
    fun h => .obj (List.nodup_singleton _) (List.forall_mem_singleton.mpr h)
  have htarget : (Json.obj [("attr", .str "id"), ("resource", .str "net")]).UniqueKeys :=
    .obj (by decide) (by simp [Json.UniqueKeys.str])
  rw [hmachine]
  refine .obj (by decide) ?_
  simp [Json.UniqueKeys.str, hsingle (hsingle htarget)]

theorem json_round_trip_machine :
    ∃ back, ofJson? machine.toJson = some back ∧ back ≠ machine ∧
      back.get? "subnet" = some (.reference ⟨"net", "id"⟩) ∧ ofJson? back.toJson = some back := by
  have hmade : Made machine := .literal (.bare "web" "vm") "subnet" _
  have hsubnet : machine.get? "subnet" =
      some (.value (.obj [("$ref", (⟨"net", "id"⟩ : Reference).toJson)])) := by decide
  have hdisguised : Disguised (.obj [("$ref", (⟨"net", "id"⟩ : Reference).toJson)]) ⟨"net", "id"⟩ :=
    ⟨_, _, rfl, List.mem_singleton_self _, Reference.ofJson?_toJson _⟩
  obtain ⟨back, hread, -, -, -, -, hback, -, hsame⟩ := json_round_trip.1 machine hmade
  refine ⟨back, hread, fun he => ?_, hback _ _ _ hsubnet hdisguised,
    (json_round_trip.2 _ back uniqueKeys_toJson_machine hread).2⟩
  exact hsame.mp he _ _ hsubnet _ hdisguised

end Definition

end DesiredState
