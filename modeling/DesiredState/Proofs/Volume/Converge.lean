import DesiredState.Proofs.Volume.InSync

/-!
# Passes that end well

A pass that ends well leaves the volume up and every key in sync, except for the attachment of a
volume that was moved while its attachment was in sync. That is followed handler by handler: each
one brings its key in sync and leaves the others as they are.
-/

namespace DesiredState.Volume

/-- The definition moves a volume to another region and wants it attached as it is recorded. -/
def Entry.Uprooted (e : Entry) (d : Definition) : Prop := ∃ placement target,
  e.placement = some placement ∧ d.string? "region" ≠ some placement.region ∧
    placement.attachedTo = some target ∧ d.string? "attachedTo" = some target

/-- How far handlers have come in a pass that started with the entry `e₀`, while the handlers of
some keys are left to run. -/
structure Advanced (d : Definition) (e₀ : Entry) (left : String → Prop) (e : Entry) : Prop where
  region : e.InSync d "region"
  others : ∀ key ∈ ["size", "tags"], ¬ left key → e.InSync d key
  attached : ¬ left "attachedTo" → (e.InSync d "attachedTo" ↔ ¬ e₀.Uprooted d)
  /-- The time of the creation can be read back. -/
  dated : ∃ v, Store.denoted (e.text? State.creationTimeKey) = .ok v

variable {d : Definition} {e₀ e e' : Entry} {left : String → Prop} {key : String}
  {consent : Consent} {now : Nat} {p q : Site}

theorem not_uprooted_of_inSync (hd : Asks d) (h : e.InSync d "region") : ¬ e.Uprooted d := by
  rintro ⟨placement, -, hp, hne, -⟩
  obtain ⟨region, hr⟩ := Option.isSome_iff_exists.mp hd.region
  have hregion := (inSync_region_iff hr).mp h
  rw [hp, Option.map_some, ← hr] at hregion
  exact hne hregion.symm

/-- A volume that is to be moved is uprooted just if its attachment is there and in sync. -/
theorem uprooted_iff_of_inSync (hd : Asks d) (ha : e.InSync d "attachedTo")
    (hr : ¬ e.InSync d "region") : e.Uprooted d ↔ d.string? "attachedTo" ≠ none := by
  obtain ⟨region, hregion⟩ := Option.isSome_iff_exists.mp hd.region
  rw [inSync_attachedTo_iff hd] at ha
  rw [inSync_region_iff hregion] at hr
  cases hp : e.placement with
  | none =>
    rw [hp] at ha
    rw [← ha]
    simp [Entry.Uprooted, hp]
  | some placement =>
    rw [hp] at ha hr
    rw [Option.map_some, ← hregion] at hr
    rw [Option.bind_some] at ha
    rw [Option.ne_none_iff_exists']
    constructor
    · rintro ⟨-, target, -, -, -, ht⟩
      exact ⟨target, ht⟩
    · rintro ⟨target, ht⟩
      exact ⟨placement, target, hp, fun he => hr he.symm, ha.trans ht, ht⟩

/-- Only the status changed since the pass began. -/
theorem advanced_begun (hd : Asks d) (h : ∀ key ∉ State.reservedKeys, ¬ left key → e.InSync d key)
    (hregion : ¬ left "region")
    (hdated : ∃ v, Store.denoted (e.text? State.creationTimeKey) = .ok v)
    (hp : e'.placement = e.placement) : Advanced d e left e' where
  region := (inSync_congr (Entry.text?_congr hp (by decide))).mpr (h _ (by decide) hregion)
  others := by
    intro key hk hleft
    have hr : key ∉ State.reservedKeys := by
      simp only [List.mem_cons, List.not_mem_nil, or_false] at hk
      rcases hk with rfl | rfl <;> decide
    have hs : key ≠ State.statusKey := fun he => hr (he ▸ by decide)
    exact (inSync_congr (Entry.text?_congr hp hs)).mpr (h key hr hleft)
  attached := by
    intro hleft
    refine iff_of_true ?_ (not_uprooted_of_inSync hd (h _ (by decide) hregion))
    exact (inSync_congr (Entry.text?_congr hp (by decide))).mpr (h _ (by decide) hleft)
  dated := by rwa [Entry.text?_congr hp (by decide)]

/-- A new volume is in sync but for its attachment. -/
theorem advanced_new (hd : Asks d) {status : Option Status} {id region : String}
    (hr : d.string? "region" = some region) (hold : ¬ e₀.InSync d "region")
    (hleft : ¬ left "attachedTo" → e₀.InSync d "attachedTo") (hnow : now < Word.size 64) :
    Advanced d e₀ left ⟨status, some (newPlacement d id now region)⟩ where
  region := (inSync_region_iff hr).mpr rfl
  others := by
    intro key hk _
    simp only [List.mem_cons, List.not_mem_nil, or_false] at hk
    rcases hk with rfl | rfl
    · exact inSync_size hd rfl rfl
    · exact inSync_tags hd rfl rfl
  attached := by
    intro hl
    rw [inSync_attachedTo_iff hd, uprooted_iff_of_inSync hd (hleft hl) hold, not_not]
    exact eq_comm
  dated := by
    have hwords : Json.InWords (now : Int) := by
      have hlow : Word.least 63 ≤ 0 := by decide
      exact ⟨by omega, by exact_mod_cast hnow⟩
    refine ⟨some (.ofInt now), ?_⟩
    rw [Entry.text?_creationTime]
    exact congrArg (Except.map some) (decodeText_ofInt hwords)

/-- A handler other than that of the region brings its key in sync and leaves the others. -/
theorem Advanced.handle (h : Advanced d e₀ left e) (hkey : key ∈ ["size", "tags", "attachedTo"])
    (hframe : ∀ other ≠ key, e'.text? other = e.text? other) (hdone : e'.InSync d key)
    (hroot : key = "attachedTo" → ¬ e₀.Uprooted d) :
    Advanced d e₀ (fun other => left other ∧ other ≠ key) e' where
  region := by
    refine (inSync_congr (hframe _ ?_)).mpr h.region
    rintro rfl
    revert hkey
    decide
  others := by
    intro other ho hleft
    by_cases he : other = key
    · rwa [he]
    · exact (inSync_congr (hframe other he)).mpr (h.others other ho fun hl => hleft ⟨hl, he⟩)
  attached := by
    intro hleft
    by_cases he : "attachedTo" = key
    · exact iff_of_true (he ▸ hdone) (hroot he.symm)
    · rw [inSync_congr (hframe _ he)]
      exact h.attached fun hl => hleft ⟨hl, he⟩
  dated := by
    rw [hframe _ ?_]
    · exact h.dated
    · rintro rfl
      revert hkey
      decide

/-- Keys may be said to be left to run. -/
theorem Advanced.weaken {left' : String → Prop} (h : Advanced d e₀ left e)
    (hleft : ∀ key ∈ ["size", "tags", "attachedTo"], left key → left' key) :
    Advanced d e₀ left' e where
  region := h.region
  others := by
    intro key hk hl
    refine h.others key hk fun hl' => hl (hleft key ?_ hl')
    simp only [List.mem_cons, List.not_mem_nil, or_false] at hk ⊢
    tauto
  attached hl := h.attached fun hl' => hl (hleft _ (by decide) hl')
  dated := h.dated

/-- A handler that has nothing to do is passed over. -/
theorem Advanced.skip (h : Advanced d e₀ left e) (hkey : ¬ left key) :
    Advanced d e₀ (fun other => left other ∧ other ≠ key) e :=
  h.weaken fun _ _ hl => ⟨hl, fun he => hkey (he ▸ hl)⟩

/-- The status has no part in what is in sync. -/
theorem Advanced.congr (h : Advanced d e₀ left e) (hp : e'.placement = e.placement) :
    Advanced d e₀ left e' where
  region := (inSync_congr (Entry.text?_congr hp (by decide))).mpr h.region
  others := by
    intro key hk hl
    have hs : key ≠ State.statusKey := by
      rintro rfl
      revert hk
      decide
    exact (inSync_congr (Entry.text?_congr hp hs)).mpr (h.others key hk hl)
  attached hl := (inSync_congr (Entry.text?_congr hp (by decide))).trans (h.attached hl)
  dated := by
    rw [Entry.text?_congr hp (by decide)]
    exact h.dated

theorem inSync_of_uprooted (hd : Asks d) (h : e.Uprooted d) : e.InSync d "attachedTo" := by
  obtain ⟨placement, target, hp, -, ha, ht⟩ := h
  rw [inSync_attachedTo_iff hd, hp, Option.bind_some, ha, ht]

/-- After a pass that ended well the whole record can be read. -/
theorem Advanced.denoted (h : Advanced d e₀ (fun _ => False) e) (key : String) :
    ∃ v, Store.denoted (e.text? key) = .ok v := by
  by_cases hs : key = State.statusKey
  · subst key
    rw [e.text?_status]
    cases e.status with
    | none => exact ⟨none, rfl⟩
    | some status =>
      refine ⟨some (.ofInt status.ordinal), ?_⟩
      exact congrArg (Except.map some) (decodeText_ofInt (fits_ordinal status).inWords)
  by_cases hi : key = State.resourceIdKey
  · subst key
    rw [e.text?_resourceId]
    cases e.placement with
    | none => exact ⟨none, rfl⟩
    | some placement =>
      exact ⟨some (.str placement.id), congrArg (Except.map some) (decodeText_str placement.id)⟩
  by_cases ht : key = State.creationTimeKey
  · subst key
    exact h.dated
  by_cases ho : key ∈ ownedKeys
  · simp only [ownedKeys, List.mem_cons, List.not_mem_nil, or_false] at ho
    rcases ho with rfl | rfl | rfl | rfl
    · exact ⟨_, h.region⟩
    · exact ⟨_, h.others _ (by decide) not_false⟩
    · exact ⟨_, h.others _ (by decide) not_false⟩
    · exact ⟨_, by rw [e.text?_attachedTo, denoted_target]⟩
  · rw [e.text?_other hs hi ht ho]
    exact ⟨none, rfl⟩

/-- What a pass that ended well left in sync. -/
theorem Advanced.inSync (h : Advanced d e₀ (fun _ => False) e) (hd : Asks d)
    (hroot : ¬ e₀.Uprooted d) {key : String} (hr : key ∉ State.reservedKeys) :
    e.InSync d key := by
  by_cases ho : key ∈ ownedKeys
  · simp only [ownedKeys, List.mem_cons, List.not_mem_nil, or_false] at ho
    rcases ho with rfl | rfl | rfl | rfl
    · exact h.region
    · exact h.others _ (by decide) not_false
    · exact h.others _ (by decide) not_false
    · exact (h.attached not_false).mpr hroot
  · exact inSync_other hd hr ho

theorem advanced_provisioned (hd : Asks d) (hp : p.entry.placement = e₀.placement)
    (hold : ¬ e₀.InSync d "region") (hleft : ¬ left "attachedTo" → e₀.InSync d "attachedTo")
    (hnow : now < Word.size 64) (hq : Provisioned d consent now p q) :
    Advanced d e₀ left q.entry := by
  cases hq with
  | kept hpl hr =>
    refine absurd ((inSync_region_iff hr).mpr ?_) hold
    rw [← hp, hpl]
    rfl
  | created _ hr => exact advanced_new hd hr hold hleft hnow
  | moved _ hr => exact advanced_new hd hr hold hleft hnow

theorem Advanced.resized (h : Advanced d e₀ left p.entry) (hd : Asks d) (hq : Resized d p q) :
    Advanced d e₀ (fun other => left other ∧ other ≠ "size") q.entry := by
  have hnot : "size" = "attachedTo" → ¬ e₀.Uprooted d := fun he => absurd he (by decide)
  cases hq with
  | dropped hp hw =>
    exact h.handle (by decide) (fun _ ho => text?_of_update (Entry.update_size hp none) ho)
      (inSync_size hd rfl hw.symm) hnot
  | kept hp hw hs =>
    exact h.handle (by decide) (fun _ _ => rfl) (inSync_size hd hp (hs.trans hw.symm)) hnot
  | grown hp hw =>
    exact h.handle (by decide) (fun _ ho => text?_of_update (Entry.update_size hp (some _)) ho)
      (inSync_size hd rfl hw.symm) hnot

theorem Advanced.tagged (h : Advanced d e₀ left p.entry) (hd : Asks d) (hq : Tagged d p q) :
    Advanced d e₀ (fun other => left other ∧ other ≠ "tags") q.entry := by
  obtain ⟨hp, -⟩ := hq
  exact h.handle (by decide) (fun _ ho => text?_of_update (Entry.update_tags hp _) ho)
    (inSync_tags hd rfl rfl) fun he => absurd he (by decide)

theorem Asks.target (hd : Asks d) {target : Option String}
    (ht : Targets (d.get? "attachedTo") target) : target = d.string? "attachedTo" := by
  rw [Definition.string?, Definition.value?]
  cases hs : d.get? "attachedTo" with
  | none =>
    rw [hs] at ht
    exact ht
  | some setting =>
    cases setting with
    | reference other => exact (hd.takes (by decide) hs).2.elim
    | value v =>
      rw [hs] at ht
      exact ht

theorem Advanced.attach (h : Advanced d e₀ left p.entry) (hd : Asks d) (hq : Attached d p q)
    (hroot : ¬ e₀.Uprooted d) :
    Advanced d e₀ (fun other => left other ∧ other ≠ "attachedTo") q.entry := by
  obtain ⟨hp, -, ht⟩ := hq
  refine h.handle (by decide) (fun _ ho => text?_of_update (Entry.update_attachedTo hp _) ho) ?_
    fun _ => hroot
  exact (inSync_attachedTo_iff hd).mpr (hd.target ht)

variable {r : ResourceRecord} {w₀ : World Cloud} {others : String → Prop}
  {background : String → Option Live}

/-- The handlers of a plan bring every key in sync. -/
theorem handlers_advance (hd : Asks d) (hnow : w₀.now < Word.size 64) {diff : Diff}
    {plan : Plan (Handling Cloud)} (hdiff : Differs p.entry d diff)
    (hplan : (resource r).planFor diff = .ok plan) :
    Leads r w₀ (Action.forEach ((resource r).runHandler d consent) plan.handlers) p.begun
      (fun _ q => Advanced d p.entry (fun _ => False) q.entry) fun _ => True := by
  have hchanged : ∀ {key}, key ∉ State.reservedKeys → key ∉ diff.changedKeys →
      p.entry.InSync d key := by
    intro key hr hk
    rw [mem_changedKeys_iff_not_inSync hd hdiff] at hk
    exact not_not.mp fun hsync => hk ⟨hr, hsync⟩
  have hdated : ∃ v, Store.denoted (p.entry.text? State.creationTimeKey) = .ok v := by
    obtain ⟨current, -, hlook, -⟩ := hdiff
    exact ⟨_, hlook _⟩
  rw [handlers_of_planFor hplan]
  -- A handler that is passed over had its key in sync from the beginning, so after each stage
  -- only the keys of later handlers can be out of sync.
  refine leads_filter (I := fun q => Advanced d p.entry (· ∈ diff.changedKeys) q.entry)
    (fun hrun => runHandler_leads ?_) (fun hskip => ?_) fun q₁ h₁ => ?_
  · have hold := ((mem_changedKeys_iff_not_inSync hd hdiff).mp (any_contains_iff.mp hrun)).2
    exact provision_leads.mono (fun _ _ hq => advanced_provisioned hd p.begun_placement hold
      (hchanged (by decide)) hnow hq) fun _ _ => trivial
  · exact advanced_begun hd (fun _ => hchanged) (not_mem_of_any_contains hskip) hdated
      p.begun_placement
  refine leads_filter
    (I := fun q => Advanced d p.entry (fun key => key ∈ diff.changedKeys ∧ key ≠ "size") q.entry)
    (fun _ => runHandler_leads ?_) (fun hskip => ?_) fun q₂ h₂ => ?_
  · exact resize_leads.mono (fun _ _ hq => h₁.resized hd hq) fun _ _ => trivial
  · exact h₁.skip (not_mem_of_any_contains hskip)
  refine leads_filter
    (I := fun q => Advanced d p.entry
      (fun key => (key ∈ diff.changedKeys ∧ key ≠ "size") ∧ key ≠ "tags") q.entry)
    (fun _ => runHandler_leads ?_) (fun hskip => ?_) fun q₃ h₃ => ?_
  · exact (tag_leads consent).mono (fun _ _ hq => h₂.tagged hd hq) fun _ _ => trivial
  · exact h₂.skip fun hl => not_mem_of_any_contains hskip hl.1
  refine leads_filter
    (I := fun q => Advanced d p.entry (fun key =>
      ((key ∈ diff.changedKeys ∧ key ≠ "size") ∧ key ≠ "tags") ∧ key ≠ "attachedTo") q.entry)
    (fun hrun => runHandler_leads ?_) (fun hskip => ?_) fun q₄ h₄ => leads_pure ?_
  · have hold := ((mem_changedKeys_iff_not_inSync hd hdiff).mp (any_contains_iff.mp hrun)).2
    exact (attach_leads consent).mono (fun _ _ hq => h₃.attach hd hq
      fun hroot => hold (inSync_of_uprooted hd hroot)) fun _ _ => trivial
  · exact h₃.skip fun hl => not_mem_of_any_contains hskip hl.1.1
  · refine h₄.weaken fun key hk hl => ?_
    simp only [List.mem_cons, List.not_mem_nil, or_false] at hk
    tauto

/-- A pass that ends well leaves the volume up and in sync, if it was not uprooted. -/
theorem create_advances {options : PassOptions} (hd : Asks d) (hnow : w₀.now < Word.size 64)
    (h : Sound True others background p) :
    Leads r w₀ ((resource r).create d options) p
      (fun _ q => q.entry.state = .up ∧ Advanced d p.entry (fun _ => False) q.entry)
      fun _ => True := by
  refine create_leads (fun _ => h.agrees) trivial fun q hq _ => ?_
  obtain rfl := h.eq_of_checked hq
  refine pass_leads (J := fun q' => Advanced d q.entry (fun _ => False) q'.entry) trivial
    (fun diff plan hdiff hplan hnil => ?_) (fun _ _ => handlers_advance hd hnow)
    fun _ _ q' _ hq' => ⟨rfl, hq'.congr rfl⟩
  have hsync : ∀ key ∉ State.reservedKeys, q.entry.InSync d key := fun key hr => by
    have hiff : key ∈ diff.changedKeys ↔ key ∉ State.reservedKeys ∧ ¬ q.entry.InSync d key :=
      mem_changedKeys_iff_not_inSync hd hdiff
    rw [Plan.changedKeys_of_make hplan hnil] at hiff
    exact not_not.mp fun hnot => List.not_mem_nil (hiff.mpr ⟨hr, hnot⟩)
  have hplaced : q.entry.placement.isSome := by
    obtain ⟨region, hr⟩ := Option.isSome_iff_exists.mp hd.region
    have hregion := (inSync_region_iff hr).mp (hsync _ (by decide))
    exact Option.isSome_map.symm.trans (by rw [hregion]; rfl)
  have hdated : ∃ v, Store.denoted (q.entry.text? State.creationTimeKey) = .ok v := by
    obtain ⟨current, -, hlook, -⟩ := hdiff
    exact ⟨_, hlook _⟩
  unfold Site.settled
  split
  · exact ⟨rfl, advanced_begun hd (fun key hr _ => hsync key hr) not_false hdated rfl⟩
  · rename_i hnot
    exact ⟨not_not.mp fun hup => hnot ⟨hplaced, hup⟩,
      advanced_begun hd (fun key hr _ => hsync key hr) not_false hdated rfl⟩

end DesiredState.Volume
