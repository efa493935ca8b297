import DesiredState.Proofs.Keeps
import DesiredState.Proofs.Store.Retouch
import DesiredState.Proofs.Store.Rows

/-!
# Edits of one resource

An edit changes the attributes of one resource and lets one of its keys have no text that was not
there before, save those it may have. Every row stays, and so do the attributes of everything else.
-/

namespace DesiredState.Store

open DesiredState.Action

/-- The attributes of one resource change. The key has no text that it did not have, unless the
text is allowed. -/
def Edits (i : Int) (key : String) (allowed : String → Prop) (s t : Store) : Prop :=
  ∃ f : KeyMap String → KeyMap String, t = s.retouch (only i f) ∧
    ∀ m text, (f m).find? key = some text → m.find? key = some text ∨ allowed text

variable {i : Int} {key : String} {allowed : String → Prop} {s t : Store}

instance (i : Int) (key : String) (allowed : String → Prop) :
    IsPreorder Store (Edits i key allowed) where
  refl s := ⟨id, by rw [only_id, retouch_id], fun _ _ h => Or.inl h⟩
  trans := by
    rintro s _ _ ⟨f, rfl, hf⟩ ⟨g, rfl, hg⟩
    refine ⟨fun m => g (f m), retouch_only_only s i f g, fun m text h => ?_⟩
    rcases hg (f m) text h with h | h
    · exact hf m text h
    · exact Or.inr h

theorem Edits.mono {more : String → Prop} (h : Edits i key allowed s t)
    (hmore : ∀ text, allowed text → more text) : Edits i key more s t := by
  obtain ⟨f, rfl, hf⟩ := h
  exact ⟨f, rfl, fun m text ht => (hf m text ht).imp_right (hmore text)⟩

theorem Edits.attributesOf? (h : Edits i key allowed s t) {scope : Scope}
    (hs : scope ≠ .resource i) : t.attributesOf? scope = s.attributesOf? scope := by
  obtain ⟨f, rfl, -⟩ := h
  cases scope with
  | deployment uuid =>
    simp only [Store.attributesOf?, retouch, KeyMap.find?_map, Option.map_map]
    rfl
  | resource j =>
    have hne : j ≠ i := fun he => hs (he ▸ rfl)
    rw [Store.attributesOf?, Store.attributesOf?, resourceById?_retouch, Option.map_map]
    refine Option.map_congr fun r hr => ?_
    have hid : r.id = j := by simpa using List.find?_some hr
    simp [hid, only_of_ne hne]

theorem Edits.deploymentRows (h : Edits i key allowed s t) :
    t.deploymentRows = s.deploymentRows := by
  obtain ⟨f, rfl, -⟩ := h
  simp [Store.deploymentRows, retouch, KeyMap.keys, KeyMap.map, Function.comp_def]

theorem Edits.resourceRows (h : Edits i key allowed s t) : t.resourceRows = s.resourceRows := by
  obtain ⟨f, rfl, -⟩ := h
  simp [Store.resourceRows, retouch, KeyMap.map, List.flatMap_map, List.map_map, Function.comp_def,
    StoredResource.record]

/-- An edit is a change of attributes like any other. -/
theorem Edits.rewrites (h : Edits i key allowed s t) : Rewrites (fun _ => True) s t := by
  obtain ⟨f, rfl, -⟩ := h
  have hchange : (s.changeAttributes? (.resource i) f).getD s = s.retouch (only i f) := by
    rw [changeAttributes?_eq]
    split
    · rfl
    · rename_i hnone
      have hids : ∀ r ∈ s.allResources, r.id ≠ i := by
        simpa [resourceById?, List.find?_eq_none] using hnone
      refine (retouch_eq_self.mpr fun r hr => ?_).symm
      rw [only_of_ne (hids r hr), id]
  rw [← hchange]
  exact rewrites_of_change (.resource i) (fun _ _ _ _ => Or.inr trivial) s

/-- A text at the key was there before or is allowed. -/
theorem Edits.textOf? (h : Edits i key allowed s t) {text : String}
    (ht : t.textOf? (.resource i) key = some text) :
    s.textOf? (.resource i) key = some text ∨ allowed text := by
  obtain ⟨f, rfl, hf⟩ := h
  unfold Store.textOf? attributesOf at ht ⊢
  rw [Store.attributesOf?, resourceById?_retouch, Option.map_map] at ht
  rw [Store.attributesOf?]
  cases hr : s.resourceById? i with
  | none =>
    rw [hr] at ht
    cases ht
  | some r =>
    have hid : r.id = i := by simpa using List.find?_some hr
    rw [hr] at ht
    simp only [Option.map_some, Option.getD_some, Function.comp_apply, hid, only,
      Function.update_self] at ht ⊢
    exact hf r.attributes text ht

theorem edits_of_change {f : KeyMap String → KeyMap String}
    (hf : ∀ m text, (f m).find? key = some text → m.find? key = some text ∨ allowed text)
    (s : Store) : Edits i key allowed s ((s.changeAttributes? (.resource i) f).getD s) := by
  rw [changeAttributes?_eq]
  split
  · exact ⟨f, rfl, hf⟩
  · exact refl_of (Edits i key allowed) s

theorem put_edits {other text : String} (h : other = key → allowed text) :
    Keeps (Edits i key allowed) (put (.resource i) other text) := by
  refine put_keeps_of_change fun s => edits_of_change (fun m found hfound => ?_) s
  rw [KeyMap.find?_insert] at hfound
  split at hfound
  · rename_i hkey
    exact Or.inr (Option.some.inj hfound ▸ h hkey.symm)
  · exact Or.inl hfound

theorem delete_edits (other : String) :
    Keeps (Edits i key allowed) (delete (.resource i) other) := by
  refine keeps_update fun s => edits_of_change (fun m text h => ?_) s
  rw [KeyMap.find?_erase] at h
  split at h
  · cases h
  · exact Or.inl h

theorem set_edits {other : String} {v : Json} (h : other = key → allowed v.render) :
    Keeps (Edits i key allowed) (set (.resource i) other v) := by
  unfold set
  split
  · exact delete_edits other
  · exact put_edits h

theorem setEach_edits {values : List (String × Json)}
    (h : ∀ entry ∈ values, entry.1 = key → allowed entry.2.render) :
    Keeps (Edits i key allowed) (setEach (.resource i) values) :=
  keeps_forEach fun entry he => set_edits (h entry he)

end DesiredState.Store
