import DesiredState.Proofs.Json.RoundTrip

/-!
# Texts of null

A text that denotes `null` consists of the letters of that word and of blanks. Every other value has
another character in its text, except a double that is not finite: for it there is no number.
-/

namespace DesiredState.Json

/-- Whether there is a text for the value. A double on its own must be finite. -/
def writable : Json → Bool
  | .num (.float x) => (Decimal.Binary.ofFloat? x).isSome
  | _ => true

def nullLetters : List Char := [' ', '\n', '\r', '\t', 'n', 'u', 'l']

theorem mem_nullLetters_of_isBlank {c : Char} (h : isBlank c = true) : c ∈ nullLetters := by
  simp only [isBlank, Bool.or_eq_true, decide_eq_true_eq] at h
  rcases h with ((rfl | rfl) | rfl) | rfl <;> decide

/-- What is skipped is blank. -/
theorem mem_nullLetters_of_skipBlank {text rest : List Char} (h : skipBlank text = rest)
    (hrest : ∀ c ∈ rest, c ∈ nullLetters) : ∀ c ∈ text, c ∈ nullLetters := by
  intro c hc
  rw [← List.takeWhile_append_dropWhile (p := isBlank) (l := text), List.mem_append] at hc
  rcases hc with hc | hc
  · exact mem_nullLetters_of_isBlank (List.all_eq_true.mp List.all_takeWhile c hc)
  · exact hrest c (h ▸ hc)

/-- Only the word is read as `null`. -/
theorem skipBlank_of_readDocument?_null {fuel : Nat} {text rest : List Char}
    (h : readDocument? fuel text = some (.null, rest)) :
    skipBlank text = 'n' :: 'u' :: 'l' :: 'l' :: rest := by
  cases fuel with
  | zero => cases h
  | succ fuel =>
    rw [readDocument?] at h
    split at h
    case h_1 htext =>
      cases h
      exact htext
    case h_5 =>
      split at h
      · cases h
      · obtain ⟨_, -, hnot⟩ := Option.map_eq_some_iff.mp h
        cases hnot
    case h_6 =>
      split at h
      · cases h
      · obtain ⟨_, -, hnot⟩ := Option.map_eq_some_iff.mp h
        cases hnot
    all_goals first
      | cases h
      | obtain ⟨_, -, hnot⟩ := Option.map_eq_some_iff.mp h
        cases hnot

/-- No other structure has the value `null`. -/
theorem eq_null_of_value? {levels : Nat} {document : Document}
    (h : document.value? levels = some .null) : document = .null := by
  cases document with
  | null => rfl
  | bool b => cases levels <;> cases h
  | number l =>
    have hvalue : l.value?.map Json.num = some .null := by cases levels <;> exact h
    obtain ⟨_, -, hnot⟩ := Option.map_eq_some_iff.mp hvalue
    cases hnot
  | string pieces =>
    have hvalue : (stringOf? pieces).map Json.str = some .null := by cases levels <;> exact h
    obtain ⟨_, -, hnot⟩ := Option.map_eq_some_iff.mp hvalue
    cases hnot
  | array items =>
    cases levels with
    | zero => cases h
    | succ levels =>
      obtain ⟨_, -, hnot⟩ := Option.map_eq_some_iff.mp h
      cases hnot
  | object members =>
    cases levels with
    | zero => cases h
    | succ levels =>
      obtain ⟨_, -, hnot⟩ := Option.map_eq_some_iff.mp h
      cases hnot

theorem eq_null_of_canonical {v : Json} (h : v.canonical = .null) : v = .null := by
  cases v <;> simp_all [canonical]

theorem mem_nullLetters_of_decode {text : String} (h : decode text = .ok .null) :
    ∀ c ∈ text.toList, c ∈ nullLetters := by
  unfold decode parse? parseAsWritten? Document.ofText? Document.ofChars? at h
  split at h
  · rename_i v hv
    obtain rfl := Except.ok.inj h
    obtain ⟨written, hwritten, hnull⟩ := Option.map_eq_some_iff.mp hv
    obtain ⟨document, hdocument, hvalue⟩ := Option.bind_eq_some_iff.mp hwritten
    rw [eq_null_of_canonical hnull] at hvalue
    obtain rfl := eq_null_of_value? hvalue
    split at hdocument
    · rename_i found rest hread
      split at hdocument
      · rename_i hend
        cases hdocument
        refine mem_nullLetters_of_skipBlank (skipBlank_of_readDocument?_null hread) ?_
        have hrest := mem_nullLetters_of_skipBlank (List.isEmpty_iff.mp hend)
          fun c hc => absurd hc List.not_mem_nil
        simp only [List.forall_mem_cons]
        exact ⟨by decide, by decide, by decide, by decide, hrest⟩
      · cases hdocument
    · cases hdocument
  · cases h

theorem not_mem_nullLetters_of_start {c : Char} (h : c = '-' ∨ c.isDigit = true) :
    c ∉ nullLetters := by
  intro hc
  simp only [nullLetters, List.mem_cons, List.not_mem_nil, or_false] at hc
  rcases hc with rfl | rfl | rfl | rfl | rfl | rfl | rfl <;> simp at h

/-- Digits are laid out with a point or an exponent in any case. -/
theorem exists_mem_layoutDigits (layout : Layout) (d : Decimal.Digits) :
    ∃ c ∈ layoutDigits layout d, c = '.' ∨ c = 'e' := by
  unfold layoutDigits
  simp only
  split
  · exact ⟨'.', by simp, Or.inl rfl⟩
  split
  · exact ⟨'.', by simp, Or.inl rfl⟩
  split
  · exact ⟨'.', by simp, Or.inl rfl⟩
  · exact ⟨'e', by simp [exponentChars], Or.inr rfl⟩

theorem exists_mem_floatChars {x : Float} (h : (Decimal.Binary.ofFloat? x).isSome) :
    ∃ c ∈ floatChars x, c = '.' ∨ c = 'e' := by
  obtain ⟨b, hb⟩ := Option.isSome_iff_exists.mp h
  have hsize : ∃ c ∈ if b.significand = 0 then ['0', '.', '0'] else layoutDigits layout b.shortest,
      c = '.' ∨ c = 'e' := by
    split
    · exact ⟨'.', by simp, Or.inl rfl⟩
    · exact exists_mem_layoutDigits layout b.shortest
  obtain ⟨c, hc, hpoint⟩ := hsize
  refine ⟨c, ?_, hpoint⟩
  rw [floatChars, hb]
  exact List.mem_append_right _ hc

theorem exists_not_mem_nullLetters {v : Json} (hv : v.isNull = false) (hw : v.writable = true) :
    ∃ c ∈ v.chars, c ∉ nullLetters := by
  rcases v with _ | b | n | s | items | members
  · cases hv
  · cases b
    · exact ⟨'f', by simp [chars], by decide⟩
    · exact ⟨'t', by simp [chars], by decide⟩
  · cases n with
    | int i =>
      obtain ⟨c, rest, hc, hstart⟩ := intChars_eq_cons i
      exact ⟨c, by simp [chars, Number.chars, hc], not_mem_nullLetters_of_start hstart⟩
    | float x =>
      obtain ⟨c, hc, rfl | rfl⟩ := exists_mem_floatChars hw
      · exact ⟨'.', hc, by decide⟩
      · exact ⟨'e', hc, by decide⟩
  · exact ⟨'"', by simp [chars, stringChars], by decide⟩
  · exact ⟨'[', by cases items <;> simp [chars], by decide⟩
  · exact ⟨'\x7b', by cases members <;> simp [chars], by decide⟩

/-- The text of a value other than `null` does not denote `null`. -/
theorem decode_render_ne_null {v : Json} (hv : v.isNull = false) (hw : v.writable = true) :
    decode v.render ≠ .ok .null := by
  intro h
  obtain ⟨c, hc, hnot⟩ := exists_not_mem_nullLetters hv hw
  exact hnot (mem_nullLetters_of_decode h c (by rwa [render, String.toList_ofList]))

end DesiredState.Json
