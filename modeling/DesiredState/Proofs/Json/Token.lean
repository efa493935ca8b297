import DesiredState.Json.Document
import DesiredState.Json.Printer

/-!
# Numbers and strings read back

What is written for a whole number within its words, or for a text, reads back as that number or
that text. A number is read back only where nothing follows that would go on with it.
-/

namespace DesiredState.Json

/-- Nothing that follows belongs to a number in front. -/
def Stops (rest : List Char) : Prop :=
  ∀ c ∈ rest.head?, c.isDigit = false ∧ c ≠ '.' ∧ c ≠ 'e' ∧ c ≠ 'E'

def digitValue (c : Char) : Nat := c.toNat - '0'.toNat

theorem stops_nil : Stops [] := by
  intro c hc
  cases hc

theorem stops_cons {c : Char} {rest : List Char}
    (h : c.isDigit = false ∧ c ≠ '.' ∧ c ≠ 'e' ∧ c ≠ 'E') : Stops (c :: rest) := by
  intro d hd
  cases hd
  exact h

theorem readDigits_append {digits rest : List Char} (hd : ∀ c ∈ digits, c.isDigit = true)
    (hr : Stops rest) : readDigits (digits ++ rest) = (digits.map digitValue, rest) := by
  induction digits with
  | nil =>
    cases rest with
    | nil => rfl
    | cons c rest => simp [readDigits, digit?, (hr c rfl).1]
  | cons c digits ih =>
    have hc := hd c List.mem_cons_self
    have htail := ih fun d hm => hd d (List.mem_cons_of_mem _ hm)
    simp [readDigits, digit?, hc, htail, digitValue]

theorem le_ofDigitChars (cs : List Char) (n : Nat) : n ≤ Nat.ofDigitChars 10 cs n := by
  induction cs generalizing n with
  | nil => exact Nat.le_of_eq Nat.ofDigitChars_nil.symm
  | cons c cs ih =>
    rw [Nat.ofDigitChars_cons]
    have := ih (10 * n + (c.toNat - '0'.toNat))
    omega

/-- Digits of a number below `2 ^ 64` are all taken. -/
theorem takeDigits_map_digitValue {cs : List Char} {n : Nat}
    (h : Nat.ofDigitChars 10 cs n < Word.size 64) :
    takeDigits n (cs.map digitValue) = (Nat.ofDigitChars 10 cs n, []) := by
  induction cs generalizing n with
  | nil => simp [takeDigits, Nat.ofDigitChars_nil]
  | cons c cs ih =>
    rw [Nat.ofDigitChars_cons] at h ⊢
    have hle := le_ofDigitChars cs (10 * n + (c.toNat - '0'.toNat))
    have hlt : 10 * n + digitValue c < Word.size 64 := by unfold digitValue; omega
    rw [List.map_cons, takeDigits, if_pos hlt]
    exact ih h

/-- Only the digits of zero start with a zero. -/
theorem toDigits_head_ne_zero {n : Nat} (h : 0 < n) :
    ∃ d rest, Nat.toDigits 10 n = d :: rest ∧ d ≠ '0' ∧ d.isDigit = true := by
  induction n using Nat.strongRecOn with
  | ind n ih =>
    by_cases hn : n < 10
    · refine ⟨n.digitChar, [], Nat.toDigits_of_lt_base hn, ?_, by simpa using hn⟩
      simpa using Nat.ne_of_gt h
    · obtain ⟨d, rest, hd, hne, hdigit⟩ := ih (n / 10) (by omega) (by omega)
      refine ⟨d, rest ++ [(n % 10).digitChar], ?_, hne, hdigit⟩
      rw [Nat.toDigits_of_base_le (by omega) (by omega), hd]
      rfl

/-- The digits of a number start with a digit, and with a zero only if there is no other. -/
theorem toDigits_eq_cons (n : Nat) :
    ∃ d rest, Nat.toDigits 10 n = d :: rest ∧ d.isDigit = true ∧ (d = '0' → rest = []) := by
  by_cases h : 0 < n
  · obtain ⟨d, rest, hd, hne, hdigit⟩ := toDigits_head_ne_zero h
    exact ⟨d, rest, hd, hdigit, fun he => absurd he hne⟩
  · obtain rfl : n = 0 := by omega
    exact ⟨'0', [], by simp, by decide, fun _ => rfl⟩

theorem digitValue_eq_zero {c : Char} (hd : c.isDigit = true) (h : digitValue c = 0) :
    c = '0' := by
  have hc := Char.isDigit_iff_toNat.mp hd
  have hn : c.toNat = '0'.toNat := by
    unfold digitValue at h
    omega
  exact Char.toNat_inj.mp hn

/-- A literal without point and exponent, its sign apart. -/
theorem readLiteral?_toDigits (n : Nat) {rest : List Char} (hr : Stops rest) (negative : Bool) :
    readLiteral? ((if negative then ['-'] else []) ++ (Nat.toDigits 10 n ++ rest)) =
      some (⟨negative, (Nat.toDigits 10 n).map digitValue, none, none⟩, rest) := by
  have hdigits := readDigits_append
    (fun c hc => Nat.isDigit_of_mem_toDigits (b := 10) (n := n) (by omega) (by omega) hc) hr
  obtain ⟨d, tail, hd, hdigit, hzero⟩ := toDigits_eq_cons n
  have hminus : d ≠ '-' := by
    rintro rfl
    cases hdigit
  have hfraction : readFraction? rest = some (none, rest) := by
    unfold readFraction?
    split
    · exact absurd rfl (hr _ rfl).2.1
    · rfl
  have hexponent : readExponent? rest = some (none, rest) := by
    unfold readExponent?
    cases rest with
    | nil => rfl
    | cons c rest => simp [(hr c rfl).2.2.1, (hr c rfl).2.2.2]
  rw [hd] at hdigits ⊢
  unfold readLiteral?
  cases tail with
  | nil => cases negative <;> simp_all
  | cons e tail =>
    have hne : digitValue d ≠ 0 := fun h0 => by
      cases hzero (digitValue_eq_zero hdigit h0)
    cases negative <;> simp_all

/-- Whole numbers that fit in a signed or an unsigned word of 64 bits. -/
def InWords (i : Int) : Prop := Word.least 63 ≤ i ∧ i < Word.size 64

instance (i : Int) : Decidable (InWords i) := by unfold InWords; infer_instance

/-- A whole number within its words reads back. -/
theorem readLiteral?_intChars {i : Int} (hi : InWords i) {rest : List Char} (hr : Stops rest) :
    ∃ l, readLiteral? (intChars i ++ rest) = some (l, rest) ∧ l.value? = some (.int i) := by
  have h63 : Word.size 64 = 2 * Word.size 63 := by decide
  have hpos : 0 < Word.size 63 := by decide
  obtain ⟨hlow, hhigh⟩ := hi
  unfold Word.least at hlow
  by_cases hneg : i < 0
  · have hread := readLiteral?_toDigits i.natAbs hr true
    refine ⟨_, by simpa [intChars, hneg] using hread, ?_⟩
    have htake := @takeDigits_map_digitValue (Nat.toDigits 10 i.natAbs) 0
      (by rw [Nat.ofDigitChars_ten_toDigits]; omega)
    rw [Nat.ofDigitChars_ten_toDigits] at htake
    have hin : 0 < i.natAbs ∧ i.natAbs ≤ Word.size 63 := by omega
    have habs : -(i.natAbs : Int) = i := by omega
    simp only [Literal.value?, htake, ne_eq, not_true_eq_false, if_false, if_pos hin, habs]
  · have hread := readLiteral?_toDigits i.toNat hr false
    refine ⟨_, by simpa [intChars, hneg] using hread, ?_⟩
    have htake := @takeDigits_map_digitValue (Nat.toDigits 10 i.toNat) 0
      (by rw [Nat.ofDigitChars_ten_toDigits]; omega)
    rw [Nat.ofDigitChars_ten_toDigits] at htake
    have hnat : (i.toNat : Int) = i := by omega
    simp [Literal.value?, htake, hnat]

theorem hexValue?_hexChar {n : Nat} (h : n < 16) : Text.hexValue? (hexChar n) = some n := by
  have hall : ∀ n < 16, Text.hexValue? (hexChar n) = some n := by decide
  exact hall n h

/-- A code below the surrogates stands for its character, whatever follows. -/
theorem decodePieces?_unit {c : Char} (h : c < ' ') (pieces : List Piece) :
    decodePieces? (.unit c.toNat :: pieces) = (decodePieces? pieces).map (c :: ·) := by
  have hlt : c.toNat < 32 := h
  have hhigh : isHighSurrogate c.toNat = false := by simp [isHighSurrogate]; omega
  have hlow : isLowSurrogate c.toNat = false := by simp [isLowSurrogate]; omega
  cases pieces with
  | nil => simp [decodePieces?, hhigh, hlow]
  | cons piece pieces => cases piece <;> simp [decodePieces?, hhigh, hlow]

/-- The text is read as a piece in front of what follows, and the piece stands for `c`. -/
def ReadsAs (text : List Char) (c : Char) : Prop := ∃ piece,
  (∀ rest, readPieces? (text ++ rest) =
    (readPieces? rest).map fun read => (piece :: read.1, read.2)) ∧
  ∀ pieces, decodePieces? (piece :: pieces) = (decodePieces? pieces).map (c :: ·)

theorem readsAs_simple {e c : Char} (h : simpleEscape? e = some c) : ReadsAs ['\\', e] c := by
  have hu : e ≠ 'u' := by
    rintro rfl
    cases h
  refine ⟨.char c, fun rest => ?_, fun _ => rfl⟩
  cases hread : readPieces? rest <;> simp [readPieces?, hu, h, hread]

theorem readsAs_control {c : Char} (h : c < ' ') :
    ReadsAs ['\\', 'u', '0', '0', hexChar (c.toNat / 16), hexChar (c.toNat % 16)] c := by
  have hlt : c.toNat < 32 := h
  refine ⟨.unit c.toNat, fun rest => ?_, decodePieces?_unit h⟩
  have hhigh := hexValue?_hexChar (n := c.toNat / 16) (by omega)
  have hlow := hexValue?_hexChar (n := c.toNat % 16) (by omega)
  have hzero : Text.hexValue? '0' = some 0 := by decide
  have hcode : 16 * (c.toNat / 16) + c.toNat % 16 = c.toNat := by omega
  cases hread : readPieces? rest <;> simp [readPieces?, hhigh, hlow, hzero, hcode, hread]

theorem readsAs_plain {c : Char} (h : ¬ c < ' ') (hquote : c ≠ '"') (hslash : c ≠ '\\') :
    ReadsAs [c] c := by
  refine ⟨.char c, fun rest => ?_, fun _ => rfl⟩
  cases hread : readPieces? rest <;> simp [readPieces?, hslash, h, hread]

theorem readsAs_escapeChar (c : Char) : ReadsAs (escapeChar c) c := by
  unfold escapeChar
  split
  · exact readsAs_simple (by subst c; rfl)
  split
  · exact readsAs_simple (by subst c; rfl)
  split
  · exact readsAs_simple (by subst c; rfl)
  split
  · exact readsAs_simple (by subst c; rfl)
  split
  · exact readsAs_simple (by subst c; rfl)
  split
  · exact readsAs_simple (by subst c; rfl)
  split
  · exact readsAs_simple (by subst c; rfl)
  split
  · exact readsAs_control ‹_›
  · exact readsAs_plain ‹_› ‹_› ‹_›

/-- A text between quotes reads back. -/
theorem readPieces?_flatMap_escapeChar (text rest : List Char) : ∃ pieces,
    readPieces? (text.flatMap escapeChar ++ '"' :: rest) = some (pieces, rest) ∧
      decodePieces? pieces = some text := by
  induction text with
  | nil => exact ⟨[], rfl, rfl⟩
  | cons c text ih =>
    obtain ⟨pieces, hread, hdecode⟩ := ih
    obtain ⟨piece, hpiece, hstands⟩ := readsAs_escapeChar c
    refine ⟨piece :: pieces, ?_, by rw [hstands, hdecode]; rfl⟩
    rw [List.flatMap_cons, List.append_assoc, hpiece, hread]
    rfl

theorem readPieces?_stringChars (s : String) (rest : List Char) : ∃ pieces,
    readPieces? (s.toList.flatMap escapeChar ++ '"' :: rest) = some (pieces, rest) ∧
      stringOf? pieces = some s := by
  obtain ⟨pieces, hread, hdecode⟩ := readPieces?_flatMap_escapeChar s.toList rest
  exact ⟨pieces, hread, by rw [stringOf?, hdecode]; simp⟩

end DesiredState.Json
