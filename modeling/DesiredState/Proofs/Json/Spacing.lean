import DesiredState.Proofs.Json.Token

/-!
# Texts with blanks between their tokens

The compact and the indented text of a value differ in the blanks between their tokens. Both are
read as the value they were written for, and so is any other text that differs in nothing else.
-/

namespace DesiredState.Json

/-- The blanks between the tokens of a text. -/
structure Spacing where
  /-- In front of items, of members and of closing brackets at some level. -/
  line : Nat → List Char
  /-- In front of the value of a member. -/
  gap : List Char
  blank_line : ∀ level, ∀ c ∈ line level, isBlank c = true
  blank_gap : ∀ c ∈ gap, isBlank c = true

def Spacing.compact : Spacing :=
  ⟨fun _ => [], [], fun _ _ h => absurd h List.not_mem_nil, fun _ h => absurd h List.not_mem_nil⟩

/-- Line breaks, two spaces for each level, and a space in front of the value of a member. -/
def Spacing.indented : Spacing where
  line := newline
  gap := [' ']
  blank_line level c hc := by
    rcases List.mem_cons.mp hc with rfl | hc
    · rfl
    · rw [List.eq_of_mem_replicate hc]
      rfl
  blank_gap c hc := by
    rw [List.mem_singleton.mp hc]
    rfl

@[simp] theorem Spacing.line_compact (level : Nat) : compact.line level = [] := rfl

@[simp] theorem Spacing.gap_compact : compact.gap = [] := rfl

@[simp] theorem Spacing.line_indented (level : Nat) : indented.line level = newline level := rfl

@[simp] theorem Spacing.gap_indented : indented.gap = [' '] := rfl

mutual

/-- The text of a value at some level. -/
def spaced (sp : Spacing) (level : Nat) : Json → List Char
  | .arr (v :: rest) =>
    '[' :: (sp.line (level + 1) ++ (spaced sp (level + 1) v ++ spacedItems sp level rest))
  | .obj ((k, v) :: rest) =>
    '\x7b' :: (sp.line (level + 1) ++ (stringChars k ++ ':' ::
      (sp.gap ++ (spaced sp (level + 1) v ++ spacedMembers sp level rest))))
  | .arr [] => chars (.arr [])
  | .obj [] => chars (.obj [])
  | .null => chars .null
  | .bool b => chars (.bool b)
  | .num n => chars (.num n)
  | .str s => chars (.str s)

/-- Further items and the closing bracket. -/
def spacedItems (sp : Spacing) (level : Nat) : List Json → List Char
  | [] => sp.line level ++ [']']
  | v :: rest =>
    ',' :: (sp.line (level + 1) ++ (spaced sp (level + 1) v ++ spacedItems sp level rest))

/-- Further members and the closing brace. -/
def spacedMembers (sp : Spacing) (level : Nat) : List (String × Json) → List Char
  | [] => sp.line level ++ ['\x7d']
  | (k, v) :: rest =>
    ',' :: (sp.line (level + 1) ++ (stringChars k ++ ':' ::
      (sp.gap ++ (spaced sp (level + 1) v ++ spacedMembers sp level rest))))

end

mutual

theorem spaced_compact : (level : Nat) → (v : Json) → spaced .compact level v = v.chars
  | level, .arr (v :: rest) => by
    simp [spaced, chars, spaced_compact (level + 1) v, spacedItems_compact level rest]
  | level, .obj ((k, v) :: rest) => by
    simp [spaced, chars, spaced_compact (level + 1) v, spacedMembers_compact level rest]
  | _, .arr [] | _, .obj [] | _, .null | _, .bool _ | _, .num _ | _, .str _ => by simp [spaced]

theorem spacedItems_compact : (level : Nat) → (items : List Json) →
    spacedItems .compact level items = itemsChars items
  | _, [] => by simp [spacedItems, itemsChars]
  | level, v :: rest => by
    simp [spacedItems, itemsChars, spaced_compact (level + 1) v, spacedItems_compact level rest]

theorem spacedMembers_compact : (level : Nat) → (members : List (String × Json)) →
    spacedMembers .compact level members = membersChars members
  | _, [] => by simp [spacedMembers, membersChars]
  | level, (k, v) :: rest => by
    simp [spacedMembers, membersChars, spaced_compact (level + 1) v,
      spacedMembers_compact level rest]

end

mutual

theorem spaced_indented : (level : Nat) → (v : Json) →
    spaced .indented level v = indentedChars level v
  | level, .arr (v :: rest) => by
    simp [spaced, indentedChars, spaced_indented (level + 1) v, spacedItems_indented level rest]
  | level, .obj ((k, v) :: rest) => by
    simp [spaced, indentedChars, spaced_indented (level + 1) v, spacedMembers_indented level rest]
  | _, .bool b => by cases b <;> simp [spaced, indentedChars, chars]
  | _, .arr [] | _, .obj [] | _, .null | _, .num _ | _, .str _ => by
    simp [spaced, indentedChars, chars]

theorem spacedItems_indented : (level : Nat) → (items : List Json) →
    spacedItems .indented level items = indentedItems level items
  | _, [] => by simp [spacedItems, indentedItems]
  | level, v :: rest => by
    simp [spacedItems, indentedItems, spaced_indented (level + 1) v,
      spacedItems_indented level rest]

theorem spacedMembers_indented : (level : Nat) → (members : List (String × Json)) →
    spacedMembers .indented level members = indentedMembers level members
  | _, [] => by simp [spacedMembers, indentedMembers]
  | level, (k, v) :: rest => by
    simp [spacedMembers, indentedMembers, spaced_indented (level + 1) v,
      spacedMembers_indented level rest]

end

mutual

/-- Whether a value has no doubles and no number too large, wherever its members stand. -/
def precise : Json → Bool
  | .num (.int i) => InWords i
  | .num (.float _) => false
  | .arr items => preciseItems items
  | .obj members => preciseMembers members
  | _ => true

def preciseItems : List Json → Bool
  | [] => true
  | v :: rest => precise v && preciseItems rest

def preciseMembers : List (String × Json) → Bool
  | [] => true
  | (_, v) :: rest => precise v && preciseMembers rest

end

theorem preciseItems_iff {items : List Json} :
    preciseItems items = true ↔ ∀ v ∈ items, v.precise = true := by
  induction items with
  | nil => simp [preciseItems]
  | cons v items ih => simp [preciseItems, ih]

theorem preciseMembers_iff {members : List (String × Json)} :
    preciseMembers members = true ↔ ∀ member ∈ members, member.2.precise = true := by
  induction members with
  | nil => simp [preciseMembers]
  | cons member members ih =>
    obtain ⟨k, v⟩ := member
    simp [preciseMembers, ih]

theorem depthItems_le_iff {items : List Json} {n : Nat} :
    depthItems items ≤ n ↔ ∀ v ∈ items, v.depth ≤ n := by
  induction items with
  | nil => simp [depthItems]
  | cons v items ih => rw [depthItems, Nat.max_le, ih, List.forall_mem_cons]

theorem depthMembers_le_iff {members : List (String × Json)} {n : Nat} :
    depthMembers members ≤ n ↔ ∀ member ∈ members, member.2.depth ≤ n := by
  induction members with
  | nil => simp [depthMembers]
  | cons member members ih =>
    obtain ⟨k, v⟩ := member
    rw [depthMembers, Nat.max_le, ih, List.forall_mem_cons]

theorem skipBlank_cons {c : Char} (h : isBlank c = false) (rest : List Char) :
    skipBlank (c :: rest) = c :: rest := by
  simp [skipBlank, h]

theorem skipBlank_append {blanks : List Char} (h : ∀ c ∈ blanks, isBlank c = true)
    (rest : List Char) : skipBlank (blanks ++ rest) = skipBlank rest :=
  List.dropWhile_append_of_pos h

/-- Blanks in front of a value are not seen. -/
theorem readDocument?_append {blanks : List Char} (h : ∀ c ∈ blanks, isBlank c = true)
    (fuel : Nat) (rest : List Char) :
    readDocument? fuel (blanks ++ rest) = readDocument? fuel rest := by
  cases fuel with
  | zero => rfl
  | succ fuel => rw [readDocument?, readDocument?, skipBlank_append h]

theorem readItems?_append {blanks : List Char} (h : ∀ c ∈ blanks, isBlank c = true)
    (fuel : Nat) (rest : List Char) : readItems? fuel (blanks ++ rest) = readItems? fuel rest := by
  cases fuel with
  | zero => rfl
  | succ fuel => rw [readItems?, readItems?, readDocument?_append h]

theorem readMembers?_append {blanks : List Char} (h : ∀ c ∈ blanks, isBlank c = true)
    (fuel : Nat) (rest : List Char) :
    readMembers? fuel (blanks ++ rest) = readMembers? fuel rest := by
  cases fuel with
  | zero => rfl
  | succ fuel => rw [readMembers?, readMembers?, skipBlank_append h]

/-- A number starts with its sign or a digit. -/
theorem intChars_eq_cons (i : Int) :
    ∃ c rest, intChars i = c :: rest ∧ (c = '-' ∨ c.isDigit = true) := by
  unfold intChars
  split
  · exact ⟨'-', _, rfl, Or.inl rfl⟩
  · obtain ⟨d, rest, hd, hdigit, _⟩ := toDigits_eq_cons i.toNat
    exact ⟨d, rest, hd, Or.inr hdigit⟩

/-- No other value starts like a number, and no container ends like one. -/
theorem number_start {c : Char} (h : c = '-' ∨ c.isDigit = true) :
    isBlank c = false ∧ c ∉ ['n', 't', 'f', '"', '[', ']', '{', '}'] := by
  rcases h with rfl | h
  · decide
  · constructor
    · cases hb : isBlank c with
      | false => rfl
      | true =>
        simp only [isBlank, Bool.or_eq_true, decide_eq_true_eq] at hb
        rcases hb with ((rfl | rfl) | rfl) | rfl <;> cases h
    · intro hc
      simp only [List.mem_cons, List.not_mem_nil, or_false] at hc
      rcases hc with rfl | rfl | rfl | rfl | rfl | rfl | rfl | rfl <;> cases h

/-- What starts like a number is read as one. -/
theorem readDocument?_number {c : Char} (h : c = '-' ∨ c.isDigit = true) (fuel : Nat)
    (rest : List Char) :
    readDocument? (fuel + 1) (c :: rest) =
      (readLiteral? (c :: rest)).map fun (l, rest) => (.number l, rest) := by
  obtain ⟨hblank, hc⟩ := number_start h
  simp only [List.mem_cons, List.not_mem_nil, or_false, not_or] at hc
  rw [readDocument?, skipBlank_cons hblank]
  simp [hc]

variable {sp : Spacing}

/-- The text of a value starts with a character that is no blank and closes nothing. -/
theorem spaced_eq_cons (sp : Spacing) (level : Nat) (v : Json) (hp : v.precise = true) :
    ∃ c rest, spaced sp level v = c :: rest ∧ isBlank c = false ∧ c ≠ ']' := by
  rcases v with _ | b | n | s | items | members
  · exact ⟨_, _, rfl, by decide, by decide⟩
  · cases b
    · exact ⟨_, _, rfl, by decide, by decide⟩
    · exact ⟨_, _, rfl, by decide, by decide⟩
  · cases n with
    | float x => simp [precise] at hp
    | int i =>
      obtain ⟨c, rest, hc, hstart⟩ := intChars_eq_cons i
      obtain ⟨hblank, hnot⟩ := number_start hstart
      exact ⟨c, rest, hc, hblank, by rintro rfl; simp at hnot⟩
  · exact ⟨_, _, rfl, by decide, by decide⟩
  · cases items
    · exact ⟨_, _, rfl, by decide, by decide⟩
    · exact ⟨_, _, rfl, by decide, by decide⟩
  · cases members
    · exact ⟨_, _, rfl, by decide, by decide⟩
    · exact ⟨_, _, rfl, by decide, by decide⟩

/-- Reading the text from some fuel on gives a document that denotes the value. -/
def ReadsBack (sp : Spacing) (level levels fuel : Nat) (v : Json) : Prop := ∀ rest, Stops rest →
  ∃ document, readDocument? fuel (spaced sp level v ++ rest) = some (document, rest) ∧
    document.value? levels = some v

theorem stops_append {blanks rest : List Char} (h : ∀ c ∈ blanks, isBlank c = true)
    (hr : Stops rest) : Stops (blanks ++ rest) := by
  cases blanks with
  | nil => exact hr
  | cons c blanks =>
    have hc := h c List.mem_cons_self
    simp only [isBlank, Bool.or_eq_true, decide_eq_true_eq] at hc
    rcases hc with ((rfl | rfl) | rfl) | rfl <;> exact stops_cons (by decide)

theorem stops_spacedItems (level : Nat) (items : List Json) (rest : List Char) :
    Stops (spacedItems sp level items ++ rest) := by
  cases items with
  | nil =>
    rw [spacedItems, List.append_assoc]
    exact stops_append (sp.blank_line level) (stops_cons (by decide))
  | cons v items => exact stops_cons (by decide)

theorem stops_spacedMembers (level : Nat) (members : List (String × Json)) (rest : List Char) :
    Stops (spacedMembers sp level members ++ rest) := by
  cases members with
  | nil =>
    rw [spacedMembers, List.append_assoc]
    exact stops_append (sp.blank_line level) (stops_cons (by decide))
  | cons member members => exact stops_cons (by decide)

theorem length_spacedItems_pos (sp : Spacing) (level : Nat) (items : List Json) :
    0 < (spacedItems sp level items).length := by
  cases items <;> simp [spacedItems]

/-- The items of an array read back if each of them does. -/
theorem readItems?_spaced {level levels : Nat} {v : Json} {items : List Json}
    (h : ∀ w ∈ v :: items, ∀ fuel, (spaced sp (level + 1) w).length ≤ fuel →
      ReadsBack sp (level + 1) levels fuel w) (fuel : Nat)
    (hf : (spaced sp (level + 1) v ++ spacedItems sp level items).length ≤ fuel)
    (rest : List Char) :
    ∃ documents,
      readItems? fuel (spaced sp (level + 1) v ++ (spacedItems sp level items ++ rest)) =
        some (documents, rest) ∧ itemValues? levels documents = some (v :: items) := by
  induction items generalizing v fuel with
  | nil =>
    rw [List.length_append] at hf
    have hpos := length_spacedItems_pos sp level []
    obtain ⟨fuel, rfl⟩ : ∃ n, fuel = n + 1 := ⟨fuel - 1, by omega⟩
    obtain ⟨document, hread, hvalue⟩ :=
      h v List.mem_cons_self fuel (by omega) _ (stops_spacedItems level [] rest)
    refine ⟨[document], ?_, by simp [itemValues?, hvalue]⟩
    rw [readItems?, hread]
    simp only [spacedItems, List.append_assoc, Option.bind_eq_bind, Option.bind_some]
    rw [skipBlank_append (sp.blank_line level)]
    rfl
  | cons w items ih =>
    rw [List.length_append] at hf
    simp only [spacedItems, List.length_cons, List.length_append] at hf
    obtain ⟨fuel, rfl⟩ : ∃ n, fuel = n + 1 := ⟨fuel - 1, by omega⟩
    obtain ⟨document, hread, hvalue⟩ :=
      h v List.mem_cons_self fuel (by omega) _ (stops_spacedItems level (w :: items) rest)
    obtain ⟨documents, hrest, hvalues⟩ := ih (fun u hu => h u (List.mem_cons_of_mem _ hu)) fuel
      (by rw [List.length_append]; omega)
    refine ⟨document :: documents, ?_, by simp [itemValues?, hvalue, hvalues]⟩
    rw [readItems?, hread]
    simp only [spacedItems, List.cons_append, List.append_assoc, Option.bind_eq_bind,
      Option.bind_some]
    rw [skipBlank_cons (by decide)]
    simp only [readItems?_append (sp.blank_line (level + 1)), hrest, Option.bind_some]

/-- A member is read up to what follows its value. -/
theorem readMembers?_member {level fuel : Nat} (k : String) {v : Json} {document : Document}
    {rest : List Char}
    (hread : readDocument? fuel (spaced sp level v ++ rest) = some (document, rest)) :
    ∃ key, stringOf? key = some k ∧
      readMembers? (fuel + 1) (stringChars k ++ ':' :: (sp.gap ++ (spaced sp level v ++ rest))) =
        match skipBlank rest with
        | ',' :: rest =>
          (readMembers? fuel rest).bind fun (members, rest) =>
            some ((key, document) :: members, rest)
        | '\x7d' :: rest => some ([(key, document)], rest)
        | _ => none := by
  obtain ⟨key, hkey, hstring⟩ :=
    readPieces?_stringChars k (':' :: (sp.gap ++ (spaced sp level v ++ rest)))
  refine ⟨key, hstring, ?_⟩
  have htext : stringChars k ++ ':' :: (sp.gap ++ (spaced sp level v ++ rest)) =
      '"' :: (k.toList.flatMap escapeChar ++
        '"' :: ':' :: (sp.gap ++ (spaced sp level v ++ rest))) := by
    simp [stringChars]
  rw [htext, readMembers?, skipBlank_cons (by decide)]
  simp only [hkey, Option.bind_eq_bind, Option.bind_some]
  rw [skipBlank_cons (by decide)]
  have hvalue : readDocument? fuel (sp.gap ++ (spaced sp level v ++ rest)) =
      some (document, rest) := (readDocument?_append sp.blank_gap ..).trans hread
  exact congrArg (Option.bind · _) hvalue

/-- The members of an object read back if each of their values does. -/
theorem readMembers?_spaced {level levels : Nat} {k : String} {v : Json}
    {members : List (String × Json)}
    (h : ∀ member ∈ (k, v) :: members, ∀ fuel, (spaced sp (level + 1) member.2).length ≤ fuel →
      ReadsBack sp (level + 1) levels fuel member.2) (fuel : Nat)
    (hf : (stringChars k ++ ':' :: (sp.gap ++ (spaced sp (level + 1) v ++
      spacedMembers sp level members))).length ≤ fuel) (rest : List Char) :
    ∃ documents,
      readMembers? fuel (stringChars k ++ ':' :: (sp.gap ++ (spaced sp (level + 1) v ++
        (spacedMembers sp level members ++ rest)))) = some (documents, rest) ∧
      memberValues? levels documents = some ((k, v) :: members) := by
  induction members generalizing k v fuel with
  | nil =>
    simp only [List.length_cons, List.length_append] at hf
    obtain ⟨fuel, rfl⟩ : ∃ n, fuel = n + 1 := ⟨fuel - 1, by omega⟩
    obtain ⟨document, hread, hvalue⟩ := h (k, v) List.mem_cons_self fuel (by simp only; omega)
      (spacedMembers sp level [] ++ rest) (stops_spacedMembers level [] rest)
    obtain ⟨key, hstring, hmember⟩ := readMembers?_member k hread
    refine ⟨[(key, document)], ?_, by simp [memberValues?, hstring, hvalue]⟩
    rw [hmember, spacedMembers, List.append_assoc, skipBlank_append (sp.blank_line level)]
    rfl
  | cons member members ih =>
    obtain ⟨l, w⟩ := member
    simp only [spacedMembers, List.length_cons, List.length_append] at hf
    obtain ⟨fuel, rfl⟩ : ∃ n, fuel = n + 1 := ⟨fuel - 1, by omega⟩
    obtain ⟨document, hread, hvalue⟩ := h (k, v) List.mem_cons_self fuel (by simp only; omega)
      (spacedMembers sp level ((l, w) :: members) ++ rest)
      (stops_spacedMembers level ((l, w) :: members) rest)
    obtain ⟨documents, hrest, hvalues⟩ := ih (fun other ho => h other (List.mem_cons_of_mem _ ho))
      fuel (by simp only [List.length_cons, List.length_append]; omega)
    obtain ⟨key, hstring, hmember⟩ := readMembers?_member k hread
    refine ⟨(key, document) :: documents, ?_, by simp [memberValues?, hstring, hvalue, hvalues]⟩
    rw [hmember]
    simp only [spacedMembers, List.cons_append, List.append_assoc]
    rw [skipBlank_cons (by decide)]
    simp only [readMembers?_append (sp.blank_line (level + 1)), hrest, Option.bind_some]

theorem readsBack_int {i : Int} (hi : InWords i) (level levels fuel : Nat) :
    ReadsBack sp level levels (fuel + 1) (.num (.int i)) := by
  intro rest hr
  obtain ⟨l, hread, hvalue⟩ := readLiteral?_intChars hi hr
  obtain ⟨c, tail, hc, hstart⟩ := intChars_eq_cons i
  rw [hc, List.cons_append] at hread
  refine ⟨.number l, ?_, by cases levels <;> simp [Document.value?, hvalue]⟩
  rw [spaced, chars, Number.chars, hc, List.cons_append, readDocument?_number hstart, hread]
  rfl

theorem readsBack_str (s : String) (level levels fuel : Nat) :
    ReadsBack sp level levels (fuel + 1) (.str s) := by
  intro rest _
  obtain ⟨pieces, hread, hstring⟩ := readPieces?_stringChars s rest
  refine ⟨.string pieces, ?_, by cases levels <;> simp [Document.value?, hstring]⟩
  have htext : spaced sp level (.str s) ++ rest =
      '"' :: (s.toList.flatMap escapeChar ++ '"' :: rest) := by
    simp [spaced, chars, stringChars]
  rw [htext, readDocument?, skipBlank_cons (by decide)]
  simp [hread]

theorem readsBack_arr {level levels fuel : Nat} {v : Json} {items : List Json}
    (hp : v.precise = true) (hf : (spaced sp level (.arr (v :: items))).length ≤ fuel + 1)
    (h : ∀ w ∈ v :: items, ∀ fuel, (spaced sp (level + 1) w).length ≤ fuel →
      ReadsBack sp (level + 1) levels fuel w) :
    ReadsBack sp level (levels + 1) (fuel + 1) (.arr (v :: items)) := by
  intro rest _
  simp only [spaced, List.length_cons, List.length_append] at hf
  obtain ⟨documents, hread, hvalues⟩ :=
    readItems?_spaced h fuel (by rw [List.length_append]; omega) rest
  refine ⟨.array documents, ?_, by simp [Document.value?, hvalues]⟩
  obtain ⟨c, tail, hc, hblank, hclose⟩ := spaced_eq_cons sp (level + 1) v hp
  rw [hc] at hread
  simp only [spaced, hc, List.cons_append, List.append_assoc] at hread ⊢
  rw [readDocument?, skipBlank_cons (by decide)]
  simp only [skipBlank_append (sp.blank_line (level + 1))]
  rw [skipBlank_cons hblank]
  simp [hclose, hread]

theorem readsBack_obj {level levels fuel : Nat} {k : String} {v : Json}
    {members : List (String × Json)}
    (hf : (spaced sp level (.obj ((k, v) :: members))).length ≤ fuel + 1)
    (h : ∀ member ∈ (k, v) :: members, ∀ fuel, (spaced sp (level + 1) member.2).length ≤ fuel →
      ReadsBack sp (level + 1) levels fuel member.2) :
    ReadsBack sp level (levels + 1) (fuel + 1) (.obj ((k, v) :: members)) := by
  intro rest _
  simp only [spaced, List.length_cons, List.length_append] at hf
  obtain ⟨documents, hread, hvalues⟩ :=
    readMembers?_spaced h fuel (by simp only [List.length_cons, List.length_append]; omega) rest
  refine ⟨.object documents, ?_, by simp [Document.value?, hvalues]⟩
  simp only [spaced, stringChars, List.cons_append, List.nil_append, List.append_assoc] at hread ⊢
  rw [readDocument?, skipBlank_cons (by decide)]
  simp only [skipBlank_append (sp.blank_line (level + 1))]
  rw [skipBlank_cons (by decide)]
  simp [hread]

/-- A precise value reads back wherever its text stands. -/
theorem readsBack_of_precise (sp : Spacing) : (v : Json) → (level levels fuel : Nat) →
    v.precise = true → v.depth ≤ levels → (spaced sp level v).length ≤ fuel →
    ReadsBack sp level levels fuel v
  | _, level, _, 0, hp, _, hf => by
    obtain ⟨c, rest, hc, _⟩ := spaced_eq_cons sp level _ hp
    simp [hc] at hf
  | .null, _, levels, fuel + 1, _, _, _ => fun _ _ => ⟨.null, rfl, by cases levels <;> rfl⟩
  | .bool b, _, levels, fuel + 1, _, _, _ => fun _ _ =>
    ⟨.bool b, by cases b <;> rfl, by cases levels <;> rfl⟩
  | .num (.int i), level, levels, fuel + 1, hp, _, _ =>
    readsBack_int (by simpa [precise] using hp) level levels fuel
  | .num (.float _), _, _, _, hp, _, _ => by simp [precise] at hp
  | .str s, level, levels, fuel + 1, _, _, _ => readsBack_str s level levels fuel
  | .arr [], _, levels + 1, fuel + 1, _, _, _ => fun _ _ => ⟨.array [], rfl, rfl⟩
  | .obj [], _, levels + 1, fuel + 1, _, _, _ => fun _ _ => ⟨.object [], rfl, rfl⟩
  | .arr _, _, 0, _, _, hd, _ => by simp [depth] at hd
  | .obj _, _, 0, _, _, hd, _ => by simp [depth] at hd
  | .arr (v :: items), level, levels + 1, fuel + 1, hp, hd, hf => by
    simp only [precise] at hp
    simp only [depth, Nat.add_le_add_iff_right] at hd
    have hitems := preciseItems_iff.mp hp
    refine readsBack_arr (hitems v List.mem_cons_self) hf fun w hw fuel hw' => ?_
    have := List.sizeOf_lt_of_mem hw
    exact readsBack_of_precise sp w (level + 1) levels fuel (hitems w hw)
      (depthItems_le_iff.mp hd w hw) hw'
  | .obj ((k, v) :: members), level, levels + 1, fuel + 1, hp, hd, hf => by
    simp only [precise] at hp
    simp only [depth, Nat.add_le_add_iff_right] at hd
    refine readsBack_obj hf fun member hm fuel hm' => ?_
    have := List.sizeOf_lt_of_mem hm
    exact readsBack_of_precise sp member.2 (level + 1) levels fuel
      (preciseMembers_iff.mp hp member hm) (depthMembers_le_iff.mp hd member hm) hm'
termination_by v => sizeOf v
decreasing_by
  · simp only [Json.arr.sizeOf_spec]
    omega
  · have : sizeOf member.2 < sizeOf member := by
      obtain ⟨k, v⟩ := member
      simp only [Prod.mk.sizeOf_spec]
      omega
    simp only [Json.obj.sizeOf_spec]
    omega

/-- The text of a precise value is a document that denotes the value, members as written, whatever
blanks stand between its tokens and after it. -/
theorem exists_document_spaced (sp : Spacing) {v : Json} (hp : v.precise = true) {levels : Nat}
    (hd : v.depth ≤ levels) (level : Nat) {after : List Char}
    (hafter : ∀ c ∈ after, isBlank c = true) :
    ∃ document, Document.ofText? (String.ofList (spaced sp level v ++ after)) = some document ∧
      document.value? levels = some v := by
  have hstops : Stops after := by simpa using stops_append hafter stops_nil
  obtain ⟨document, hread, hvalue⟩ := readsBack_of_precise sp v level levels
    (2 * (spaced sp level v ++ after).length + 2) hp hd (by rw [List.length_append]; omega) after
    hstops
  have hblank : skipBlank after = [] := by simpa [skipBlank] using skipBlank_append hafter []
  refine ⟨document, ?_, hvalue⟩
  rw [Document.ofText?, Document.ofChars?, String.toList_ofList, hread]
  simp [hblank]

theorem parseAsWritten?_spaced (sp : Spacing) {v : Json} (hp : v.precise = true)
    (hd : v.depth ≤ maxDepth) (level : Nat) {after : List Char}
    (hafter : ∀ c ∈ after, isBlank c = true) :
    parseAsWritten? (String.ofList (spaced sp level v ++ after)) = some v := by
  obtain ⟨document, hdocument, hvalue⟩ := exists_document_spaced sp hp hd level hafter
  rw [parseAsWritten?, hdocument, Option.bind_some, hvalue]

theorem exists_document_render {v : Json} (hp : v.precise = true) {levels : Nat}
    (hd : v.depth ≤ levels) :
    ∃ document, Document.ofText? v.render = some document ∧ document.value? levels = some v := by
  have hread := exists_document_spaced .compact hp hd 0 fun c (hc : c ∈ []) =>
    absurd hc List.not_mem_nil
  rwa [spaced_compact, List.append_nil] at hread

theorem parseAsWritten?_render {v : Json} (hp : v.precise = true) (hd : v.depth ≤ maxDepth) :
    parseAsWritten? v.render = some v := by
  have hread := parseAsWritten?_spaced .compact hp hd 0 fun c (hc : c ∈ []) =>
    absurd hc List.not_mem_nil
  rwa [spaced_compact, List.append_nil] at hread

theorem parseAsWritten?_renderIndented {v : Json} (hp : v.precise = true)
    (hd : v.depth ≤ maxDepth) : parseAsWritten? (v.renderIndented ++ "\n") = some v := by
  have hread := parseAsWritten?_spaced .indented hp hd 0 fun c (hc : c ∈ ['\n']) => by
    rw [List.mem_singleton.mp hc]
    rfl
  rwa [spaced_indented, String.ofList_append] at hread

end DesiredState.Json
