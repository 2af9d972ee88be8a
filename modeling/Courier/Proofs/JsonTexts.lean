import Courier.Proofs.JsonScalars
set_option autoImplicit false

namespace Courier.Json

open Decimal (ne_of_isDigit)

/-- A value whose numbers are whole and whose lists and objects nest no deeper than a bound. The members of an object
are in the order of their names, each name once. -/
inductive Restorable : Nat → Json → Prop where
  | null (depth : Nat) : Restorable depth .null
  | bool (depth : Nat) (b : Bool) : Restorable depth (.bool b)
  | integer (depth : Nat) (n : JsonInteger) : Restorable depth (.integer n)
  | string (depth : Nat) (t : String) : Restorable depth (.string t)
  | array {depth : Nat} {items : List Json} : (∀ j ∈ items, Restorable depth j) →
      Restorable (depth + 1) (.array items)
  | object {depth : Nat} {members : List (String × Json)} : members.Pairwise (fun m n => m.1 < n.1) →
      (∀ m ∈ members, Restorable depth m.2) → Restorable (depth + 1) (.object members)

theorem Restorable.mono {a b : Nat} (le : a ≤ b) {j : Json} (h : Restorable a j) : Restorable b j := by
  induction h generalizing b with
  | null => exact .null b
  | bool _ x => exact .bool b x
  | integer _ n => exact .integer b n
  | string _ t => exact .string b t
  | array _ ih =>
    obtain ⟨c, rfl⟩ := Nat.exists_eq_succ_of_ne_zero (show b ≠ 0 by omega)
    exact .array fun j mem => ih j mem (by omega)
  | object ordered _ ih =>
    obtain ⟨c, rfl⟩ := Nat.exists_eq_succ_of_ne_zero (show b ≠ 0 by omega)
    exact .object ordered fun m mem => ih m mem (by omega)

/-! ### The order of members -/

theorem putMember_last {α : Type} {name : String} (v : α) {ms : List (String × α)} (last : ∀ m ∈ ms, m.1 < name) :
    putMember name v ms = ms ++ [(name, v)] := by
  induction ms with
  | nil => rfl
  | cons m ms ih =>
    have before := last m List.mem_cons_self
    unfold putMember
    rw [if_neg (String.lt_asymm before), if_neg (fun same => String.lt_irrefl _ (same ▸ before)),
      ih fun n mem => last n (List.mem_cons_of_mem m mem)]
    rfl

theorem foldl_putMember {α : Type} (acc ms : List (String × α)) (ordered : (acc ++ ms).Pairwise fun m n => m.1 < n.1) :
    ms.foldl (fun acc m => putMember m.1 m.2 acc) acc = acc ++ ms := by
  induction ms generalizing acc with
  | nil => simp
  | cons m ms ih =>
    have last : ∀ n ∈ acc, n.1 < m.1 := fun n mem => (List.pairwise_append.mp ordered).2.2 n mem m List.mem_cons_self
    rw [List.foldl_cons, putMember_last _ last, ih _ (by simpa using ordered)]
    simp

theorem sortMembers_of_ordered {α : Type} {ms : List (String × α)} (ordered : ms.Pairwise fun m n => m.1 < n.1) :
    sortMembers ms = ms := foldl_putMember [] ms ordered

/-! ### Items and members -/

theorem commas_cons (p : List Char) (ps : List (List Char)) :
    commas (p :: ps) = p ++ ps.flatMap (',' :: ·) := by
  induction ps generalizing p with
  | nil => simp [commas]
  | cons q ps ih =>
    rw [commas, ih, List.flatMap_cons]
    rfl

def laterItem (j : Json) : List Char := ',' :: chars j

def laterMember (m : String × Json) : List Char := ',' :: (quoted m.1 ++ ':' :: chars m.2)

theorem commas_itemChars (j : Json) (js : List Json) :
    commas (itemChars (j :: js)) = chars j ++ js.flatMap laterItem := by
  have texts : ∀ js, itemChars js = js.map chars := by
    intro js
    induction js with
    | nil => rfl
    | cons j js ih =>
      rw [itemChars, ih]
      rfl
  rw [texts, List.map_cons, commas_cons, List.flatMap_map]
  rfl

theorem commas_memberChars (m : String × Json) (ms : List (String × Json)) :
    commas (memberChars (m :: ms)) = quoted m.1 ++ ':' :: (chars m.2 ++ ms.flatMap laterMember) := by
  have texts : ∀ ms, memberChars ms = ms.map fun m => quoted m.1 ++ ':' :: chars m.2 := by
    intro ms
    induction ms with
    | nil => rfl
    | cons m ms ih =>
      rw [memberChars, ih]
      rfl
  rw [texts, List.map_cons, commas_cons, List.flatMap_map, List.append_assoc]
  rfl

def Starts (p : List Char) : Prop := ∃ c r, p = c :: r ∧ c ∉ [' ', '\n', '\t', '\r', ']']

theorem Starts.append {p : List Char} (h : Starts p) (s : List Char) : Starts (p ++ s) := by
  obtain ⟨c, r, rfl, ink⟩ := h
  exact ⟨c, r ++ s, rfl, ink⟩

theorem Starts.pos {p : List Char} (h : Starts p) : 0 < p.length := by
  obtain ⟨c, r, rfl, _⟩ := h
  exact Nat.succ_pos _

theorem skipBlank_cons {c : Char} (ink : c ∉ [' ', '\n', '\t', '\r']) (s : List Char) :
    skipBlank (c :: s) = c :: s := by
  unfold skipBlank
  rw [List.dropWhile_cons_of_neg]
  simpa [or_assoc] using ink

theorem skipBlank_digit {c : Char} (digit : Decimal.isDigit c = true) (s : List Char) : skipBlank (c :: s) = c :: s :=
  skipBlank_cons (by simpa using ⟨ne_of_isDigit digit rfl, ne_of_isDigit digit rfl, ne_of_isDigit digit rfl,
    ne_of_isDigit digit rfl⟩) s

theorem Starts.skipBlank_eq {p : List Char} (h : Starts p) : skipBlank p = p := by
  obtain ⟨c, r, rfl, ink⟩ := h
  exact skipBlank_cons (fun blank => ink (List.mem_append_left [']'] blank)) r

theorem nextItem_first {p : List Char} (h : Starts p) : nextItem true p = .ok (true, p) := by
  have same := h.skipBlank_eq
  obtain ⟨c, r, rfl, ink⟩ := h
  unfold nextItem
  rw [same]
  dsimp only
  rw [if_neg (fun last => ink (by simp [last])), if_pos rfl]

theorem nextItem_comma {p : List Char} (h : Starts p) : nextItem false (',' :: p) = .ok (true, p) := by
  have same := h.skipBlank_eq
  obtain ⟨c, r, rfl, ink⟩ := h
  unfold nextItem
  rw [skipBlank_cons (by decide)]
  dsimp only
  rw [if_neg (by decide), if_neg (by decide), if_pos rfl, same]
  dsimp only
  rw [if_neg (fun last => ink (by simp [last]))]

theorem nextItem_end (first : Bool) (s : List Char) : nextItem first (']' :: s) = .ok (false, s) := by
  unfold nextItem
  rw [skipBlank_cons (by decide)]
  rfl

theorem nextName_first (s : List Char) : nextName true ('"' :: s) = .ok (true, s) := by
  unfold nextName
  rw [skipBlank_cons (by decide)]
  rfl

theorem nextName_comma (s : List Char) : nextName false (',' :: '"' :: s) = .ok (true, s) := by
  unfold nextName
  rw [skipBlank_cons (by decide)]
  dsimp only
  rw [skipBlank_cons (by decide)]
  rfl

theorem nextName_end (first : Bool) (s : List Char) : nextName first ('\x7d' :: s) = .ok (false, s) := by
  unfold nextName
  rw [skipBlank_cons (by decide)]
  rfl

theorem colon_cons (s : List Char) : colon (':' :: s) = .ok s := by
  unfold colon
  rw [skipBlank_cons (by decide)]
  rfl

/-! ### Values -/

def ReadBack (depth : Nat) (j : Json) : Prop :=
  ∀ fuel s, (chars j).length ≤ fuel → Closes s → value fuel depth (chars j ++ s) = .ok (j, s)

theorem Restorable.starts {n : Nat} {j : Json} (h : Restorable n j) : Starts (chars j) := by
  cases h with
  | null => exact ⟨'n', _, rfl, by decide⟩
  | bool _ b => cases b <;> exact ⟨_, _, rfl, by decide⟩
  | integer _ n =>
    obtain ⟨c, r, text, start⟩ := ofInt_starts n closes_nil
    rw [List.append_nil] at text
    refine ⟨c, r, text, ?_⟩
    rcases start with ⟨rfl, _⟩ | ⟨digit, _⟩
    · decide
    · simpa using ⟨ne_of_isDigit digit rfl, ne_of_isDigit digit rfl, ne_of_isDigit digit rfl, ne_of_isDigit digit rfl,
        ne_of_isDigit digit rfl⟩
  | string _ t => exact ⟨'"', _, rfl, by decide⟩
  | array _ => exact ⟨'[', _, rfl, by decide⟩
  | object _ _ => exact ⟨'\x7b', _, rfl, by decide⟩

theorem readBack_integer (depth : Nat) (n : JsonInteger) : ReadBack depth (.integer n) := by
  intro fuel s enough closed
  obtain ⟨c, r, text, start⟩ := ofInt_starts n closed
  have pos := (Restorable.integer 0 n).starts.pos
  obtain ⟨fuel, rfl⟩ := Nat.exists_eq_succ_of_ne_zero (show fuel ≠ 0 by omega)
  change value (fuel + 1) depth (Decimal.ofInt n.val ++ s) = _
  rw [text]
  unfold value
  rcases start with ⟨rfl, number⟩ | ⟨digit, number⟩
  · rw [skipBlank_cons (by decide)]
    simp [number, Except.map, Number.toJson]
  · rw [skipBlank_digit digit]
    dsimp only
    rw [if_neg (ne_of_isDigit digit rfl), if_neg (ne_of_isDigit digit rfl), if_neg (ne_of_isDigit digit rfl),
      if_neg (ne_of_isDigit digit rfl), if_pos digit, number]
    rfl

theorem readBack_string (depth : Nat) (t : String) : ReadBack depth (.string t) := by
  intro fuel s enough _
  obtain ⟨fuel, rfl⟩ := Nat.exists_eq_succ_of_ne_zero (show fuel ≠ 0 by
    rintro rfl
    exact absurd enough (by simp [chars, quoted]))
  change value (fuel + 1) depth (quoted t ++ s) = _
  rw [quoted_append]
  unfold value
  rw [skipBlank_cons (by decide)]
  simp [stringTail_escapes, Except.map, Decimal.isDigit, Decimal.digit?]

theorem closes_items (js : List Json) (s : List Char) : Closes (js.flatMap laterItem ++ ']' :: s) := by
  cases js with
  | nil => exact closes_list s
  | cons j js => exact closes_comma _

theorem items_later {depth : Nat} {js : List Json} (starts : ∀ j ∈ js, Starts (chars j))
    (read : ∀ j ∈ js, ReadBack depth j) {fuel : Nat} (enough : (js.flatMap laterItem).length < fuel)
    (s : List Char) : items fuel depth false (js.flatMap laterItem ++ ']' :: s) = .ok (js, s) := by
  induction js generalizing fuel with
  | nil =>
    obtain ⟨fuel, rfl⟩ := Nat.exists_eq_succ_of_ne_zero (Nat.ne_of_gt (Nat.zero_lt_of_lt enough))
    unfold items
    rw [List.flatMap_nil, List.nil_append, nextItem_end]
  | cons j js ih =>
    obtain ⟨fuel, rfl⟩ := Nat.exists_eq_succ_of_ne_zero (Nat.ne_of_gt (Nat.zero_lt_of_lt enough))
    have start := starts j List.mem_cons_self
    have pos := start.pos
    simp only [List.flatMap_cons, laterItem, List.length_append, List.length_cons] at enough
    unfold items
    simp only [List.flatMap_cons, laterItem, List.cons_append, List.append_assoc]
    rw [nextItem_comma (start.append _)]
    dsimp only
    rw [read j List.mem_cons_self _ _ (by omega) (closes_items js s)]
    dsimp only
    rw [ih (fun k mem => starts k (List.mem_cons_of_mem j mem)) (fun k mem => read k (List.mem_cons_of_mem j mem))
      (by omega)]
    rfl

theorem items_chars {depth : Nat} {js : List Json} (starts : ∀ j ∈ js, Starts (chars j))
    (read : ∀ j ∈ js, ReadBack depth j) {fuel : Nat} (enough : (commas (itemChars js)).length < fuel) (s : List Char) :
    items fuel depth true (commas (itemChars js) ++ ']' :: s) = .ok (js, s) := by
  obtain ⟨fuel, rfl⟩ := Nat.exists_eq_succ_of_ne_zero (Nat.ne_of_gt (Nat.zero_lt_of_lt enough))
  unfold items
  cases js with
  | nil =>
    rw [itemChars, commas, List.nil_append, nextItem_end]
  | cons j js =>
    have start := starts j List.mem_cons_self
    have pos := start.pos
    rw [commas_itemChars] at enough ⊢
    rw [List.length_append] at enough
    rw [List.append_assoc, nextItem_first (start.append _)]
    dsimp only
    rw [read j List.mem_cons_self _ _ (by omega) (closes_items js s)]
    dsimp only
    rw [items_later (fun k mem => starts k (List.mem_cons_of_mem j mem))
      (fun k mem => read k (List.mem_cons_of_mem j mem)) (by omega)]
    rfl

theorem readBack_array {depth : Nat} {js : List Json} (starts : ∀ j ∈ js, Starts (chars j))
    (read : ∀ j ∈ js, ReadBack depth j) (deep : 1 ≤ depth) : ReadBack (depth + 1) (.array js) := by
  intro fuel s enough _
  simp only [chars, List.length_cons, List.length_append, List.length_nil] at enough
  obtain ⟨fuel, rfl⟩ := Nat.exists_eq_succ_of_ne_zero (show fuel ≠ 0 by omega)
  have text : chars (.array js) ++ s = '[' :: (commas (itemChars js) ++ ']' :: s) := by simp [chars]
  rw [text]
  unfold value
  rw [skipBlank_cons (by decide)]
  simp [Decimal.isDigit, Decimal.digit?, items_chars starts read (show _ < fuel by omega), Except.map,
    show ¬ depth = 0 by omega]

theorem closes_members (ms : List (String × Json)) (s : List Char) :
    Closes (ms.flatMap laterMember ++ '\x7d' :: s) := by
  cases ms with
  | nil => exact closes_object s
  | cons m ms => exact closes_comma _

theorem members_later {depth : Nat} {ms : List (String × Json)} (read : ∀ m ∈ ms, ReadBack depth m.2) {fuel : Nat}
    (enough : (ms.flatMap laterMember).length < fuel) (s : List Char) :
    members fuel depth false (ms.flatMap laterMember ++ '\x7d' :: s) = .ok (ms, s) := by
  induction ms generalizing fuel with
  | nil =>
    obtain ⟨fuel, rfl⟩ := Nat.exists_eq_succ_of_ne_zero (Nat.ne_of_gt (Nat.zero_lt_of_lt enough))
    unfold members
    rw [List.flatMap_nil, List.nil_append, nextName_end]
  | cons m ms ih =>
    obtain ⟨fuel, rfl⟩ := Nat.exists_eq_succ_of_ne_zero (Nat.ne_of_gt (Nat.zero_lt_of_lt enough))
    simp only [List.flatMap_cons, laterMember, List.length_append, List.length_cons] at enough
    unfold members
    simp only [List.flatMap_cons, laterMember, List.cons_append, List.append_assoc]
    rw [quoted_append, nextName_comma]
    dsimp only
    rw [stringTail_escapes]
    dsimp only
    rw [colon_cons]
    dsimp only
    rw [read m List.mem_cons_self _ _ (by omega) (closes_members ms s)]
    dsimp only
    rw [ih (fun k mem => read k (List.mem_cons_of_mem m mem)) (by omega)]
    rfl

theorem members_chars {depth : Nat} {ms : List (String × Json)} (read : ∀ m ∈ ms, ReadBack depth m.2) {fuel : Nat}
    (enough : (commas (memberChars ms)).length < fuel) (s : List Char) :
    members fuel depth true (commas (memberChars ms) ++ '\x7d' :: s) = .ok (ms, s) := by
  obtain ⟨fuel, rfl⟩ := Nat.exists_eq_succ_of_ne_zero (Nat.ne_of_gt (Nat.zero_lt_of_lt enough))
  unfold members
  cases ms with
  | nil =>
    rw [memberChars, commas, List.nil_append, nextName_end]
  | cons m ms =>
    rw [commas_memberChars] at enough ⊢
    simp only [List.length_append, List.length_cons] at enough
    rw [List.append_assoc, quoted_append, nextName_first]
    dsimp only
    rw [stringTail_escapes]
    dsimp only [List.cons_append]
    rw [colon_cons]
    dsimp only
    rw [List.append_assoc, read m List.mem_cons_self _ _ (by omega) (closes_members ms s)]
    dsimp only
    rw [members_later (fun k mem => read k (List.mem_cons_of_mem m mem)) (by omega)]
    rfl

theorem readBack_object {depth : Nat} {ms : List (String × Json)} (ordered : ms.Pairwise fun m n => m.1 < n.1)
    (read : ∀ m ∈ ms, ReadBack depth m.2) (deep : 1 ≤ depth) : ReadBack (depth + 1) (.object ms) := by
  intro fuel s enough _
  simp only [chars, List.length_cons, List.length_append, List.length_nil] at enough
  obtain ⟨fuel, rfl⟩ := Nat.exists_eq_succ_of_ne_zero (show fuel ≠ 0 by omega)
  have text : chars (.object ms) ++ s = '\x7b' :: (commas (memberChars ms) ++ '\x7d' :: s) := by simp [chars]
  rw [text]
  unfold value
  rw [skipBlank_cons (by decide)]
  simp [Decimal.isDigit, Decimal.digit?, members_chars read (show _ < fuel by omega), Except.map,
    show ¬ depth = 0 by omega, sortMembers_of_ordered ordered]

theorem Restorable.readBack {n : Nat} {j : Json} (h : Restorable n j) {depth : Nat} (deep : n < depth) :
    ReadBack depth j := by
  -- the reader has room for one list or object more than the value needs, at every level
  induction h generalizing depth with
  | null =>
    intro fuel s enough _
    obtain ⟨fuel, rfl⟩ := Nat.exists_eq_succ_of_ne_zero (Nat.ne_of_gt (Nat.zero_lt_of_lt enough))
    rfl
  | bool _ b =>
    intro fuel s enough _
    cases b <;>
    · obtain ⟨fuel, rfl⟩ := Nat.exists_eq_succ_of_ne_zero (Nat.ne_of_gt (Nat.zero_lt_of_lt enough))
      rfl
  | integer _ n => exact readBack_integer depth n
  | string _ t => exact readBack_string depth t
  | array items ih =>
    obtain ⟨depth, rfl⟩ := Nat.exists_eq_succ_of_ne_zero (show depth ≠ 0 by omega)
    exact readBack_array (fun j mem => (items j mem).starts) (fun j mem => ih j mem (by omega)) (by omega)
  | object ordered _ ih =>
    obtain ⟨depth, rfl⟩ := Nat.exists_eq_succ_of_ne_zero (show depth ≠ 0 by omega)
    exact readBack_object ordered (fun m mem => ih m mem (by omega)) (by omega)

end Courier.Json
