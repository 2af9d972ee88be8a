import Courier.Proofs.Encodings
set_option autoImplicit false

namespace Courier.Text

inductive Reads : List UInt8 → List Char → Prop
  | done : Reads [] []
  | char (c : Char) {r : List UInt8} {t : List Char} (rest : Reads r t) : Reads (String.utf8EncodeChar c ++ r) (c :: t)
  | cut {p r : List UInt8} {t : List Char} (nonempty : p ≠ []) (begins : Begins p)
    (unfinished : ∀ c, p ≠ String.utf8EncodeChar c) (stops : ∀ b ∈ r.head?, ¬ Begins (p ++ [b])) (rest : Reads r t) :
    Reads (p ++ r) (replacement :: t)
  | stray {b : UInt8} {r : List UInt8} {t : List Char} (unled : ¬ Begins [b]) (rest : Reads r t) :
    Reads (b :: r) (replacement :: t)

/-! ### The reading loop -/

theorem decodeLoop_out (out : List Char) (p : Option Partial) (bs : List UInt8) :
    decodeLoop out p bs = out.reverse ++ decodeLoop [] p bs := by
  induction bs generalizing out p with
  | nil => cases p <;> simp [decodeLoop]
  | cons b r ih =>
    cases p with
    | none =>
      unfold decodeLoop
      cases beginByte b.toNat with
      | inl c => simp [ih (c :: out), ih [c]]
      | inr q => exact ih out _
    | some q =>
      unfold decodeLoop
      dsimp only
      split_ifs
      · simp [ih (_ :: out), ih [_]]
      · exact ih out _
      · cases beginByte b.toNat with
        | inl c => simp [ih (c :: _ :: out), ih [c, _]]
        | inr q => simp [ih (_ :: out), ih [_]]

/-- A byte that a sequence does not allow ends it, and is read anew. -/
theorem decodeLoop_refused {q : Partial} {b : UInt8} (refused : ¬ (q.low ≤ b.toNat ∧ b.toNat ≤ q.high))
    (r : List UInt8) : decodeLoop [] (some q) (b :: r) = replacement :: decodeLoop [] none (b :: r) := by
  conv_lhs => rw [decodeLoop, if_neg refused]
  rw [decodeLoop]
  cases beginByte b.toNat with
  | inl c => simp [decodeLoop_out [c, _], decodeLoop_out [c]]
  | inr q => simp [decodeLoop_out [_]]

theorem reads_begin {b : UInt8} {r : List UInt8} (rest : Reads r (decodeLoop [] none r))
    (under : ∀ (q : Partial) (p : List UInt8), q.After p → Reads (p ++ r) (decodeLoop [] (some q) r)) :
    Reads (b :: r) (decodeLoop [] none (b :: r)) := by
  rw [decodeLoop]
  cases begun : beginByte b.toNat with
  | inl c =>
    dsimp only
    rw [decodeLoop_out]
    obtain ⟨ascii, rfl⟩ | ⟨rfl, unled⟩ := single_of_beginByte begun
    · have read := Reads.char (Char.ofNat b.toNat) rest
      rwa [encode_ascii ascii] at read
    · exact .stray (not_begins_of_beginByte unled) rest
  | inr q => exact under q [b] (leads_of_beginByte begun).after

theorem Partial.After.reads_cut {q : Partial} {p r : List UInt8} {t : List Char} (after : q.After p)
    (stops : ∀ b ∈ r.head?, ¬ (q.low ≤ b.toNat ∧ b.toNat ≤ q.high)) (rest : Reads r t) :
    Reads (p ++ r) (replacement :: t) :=
  .cut after.nonempty after.begins after.unfinished (fun b hb => mt after.begins_iff.mp (stops b hb)) rest

/-- By induction on the bytes, together with what a sequence under way makes of them. -/
theorem reads_decodeLoop (bs : List UInt8) : Reads bs (decodeLoop [] none bs) ∧
    ∀ (q : Partial) (p : List UInt8), q.After p → Reads (p ++ bs) (decodeLoop [] (some q) bs) := by
  induction bs with
  | nil => exact ⟨.done, fun q p after => after.reads_cut (by simp) .done⟩
  | cons b r ih =>
    obtain ⟨rest, under⟩ := ih
    have anew := reads_begin (b := b) rest under
    refine ⟨anew, fun q p after => ?_⟩
    by_cases allowed : q.low ≤ b.toNat ∧ b.toNat ≤ q.high
    · rw [decodeLoop, if_pos allowed]
      dsimp only
      have pos := after.missing_pos
      split_ifs with last
      -- the byte is the last one of a character, or one more of a sequence that is under way still
      · have read := Reads.char (Char.ofNat (q.value * 64 + b.toNat % 64)) rest
        rw [after.last (by omega) allowed.1 allowed.2, List.append_assoc] at read
        rwa [decodeLoop_out]
      · have missing : q.missing = q.missing - 2 + 2 := by omega
        have read := under _ _ (after.more missing allowed.1 allowed.2)
        rw [List.append_assoc, show q.missing - 2 + 1 = q.missing - 1 by omega] at read
        exact read
    · rw [decodeLoop_refused allowed]
      refine after.reads_cut (fun c hc => ?_) anew
      obtain rfl : b = c := by simpa using hc
      exact allowed

/-! ### One reading -/

theorem encode_append_inj {c d : Char} {r u : List UInt8}
    (same : String.utf8EncodeChar c ++ r = String.utf8EncodeChar d ++ u) : c = d := by
  have bytes := congrArg (fun x : List UInt8 => x.toByteArray.utf8DecodeChar? 0) same
  simp only [List.toByteArray_append, ByteArray.utf8DecodeChar?_utf8EncodeChar_append] at bytes
  exact Option.some.inj bytes

theorem eq_of_starts {c d : Char} (starts : String.utf8EncodeChar c <+: String.utf8EncodeChar d) : c = d := by
  obtain ⟨r, longer⟩ := starts
  exact encode_append_inj (u := []) (by rw [longer, List.append_nil])

theorem Begins.shorter {p u : List UInt8} (begins : Begins u) (starts : p <+: u) : Begins p := by
  obtain ⟨c, longer⟩ := begins
  exact ⟨c, starts.trans longer⟩

theorem Begins.first {b : UInt8} {p r u : List UInt8} (begins : Begins p) (nonempty : p ≠ []) (same : p ++ r = b :: u) :
    Begins [b] := by
  obtain ⟨a, as, rfl⟩ := List.exists_cons_of_ne_nil nonempty
  obtain ⟨rfl, -⟩ := List.cons.inj same
  exact begins.shorter ⟨as, rfl⟩

theorem begins_encode (c : Char) : Begins (String.utf8EncodeChar c) := ⟨c, List.prefix_refl _⟩

/-- Bytes that begin an encoding reach no further than those that cannot be continued. -/
theorem prefix_of_stops {p r u : List UInt8} (stops : ∀ b ∈ r.head?, ¬ Begins (p ++ [b])) (begins : Begins u)
    (starts : u <+: p ++ r) : u <+: p := by
  obtain shorter | longer := List.prefix_or_prefix_of_prefix starts (List.prefix_append p r)
  · exact shorter
  · obtain ⟨v, rfl⟩ := longer
    cases v with
    | nil => simp
    | cons b v =>
      have next : b :: v <+: r := (List.prefix_append_right_inj p).mp starts
      obtain ⟨w, rfl⟩ := next
      exact absurd (begins.shorter ⟨v, by simp⟩) (stops b rfl)

/-- No character is encoded where bytes stand that begin an encoding but do not go on with it. -/
theorem encode_append_ne {c : Char} {p r u : List UInt8} (begins : Begins p) (unfinished : ∀ c, p ≠ String.utf8EncodeChar c)
    (stops : ∀ b ∈ r.head?, ¬ Begins (p ++ [b])) : String.utf8EncodeChar c ++ u ≠ p ++ r := by
  intro same
  have within := prefix_of_stops stops (begins_encode c) (same ▸ List.prefix_append _ _)
  obtain ⟨d, longer⟩ := begins
  obtain rfl := eq_of_starts (within.trans longer)
  exact unfinished c (longer.eq_of_length_le within.length_le)

namespace Reads

variable {c : Char} {b : UInt8} {p r bs : List UInt8} {t u : List Char}

theorem of_char (reads : Reads (String.utf8EncodeChar c ++ r) t) : ∃ u, t = c :: u ∧ Reads r u := by
  generalize hbs : String.utf8EncodeChar c ++ r = bs at reads
  cases reads with
  | done => exact absurd (List.append_eq_nil_iff.mp hbs).1 String.utf8EncodeChar_ne_nil
  | char d rest =>
    obtain rfl := encode_append_inj hbs
    exact ⟨_, rfl, List.append_cancel_left hbs ▸ rest⟩
  | cut _ begins unfinished stops => exact absurd hbs (encode_append_ne begins unfinished stops)
  | stray unled => exact absurd ((begins_encode c).first String.utf8EncodeChar_ne_nil hbs) unled

theorem of_cut (nonempty : p ≠ []) (begins : Begins p) (unfinished : ∀ c, p ≠ String.utf8EncodeChar c)
    (stops : ∀ b ∈ r.head?, ¬ Begins (p ++ [b])) (reads : Reads (p ++ r) t) : ∃ u, t = replacement :: u ∧ Reads r u := by
  generalize hbs : p ++ r = bs at reads
  cases reads with
  | done => exact absurd (List.append_eq_nil_iff.mp hbs).1 nonempty
  | char => exact absurd hbs.symm (encode_append_ne begins unfinished stops)
  | cut _ begins' _ stops' rest =>
    have shorter := prefix_of_stops stops begins' (hbs ▸ List.prefix_append _ _)
    have longer := prefix_of_stops stops' begins (hbs ▸ List.prefix_append _ _)
    obtain rfl := longer.eq_of_length_le shorter.length_le
    exact ⟨_, rfl, List.append_cancel_left hbs ▸ rest⟩
  | stray unled => exact absurd (begins.first nonempty hbs) unled

theorem of_stray (unled : ¬ Begins [b]) (reads : Reads (b :: r) t) : ∃ u, t = replacement :: u ∧ Reads r u := by
  generalize hbs : b :: r = bs at reads
  cases reads with
  | done => cases hbs
  | char c => exact absurd ((begins_encode c).first String.utf8EncodeChar_ne_nil hbs.symm) unled
  | cut nonempty begins => exact absurd (begins.first nonempty hbs.symm) unled
  | stray _ rest =>
    obtain ⟨rfl, rfl⟩ := List.cons.inj hbs
    exact ⟨_, rfl, rest⟩

theorem unique (reads : Reads bs t) (reads' : Reads bs u) : t = u := by
  induction reads generalizing u with
  | done =>
    generalize hbs : ([] : List UInt8) = bs at reads'
    cases reads' with
    | done => rfl
    | char => exact absurd (List.append_eq_nil_iff.mp hbs.symm).1 String.utf8EncodeChar_ne_nil
    | cut nonempty => exact absurd (List.append_eq_nil_iff.mp hbs.symm).1 nonempty
    | stray => cases hbs
  | char c _ ih =>
    obtain ⟨u, rfl, rest⟩ := reads'.of_char
    rw [ih rest]
  | cut nonempty begins unfinished stops _ ih =>
    obtain ⟨u, rfl, rest⟩ := reads'.of_cut nonempty begins unfinished stops
    rw [ih rest]
  | stray unled _ ih =>
    obtain ⟨u, rfl, rest⟩ := reads'.of_stray unled
    rw [ih rest]

end Reads

/-- Bytes are read as exactly one text, which the loop finds. -/
theorem reads_iff {bs : List UInt8} {t : List Char} : Reads bs t ↔ t = decodeLossy bs := by
  have reads : Reads bs (decodeLossy bs) := (reads_decodeLoop bs).1
  exact ⟨fun reads' => reads'.unique reads, fun same => same ▸ reads⟩

/-- Two bytes that begin a longer encoding are one replacement, and so is a byte that begins none. -/
example : decodeLossy [0xE2, 0x82, 0x61, 0xFF] = [replacement, 'a', replacement] := by decide

/-! ### A text that is cut -/

theorem utf8_cons (c : Char) (s : List Char) : utf8 (c :: s) = String.utf8EncodeChar c ++ utf8 s := List.flatMap_cons

theorem utf8_append (s t : List Char) : utf8 (s ++ t) = utf8 s ++ utf8 t := List.flatMap_append

theorem length_utf8_cons (c : Char) (s : List Char) : (utf8 (c :: s)).length = c.utf8Size + (utf8 s).length := by
  rw [utf8_cons, List.length_append, String.length_utf8EncodeChar]

/-- The characters of a text whose encodings lie wholly within its first bytes, so many of them. -/
def fitting : Nat → List Char → List Char
  | _, [] => []
  | n, c :: r => if c.utf8Size ≤ n then c :: fitting (n - c.utf8Size) r else []

theorem fitting_starts (n : Nat) (s : List Char) : fitting n s <+: s := by
  induction s generalizing n with
  | nil => exact List.nil_prefix
  | cons c r ih =>
    unfold fitting
    split_ifs
    · exact List.cons_prefix_cons.mpr ⟨rfl, ih _⟩
    · exact List.nil_prefix

theorem utf8_fitting_le (n : Nat) (s : List Char) : (utf8 (fitting n s)).length ≤ n := by
  induction s generalizing n with
  | nil => exact Nat.zero_le _
  | cons c r ih =>
    unfold fitting
    split_ifs with fits
    · have rest := ih (n - c.utf8Size)
      rw [length_utf8_cons]
      omega
    · exact Nat.zero_le _

/-- The character after those that fit does not fit. -/
theorem lt_of_fitting_next {n : Nat} {s r : List Char} {c : Char} (next : fitting n s ++ c :: r = s) :
    n < (utf8 (fitting n s)).length + c.utf8Size := by
  induction s generalizing n with
  | nil => simp at next
  | cons d s ih =>
    unfold fitting at next ⊢
    split_ifs at next ⊢ with fits
    · have rest := ih (List.cons.inj next).2
      rw [length_utf8_cons]
      omega
    · obtain ⟨rfl, -⟩ := List.cons.inj next
      have none : (utf8 []).length = 0 := rfl
      omega

namespace Reads

theorem of_utf8 (s : List Char) : Reads (utf8 s) s := by
  induction s with
  | nil => exact .done
  | cons c s ih => exact .char c ih

/-- A byte is read as three at most. -/
theorem size_le {bs : List UInt8} {t : List Char} (reads : Reads bs t) : (utf8 t).length ≤ 3 * bs.length := by
  have mark : replacement.utf8Size = 3 := by decide
  induction reads with
  | done => exact Nat.le_refl _
  | char c _ ih =>
    rw [length_utf8_cons, List.length_append, String.length_utf8EncodeChar]
    omega
  | cut nonempty _ _ _ _ ih =>
    have pos := List.length_pos_iff.mpr nonempty
    rw [length_utf8_cons, List.length_append, mark]
    omega
  | stray _ _ ih =>
    rw [length_utf8_cons, List.length_cons, mark]
    omega

/-- No byte is lost: what is replaced is of three bytes at most. -/
theorem le_size {bs : List UInt8} {t : List Char} (reads : Reads bs t) : bs.length ≤ (utf8 t).length := by
  have mark : replacement.utf8Size = 3 := by decide
  induction reads with
  | done => exact Nat.le_refl _
  | char c _ ih =>
    rw [length_utf8_cons, List.length_append, String.length_utf8EncodeChar]
    omega
  | cut _ begins unfinished _ _ ih =>
    obtain ⟨c, starts⟩ := begins
    have size := String.length_utf8EncodeChar c
    have four := c.utf8Size_le_four
    have short := mt starts.eq_of_length_le (unfinished c)
    rw [length_utf8_cons, List.length_append, mark]
    omega
  | stray _ _ ih =>
    rw [length_utf8_cons, List.length_cons, mark]
    omega

theorem of_cut_encoding {c : Char} {n : Nat} (pos : 0 < n) (short : n < c.utf8Size) :
    Reads ((String.utf8EncodeChar c).take n) [replacement] := by
  have size : ((String.utf8EncodeChar c).take n).length = n := by
    rw [List.length_take, String.length_utf8EncodeChar]
    omega
  have nonempty : (String.utf8EncodeChar c).take n ≠ [] := by
    rw [← List.length_pos_iff, size]
    exact pos
  have read := Reads.cut (r := []) nonempty ⟨c, List.take_prefix _ _⟩ ?_ ?_ .done
  · rwa [List.append_nil] at read
  · intro d whole
    obtain rfl : d = c := eq_of_starts (whole ▸ List.take_prefix _ _)
    rw [whole, String.length_utf8EncodeChar] at size
    omega
  · intro b hb
    cases hb

end Reads

/-- Of the first bytes of a text the characters that fit are read, and a replacement for one that is cut. -/
theorem reads_take {n : Nat} {s : List Char} (within : n ≤ (utf8 s).length) :
    Reads ((utf8 s).take n) (fitting n s ++ if (utf8 (fitting n s)).length < n then [replacement] else []) := by
  induction s generalizing n with
  | nil =>
    obtain rfl : n = 0 := Nat.le_zero.mp within
    exact .done
  | cons c s ih =>
    rw [length_utf8_cons] at within
    rw [utf8_cons, List.take_append, String.length_utf8EncodeChar, fitting]
    by_cases fits : c.utf8Size ≤ n
    · have split : (utf8 (c :: fitting (n - c.utf8Size) s)).length < n ↔
          (utf8 (fitting (n - c.utf8Size) s)).length < n - c.utf8Size := by
        rw [length_utf8_cons]
        omega
      rw [if_pos fits, List.take_of_length_le (by rw [String.length_utf8EncodeChar]; exact fits)]
      simp only [split]
      exact .char c (ih (by omega))
    · rw [if_neg fits, show n - c.utf8Size = 0 by omega, List.take_zero, List.append_nil]
      obtain rfl | pos := Nat.eq_zero_or_pos n
      · exact .done
      · have split : (utf8 []).length < n := pos
        rw [if_pos split]
        exact .of_cut_encoding pos (by omega)

end Courier.Text
