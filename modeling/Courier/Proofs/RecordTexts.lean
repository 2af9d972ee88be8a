import Courier.Delivery
import Courier.Event
import Courier.Proofs.FieldTexts
import Courier.Webhook
set_option autoImplicit false

namespace Courier

namespace Json

def Slots.filled (names : List String) : (fs : List Field) → Row fs → Slots fs
  | [], _ => ()
  | f :: r, row =>
    (if f.written ∧ f.name ∈ names then some row.1 else none, Slots.filled names r row.2)

/-- The row after writing and reading: fields that are not written take their fallbacks. -/
def restored : (fs : List Field) → Row fs → Row fs
  | [], _ => ()
  | f :: r, row => (if f.written then row.1 else f.fallback.getD row.1, restored r row.2)

def RowRestorable (depth : Nat) : (fs : List Field) → Row fs → Prop
  | [], _ => True
  | f :: r, row => (f.written = true → f.shape.Restorable depth row.1) ∧ RowRestorable depth r row.2

theorem Slots.filled_nil (fs : List Field) (row : Row fs) : Slots.filled [] fs row = Slots.empty fs := by
  induction fs with
  | nil => rfl
  | cons f r ih =>
    unfold Slots.filled Slots.empty
    rw [ih, if_neg (by simp)]

theorem Slots.filled_cons (name : String) (names : List String) (fs : List Field) (other : name ∉ fs.map (·.name))
    (row : Row fs) : Slots.filled (name :: names) fs row = Slots.filled names fs row := by
  induction fs with
  | nil => rfl
  | cons f r ih =>
    rw [List.map_cons, List.mem_cons, not_or] at other
    unfold Slots.filled
    rw [ih other.2]
    simp [Ne.symm other.1]

theorem name_of_mem_rowChars {fs : List Field} {row : Row fs} {m : String × List Char}
    (mem : m ∈ Schema.rowChars fs row) : m.1 ∈ fs.map (·.name) := by
  induction fs with
  | nil => cases mem
  | cons f r ih =>
    unfold Schema.rowChars at mem
    split at mem
    · rcases List.mem_cons.mp mem with rfl | mem
      · exact List.mem_cons_self
      · exact List.mem_cons_of_mem _ (ih mem)
    · exact List.mem_cons_of_mem _ (ih mem)

/-- A written member goes to the slot of its field, if the name has not been read before. -/
theorem readMember_filled {depth : Nat} {fs : List Field} (distinct : (fs.map (·.name)).Nodup) {row : Row fs}
    (h : RowRestorable depth fs row) {m : String × List Char} (mem : m ∈ Schema.rowChars fs row)
    {names : List String} (unread : m.1 ∉ names) {s : List Char} (closed : Closes s) :
    Slots.readMember depth m.1 fs (Slots.filled names fs row) (':' :: (m.2 ++ s))
      = .ok (some (Slots.filled (m.1 :: names) fs row, s)) := by
  induction fs with
  | nil => cases mem
  | cons f r ih =>
    rw [List.map_cons, List.nodup_cons] at distinct
    unfold Schema.rowChars at mem
    -- the slot of a later field lies behind this one, whose name is another
    have later : m ∈ Schema.rowChars r row.2 → Slots.readMember depth m.1 (f :: r) (Slots.filled names (f :: r) row)
        (':' :: (m.2 ++ s)) = .ok (some (Slots.filled (m.1 :: names) (f :: r) row, s)) := by
      intro mem
      have other : f.name ≠ m.1 := fun same => distinct.1 (same ▸ name_of_mem_rowChars mem)
      unfold Slots.readMember Slots.filled
      rw [if_neg other, ih distinct.2 h.2 mem]
      simp [other]
    split at mem
    · next written =>
      rcases List.mem_cons.mp mem with rfl | mem
      · unfold Slots.readMember Slots.filled
        rw [if_pos rfl, if_neg (fun read => unread read.2)]
        dsimp only
        rw [colon_cons]
        dsimp only
        rw [Shape.read_chars (h.1 written) closed, if_pos ⟨written, List.mem_cons_self⟩,
          Slots.filled_cons _ _ _ distinct.1]
      · exact later mem
    · exact later mem

theorem complete_filled {fs : List Field} {names : List String}
    (read : ∀ f ∈ fs, f.written = true → f.name ∈ names)
    (replaced : ∀ f ∈ fs, f.written = false → f.fallback.isSome = true) (row : Row fs) (left : List Char) :
    Slots.complete left fs (Slots.filled names fs row) = .ok (restored fs row) := by
  induction fs with
  | nil => rfl
  | cons f r ih =>
    have rest := ih (fun g mem => read g (List.mem_cons_of_mem f mem))
      (fun g mem => replaced g (List.mem_cons_of_mem f mem)) row.2
    unfold Slots.complete Slots.filled restored
    cases written : f.written with
    | true =>
      have known := read f List.mem_cons_self written
      simp [known, rest, Except.map]
    | false =>
      obtain ⟨x, hx⟩ := Option.isSome_iff_exists.mp (replaced f List.mem_cons_self written)
      simp [hx, rest, Except.map]

def laterField (m : String × List Char) : List Char := ',' :: (quoted m.1 ++ ':' :: m.2)

theorem closes_fields (ms : List (String × List Char)) (s : List Char) :
    Closes (ms.flatMap laterField ++ '\x7d' :: s) := by
  cases ms with
  | nil => exact closes_object s
  | cons m ms => exact closes_comma _

section Members

variable {depth : Nat} {fs : List Field} {row : Row fs}

theorem readMembers_later (distinct : (fs.map (·.name)).Nodup) (h : RowRestorable depth fs row)
    {todo : List (String × List Char)} (own : ∀ m ∈ todo, m ∈ Schema.rowChars fs row)
    (once : (todo.map (·.1)).Nodup) {names : List String} (unread : ∀ m ∈ todo, m.1 ∉ names) {fuel : Nat}
    (enough : (todo.flatMap laterField).length < fuel) (s : List Char) :
    readMembers fs depth fuel false (Slots.filled names fs row) (todo.flatMap laterField ++ '\x7d' :: s)
      = (Slots.complete s fs (Slots.filled ((todo.map (·.1)).reverse ++ names) fs row)).map fun row => (row, s) := by
  -- each of the members still to come fills the slot of its name
  induction todo generalizing names fuel with
  | nil =>
    obtain ⟨fuel, rfl⟩ := Nat.exists_eq_succ_of_ne_zero (Nat.ne_of_gt (Nat.zero_lt_of_lt enough))
    unfold readMembers
    rw [List.flatMap_nil, List.nil_append, nextName_end]
    rfl
  | cons m todo ih =>
    obtain ⟨fuel, rfl⟩ := Nat.exists_eq_succ_of_ne_zero (Nat.ne_of_gt (Nat.zero_lt_of_lt enough))
    simp only [List.flatMap_cons, laterField, List.length_append, List.length_cons] at enough
    rw [List.map_cons, List.nodup_cons] at once
    have fresh : ∀ k ∈ todo, k.1 ∉ m.1 :: names := by
      intro k mem read
      rcases List.mem_cons.mp read with same | read
      · exact once.1 (same ▸ List.mem_map_of_mem mem)
      · exact unread k (List.mem_cons_of_mem m mem) read
    unfold readMembers
    simp only [List.flatMap_cons, laterField, List.cons_append, List.append_assoc]
    rw [quoted_append, nextName_comma]
    dsimp only
    rw [stringTail_escapes]
    dsimp only
    rw [readMember_filled distinct h (own m List.mem_cons_self) (unread m List.mem_cons_self) (closes_fields todo s)]
    dsimp only
    rw [ih (fun k mem => own k (List.mem_cons_of_mem m mem)) once.2 fresh (by omega)]
    simp

theorem readMembers_chars (distinct : (fs.map (·.name)).Nodup) (h : RowRestorable depth fs row)
    {todo : List (String × List Char)} (own : ∀ m ∈ todo, m ∈ Schema.rowChars fs row)
    (once : (todo.map (·.1)).Nodup) {fuel : Nat}
    (enough : (commas (todo.map fun m => quoted m.1 ++ ':' :: m.2)).length < fuel) (s : List Char) :
    readMembers fs depth fuel true (Slots.empty fs) (commas (todo.map fun m => quoted m.1 ++ ':' :: m.2) ++ '\x7d' :: s)
      = (Slots.complete s fs (Slots.filled (todo.map (·.1)).reverse fs row)).map fun row => (row, s) := by
  obtain ⟨fuel, rfl⟩ := Nat.exists_eq_succ_of_ne_zero (Nat.ne_of_gt (Nat.zero_lt_of_lt enough))
  rw [← Slots.filled_nil fs row]
  unfold readMembers
  cases todo with
  | nil =>
    rw [List.map_nil, commas, List.nil_append, nextName_end]
    rfl
  | cons m todo =>
    rw [List.map_cons, commas_cons, List.flatMap_map] at enough ⊢
    simp only [List.length_append, List.length_cons] at enough
    rw [List.map_cons, List.nodup_cons] at once
    have fresh : ∀ k ∈ todo, k.1 ∉ [m.1] := by
      intro k mem read
      exact once.1 (List.mem_singleton.mp read ▸ List.mem_map_of_mem mem)
    simp only [List.append_assoc, List.cons_append]
    rw [quoted_append, nextName_first]
    dsimp only
    rw [stringTail_escapes]
    dsimp only
    have first := readMember_filled distinct h (own m List.mem_cons_self) (List.not_mem_nil : m.1 ∉ [])
      (closes_fields todo s)
    unfold laterField at first
    rw [first]
    dsimp only
    have short : (todo.flatMap laterField).length < fuel := by
      unfold laterField
      omega
    have rest := readMembers_later distinct h (fun k mem => own k (List.mem_cons_of_mem m mem)) once.2 fresh short s
    unfold laterField at rest
    rw [rest]
    simp

end Members

theorem map_fst_rowChars (fs : List Field) (row : Row fs) :
    (Schema.rowChars fs row).map (·.1) = (fs.filter (·.written)).map (·.name) := by
  induction fs with
  | nil => rfl
  | cons f r ih =>
    unfold Schema.rowChars
    cases written : f.written <;> simp [written, ih row.2]

namespace Schema

variable {α : Type} {schema : Schema α}

structure Complete (schema : Schema α) : Prop where
  distinct : (schema.fields.map (·.name)).Nodup
  replaced : ∀ f ∈ schema.fields, f.written = false → f.fallback.isSome = true

def kept (schema : Schema α) (x : α) : α := schema.ofRow (restored schema.fields (schema.toRow x))

theorem readMembers_row (sound : schema.Complete) {depth : Nat} {row : Row schema.fields}
    (h : RowRestorable depth schema.fields row) (fuel : Nat)
    (enough : (commas ((rowChars schema.fields row).map fun m => quoted m.1 ++ ':' :: m.2)).length < fuel)
    (s : List Char) :
    readMembers schema.fields depth fuel true (Slots.empty schema.fields)
        (commas ((rowChars schema.fields row).map fun m => quoted m.1 ++ ':' :: m.2) ++ '\x7d' :: s)
      = .ok (restored schema.fields row, s) := by
  have once : ((rowChars schema.fields row).map (·.1)).Nodup := by
    rw [map_fst_rowChars]
    exact sound.distinct.sublist (List.filter_sublist.map _)
  have read : ∀ f ∈ schema.fields, f.written = true → f.name ∈ ((rowChars schema.fields row).map (·.1)).reverse := by
    intro f mem written
    rw [List.mem_reverse, map_fst_rowChars]
    exact List.mem_map_of_mem (List.mem_filter.mpr ⟨mem, written⟩)
  rw [readMembers_chars sound.distinct h (fun _ mem => mem) once enough, complete_filled read sound.replaced]
  rfl

theorem parse_print (sound : schema.Complete) {x : α}
    (h : RowRestorable (depthLimit - 1) schema.fields (schema.toRow x)) :
    schema.parse (schema.print x) = .ok (schema.kept x) := by
  have row := readMembers_row sound h _ (Nat.lt_succ_of_le (Nat.le_add_right _ 1)) []
  unfold parse print
  rw [String.toList_ofList]
  unfold read Schema.chars recordChars
  rw [skipBlank_cons (by decide)]
  dsimp only
  rw [if_neg (by decide), if_pos rfl, List.length_append, List.length_singleton, row]
  rfl

end Schema

/-! ### Fields of any value -/

def Shape.isScalar : Shape → Bool
  | .json => false
  | .list _ => false
  | .optional s => !s.nullable && s.isScalar
  | _ => true

theorem Shape.restorable_of_scalar {s : Shape} (scalar : s.isScalar = true) (depth : Nat) (x : s.Carrier) :
    s.Restorable depth x := by
  induction s with
  | json => cases scalar
  | list s _ => cases scalar
  | optional s ih =>
    unfold Shape.isScalar at scalar
    rw [Bool.and_eq_true, Bool.not_eq_true'] at scalar
    cases x with
    | none => trivial
    | some x => exact ⟨scalar.1, ih scalar.2 x⟩
  | _ => trivial

theorem rowRestorable_of_scalars {fs : List Field} (scalars : ∀ f ∈ fs, f.shape.isScalar = true) (depth : Nat)
    (row : Row fs) : RowRestorable depth fs row := by
  induction fs with
  | nil => trivial
  | cons f r ih =>
    exact ⟨fun _ => Shape.restorable_of_scalar (scalars f List.mem_cons_self) depth row.1,
      ih (fun g mem => scalars g (List.mem_cons_of_mem f mem)) row.2⟩

end Json

open Json

theorem restorable_events {depth : Nat} (deep : 1 < depth) (events : List (Option String)) :
    Shape.Restorable depth (.list (.optional .text)) events :=
  ⟨deep, fun x _ => Shape.restorable_of_scalar rfl _ x⟩

/-! ### The records -/

theorem Delivery.parse_print (d : Delivery) : Delivery.schema.parse (Delivery.schema.print d) = .ok d := by
  rw [Schema.parse_print ⟨by decide, by decide⟩ (rowRestorable_of_scalars (by decide) _ _)]
  change Except.ok { d with status := .ofText d.status.text } = _
  rw [Status.ofText_text]

theorem Order.parse_print (o : Order) : Order.schema.parse (Order.schema.print o) = .ok o := by
  rw [Schema.parse_print ⟨by decide, by decide⟩ (rowRestorable_of_scalars (by decide) _ _)]
  change Except.ok { o with status := .ofText o.status.text } = _
  rw [Status.ofText_text]

theorem Tally.parse_print (t : Tally) : Tally.schema.parse (Tally.schema.print t) = .ok t :=
  Schema.parse_print ⟨by decide, by decide⟩ (rowRestorable_of_scalars (by decide) _ _)

theorem Webhook.parse_print {w : Webhook} (plain : Restorable (depthLimit - 2) w.headers) :
    Webhook.schema.parse (Webhook.schema.print w) = .ok { w with secret := "" } :=
  Schema.parse_print ⟨by decide, by decide⟩ ⟨fun _ => trivial, fun _ => trivial, fun _ => trivial, fun _ => trivial,
    fun _ => restorable_events (by decide) _, fun _ => ⟨_, by decide, plain⟩, fun _ => trivial, fun _ => trivial,
    fun _ => trivial, trivial⟩

theorem Registration.parse_print {r : Registration} (plain : Restorable (depthLimit - 2) r.headers) :
    Registration.schema.parse (Registration.schema.print r) = .ok r :=
  Schema.parse_print ⟨by decide, by decide⟩ ⟨fun _ => trivial, fun _ => trivial, fun _ => trivial,
    fun _ => restorable_events (by decide) _, fun _ => ⟨_, by decide, plain⟩, fun _ => trivial, trivial⟩

namespace Event

end Event

end Courier
