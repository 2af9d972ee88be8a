import Courier.Proofs.LaterInstants
import Courier.Proofs.Queue
import Mathlib.Data.List.Forall2
import Mathlib.Data.List.SplitLengths
set_option autoImplicit false

/-!
# Claims in succession

At one time claims take consecutive slices of one queue: the rows that can be claimed, those that are due at any time
first, then by due time, age and place. A row is known by its place here, not by its identifier, so that nothing is
asked of the identifiers.
-/

namespace Courier

section Sorting

variable {α : Type} (le : α → α → Bool) {r : α → α → Prop}

/-- Sorting keeps the order among those that it does not tell apart. -/
theorem mergeSort_stable (trans : ∀ a b c, le a b = true → le b c = true → le a c = true)
    (total : ∀ a b, (le a b || le b a) = true) {xs : List α} (ordered : xs.Pairwise r) :
    (xs.mergeSort le).Pairwise fun a b => le a b = true ∧ (le b a = true → r a b) := by
  induction xs with
  | nil => simp
  | cons a xs ih =>
    obtain ⟨before, after, whole, rest, smaller⟩ := List.mergeSort_cons trans total a xs
    have sorted := List.pairwise_mergeSort trans total (a :: xs)
    obtain ⟨first, ordered⟩ := List.pairwise_cons.mp ordered
    have ih := ih ordered
    -- before the first element stand only smaller ones, for which nothing is to be shown
    have later : ∀ y ∈ after, r a y := fun y hy =>
      first y (List.mem_mergeSort.mp (rest ▸ List.mem_append_right before hy))
    rw [rest, List.pairwise_append] at ih
    rw [whole, List.pairwise_append, List.pairwise_cons] at sorted ⊢
    refine ⟨ih.1, ⟨fun y hy => ⟨sorted.2.1.1 y hy, fun _ => later y hy⟩, ih.2.1⟩, fun x hx y hy => ?_⟩
    rcases List.mem_cons.mp hy with rfl | hy
    · have strict := smaller x hx
      exact ⟨sorted.2.2 x hx y List.mem_cons_self, fun back => by simp [back] at strict⟩
    · exact ih.2.2 x hx y hy

end Sorting

def Delivery.claimedAs (d : Delivery) (claimer : Uuid) (till : Instant) : Delivery :=
  { d with claimedBy := some claimer, claimedUntil := some till }

namespace Store

/-- Whether a row stands before another in the queue. Of two rows that are due alike and of one age it is the one that
was stored first. -/
def Ahead (a b : Delivery × Nat) : Prop :=
  let older := a.1.createdAt < b.1.createdAt ∨ a.1.createdAt = b.1.createdAt ∧ a.2 < b.2
  match a.1.nextRetryAt, b.1.nextRetryAt with
  | none, none => older
  | none, some _ => True
  | some _, none => False
  | some x, some y => x < y ∨ x = y ∧ older

/-- The rows that can be claimed with their places, each once, in the order of the queue. -/
structure IsQueue (s : Store) (now : Instant) (q : List (Delivery × Nat)) : Prop where
  claimable_iff : ∀ d i, (d, i) ∈ q ↔ s.deliveries[i]? = some d ∧ d.status = .pending ∧
    (∀ t, d.nextRetryAt = some t → t ≤ now) ∧ ∀ t, d.claimedUntil = some t → t < now
  ordered : q.Pairwise Ahead

variable {s t u : Store} {now till : Instant} {lease : Span} {q : List (Delivery × Nat)} {c : Uuid}

theorem ahead_of_due {a b : Delivery × Nat} (first : dueBefore a.1 b.1 = true)
    (placed : dueBefore b.1 a.1 = true → a.2 < b.2) : Ahead a b := by
  unfold Ahead
  cases ha : a.1.nextRetryAt <;> cases hb : b.1.nextRetryAt
  case none.none =>
    simp only [dueBefore, ha, hb, decide_eq_true_eq, Instant.le_def, Instant.lt_def, Instant.eq_iff] at first placed ⊢
    omega
  case none.some => trivial
  case some.none => simp [dueBefore, ha, hb] at first
  case some.some =>
    rw [dueBefore_some ha hb] at first
    rw [dueBefore_some hb ha] at placed
    simp only [Instant.le_def, Instant.lt_def, Instant.eq_iff] at first placed ⊢
    omega

theorem Ahead.asymm {a b : Delivery × Nat} (ahead : Ahead a b) : ¬ Ahead b a := by
  intro back
  unfold Ahead at ahead back
  cases ha : a.1.nextRetryAt <;> cases hb : b.1.nextRetryAt
  case none.some => rwa [ha, hb] at back
  case some.none => rwa [ha, hb] at ahead
  all_goals
    simp only [ha, hb, Instant.lt_def, Instant.eq_iff] at ahead back
    omega

theorem places_ordered (ds : List Delivery) : ds.zipIdx.Pairwise fun a b => a.2 < b.2 := by
  have places : (ds.zipIdx.map (·.2)).Pairwise (· < ·) := by
    rw [List.zipIdx_map_snd]
    exact List.pairwise_lt_range'
  exact List.pairwise_map.mp places

theorem isQueue_due (s : Store) (now : Instant) : s.IsQueue now (s.due now) where
  claimable_iff d i := by
    rw [due, List.mem_mergeSort, List.mem_filter, List.mem_zipIdx_iff_getElem?, Delivery.isClaimable_iff]
  ordered := by
    have stable := mergeSort_stable (fun a b : Delivery × Nat => dueBefore a.1 b.1)
      (fun a b c => dueBefore_trans a.1 b.1 c.1) (fun a b => dueBefore_total a.1 b.1)
      ((places_ordered s.deliveries).filter fun x => x.1.isClaimable now)
    exact stable.imp fun both => ahead_of_due both.1 both.2

def marked (s : Store) (places : List Nat) (claimer : Uuid) (till : Instant) : Store :=
  { s with deliveries := s.deliveries.zipIdx.map fun x => if x.2 ∈ places then x.1.claimedAs claimer till else x.1 }

theorem marked_row (s : Store) (places : List Nat) (claimer : Uuid) (till : Instant) (i : Nat) :
    (s.marked places claimer till).deliveries[i]? =
      s.deliveries[i]?.map fun d => if i ∈ places then d.claimedAs claimer till else d := by
  simp [marked, Function.comp_def]

namespace IsQueue

theorem nodup (hq : s.IsQueue now q) : q.Nodup :=
  hq.ordered.imp fun ahead same => (same ▸ ahead).asymm (same ▸ ahead)

theorem row (hq : s.IsQueue now q) {x : Delivery × Nat} (hx : x ∈ q) : s.deliveries[x.2]? = some x.1 :=
  ((hq.claimable_iff x.1 x.2).mp hx).1

theorem unique {q' : List (Delivery × Nat)} (hq : s.IsQueue now q) (hq' : s.IsQueue now q') : q = q' := by
  refine List.Perm.eq_of_pairwise (fun a b _ _ ahead back => absurd back ahead.asymm) hq.ordered hq'.ordered ?_
  refine (List.perm_ext_iff_of_nodup hq.nodup hq'.nodup).mpr fun x => ?_
  exact (hq.claimable_iff x.1 x.2).trans (hq'.claimable_iff x.1 x.2).symm

theorem eq_of_place (hq : s.IsQueue now q) {x y : Delivery × Nat} (hx : x ∈ q) (hy : y ∈ q) (place : x.2 = y.2) :
    x = y := by
  have here := hq.row hx
  rw [place, hq.row hy] at here
  exact Prod.ext (Option.some.inj here).symm place

/-- No row of the rest stands at a place of the front. -/
theorem place_not_taken (hq : s.IsQueue now q) {n : Nat} {x : Delivery × Nat} (hx : x ∈ q.drop n) :
    x.2 ∉ (q.take n).map (·.2) := by
  intro taken
  obtain ⟨y, hy, place⟩ := List.mem_map.mp taken
  obtain rfl := hq.eq_of_place (List.mem_of_mem_take hy) (List.mem_of_mem_drop hx) place
  exact List.disjoint_take_drop hq.nodup (Nat.le_refl n) hy hx

/-- The queue goes on where a claim stopped. -/
theorem marked (hq : s.IsQueue now q) (later : now ≤ till) (c : Uuid) (n : Nat) :
    (s.marked ((q.take n).map (·.2)) c till).IsQueue now (q.drop n) where
  claimable_iff d i := by
    rw [marked_row]
    constructor
    · intro hd
      obtain ⟨row, claimable⟩ := (hq.claimable_iff d i).mp (List.mem_of_mem_drop hd)
      refine ⟨?_, claimable⟩
      rw [row, Option.map_some, if_neg (hq.place_not_taken hd)]
    · rintro ⟨row, claimable⟩
      obtain ⟨e, he, rfl⟩ := Option.map_eq_some_iff.mp row
      by_cases taken : i ∈ (q.take n).map (·.2)
      · have ended := claimable.2.2 till (by rw [if_pos taken]; rfl)
        exact absurd ended (Instant.not_lt.mpr later)
      · rw [if_neg taken] at claimable ⊢
        have member := (hq.claimable_iff e i).mpr ⟨he, claimable⟩
        rw [← List.take_append_drop n q, List.mem_append] at member
        exact member.resolve_left fun front => taken (List.mem_map.mpr ⟨_, front, rfl⟩)
  ordered := hq.ordered.sublist (List.drop_sublist n q)

theorem claimDue (hq : s.IsQueue now q) (online : s.online = true) (ends : now.add? lease = some till) (limit : Int)
    (c : Uuid) :
    s.claimDue now limit c lease = .ok ((q.take limit.toNat).map (fun x => x.1.claimedAs c till),
      s.marked ((q.take limit.toNat).map (·.2)) c till) := by
  rw [hq.unique (isQueue_due s now)]
  unfold Store.claimDue
  rw [whenOnline_eq _ online, ends]
  rfl

end IsQueue

/-! ### Calls one after the other -/

/-- The answers to calls that claim at one time, each with its claimer and its limit, and the store after them. A call
that fails leaves the store as it was. -/
def claims (s : Store) (now : Instant) (lease : Span) : List (Uuid × Int) → List (Except Error (List Delivery)) × Store
  | [] => ([], s)
  | (claimer, limit) :: calls =>
    match s.claimDue now limit claimer lease with
    | .ok (batch, t) => let (answers, u) := t.claims now lease calls; (.ok batch :: answers, u)
    | .error e => let (answers, u) := s.claims now lease calls; (.error e :: answers, u)

def slices (q : List (Delivery × Nat)) (calls : List (Uuid × Int)) : List (List (Delivery × Nat)) :=
  (calls.map (·.2.toNat)).splitLengths q

def answer (till : Instant) (call : Uuid × Int) (slice : List (Delivery × Nat)) : Except Error (List Delivery) :=
  .ok (slice.map fun x => x.1.claimedAs call.1 till)

structure Sliced (s u : Store) (till : Instant) (calls : List (Uuid × Int)) (parts : List (List (Delivery × Nat))) :
    Prop where
  taken : calls.Forall₂ (fun call part => ∀ x ∈ part, u.deliveries[x.2]? = some (x.1.claimedAs call.1 till)) parts
  others : ∀ i, i ∉ parts.flatten.map (·.2) → u.deliveries[i]? = s.deliveries[i]?
  webhooks : u.webhooks = s.webhooks
  online : u.online = s.online

theorem slices_cons (q : List (Delivery × Nat)) (call : Uuid × Int) (calls : List (Uuid × Int)) :
    slices q (call :: calls) = q.take call.2.toNat :: slices (q.drop call.2.toNat) calls := by
  simp [slices]

theorem mem_of_mem_slices {calls : List (Uuid × Int)} {x : Delivery × Nat} (hx : x ∈ (slices q calls).flatten) :
    x ∈ q := by
  induction calls generalizing q with
  | nil => simp [slices] at hx
  | cons call calls ih =>
    rw [slices_cons, List.flatten_cons, List.mem_append] at hx
    exact hx.elim List.mem_of_mem_take fun later => List.mem_of_mem_drop (ih later)

/-- A slice is claimed, and then the calls that follow take theirs from the rest. -/
theorem Sliced.cons {call : Uuid × Int} {calls : List (Uuid × Int)} (hq : s.IsQueue now q)
    (rest : Sliced (s.marked ((q.take call.2.toNat).map (·.2)) call.1 till) u till calls
      (slices (q.drop call.2.toNat) calls)) : Sliced s u till (call :: calls) (slices q (call :: calls)) := by
  rw [slices_cons]
  constructor
  case taken =>
    refine .cons (fun x hx => ?_) rest.taken
    have front : x.2 ∈ (q.take call.2.toNat).map (·.2) := List.mem_map_of_mem hx
    have unlater : x.2 ∉ (slices (q.drop call.2.toNat) calls).flatten.map (·.2) := by
      intro later
      obtain ⟨y, hy, place⟩ := List.mem_map.mp later
      exact hq.place_not_taken (mem_of_mem_slices hy) (place ▸ front)
    rw [rest.others _ unlater, marked_row, hq.row (List.mem_of_mem_take hx), Option.map_some, if_pos front]
  case others =>
    intro i hi
    simp only [List.flatten_cons, List.map_append, List.mem_append, not_or] at hi
    simp only [rest.others i hi.2, marked_row, if_neg hi.1, Option.map_id']
  case webhooks => exact rest.webhooks
  case online => exact rest.online

theorem claims_online (hq : s.IsQueue now q) (online : s.online = true) (later : now ≤ till)
    (ends : now.add? lease = some till) (calls : List (Uuid × Int)) :
    (s.claims now lease calls).1 = List.zipWith (answer till) calls (slices q calls) ∧
      Sliced s (s.claims now lease calls).2 till calls (slices q calls) := by
  induction calls generalizing s q with
  | nil => exact ⟨rfl, .nil, fun _ _ => rfl, rfl, rfl⟩
  | cons call calls ih =>
    obtain ⟨claimer, limit⟩ := call
    obtain ⟨answers, sliced⟩ := ih (hq.marked later claimer limit.toNat) online
    unfold claims
    rw [hq.claimDue online ends]
    exact ⟨by rw [slices_cons, List.zipWith_cons_cons, ← answers]; rfl, sliced.cons hq⟩

theorem claims_offline (offline : s.online = false) (calls : List (Uuid × Int)) :
    s.claims now lease calls = (calls.map fun _ => .error .unavailable, s) := by
  induction calls with
  | nil => rfl
  | cons call calls ih =>
    obtain ⟨claimer, limit⟩ := call
    have refused : s.claimDue now limit claimer lease = .error .unavailable := whenOnline_offline offline _
    unfold claims
    rw [refused]
    simp only [ih, List.map_cons]

/-- Two slices that one claimer takes are one slice. -/
theorem marked_marked (s : Store) (front rest : List Nat) (c : Uuid) (till : Instant) :
    (s.marked front c till).marked rest c till = s.marked (front ++ rest) c till := by
  have rows : ((s.marked front c till).marked rest c till).deliveries = (s.marked (front ++ rest) c till).deliveries := by
    refine List.ext_getElem? fun i => ?_
    rw [marked_row, marked_row, marked_row, Option.map_map]
    refine Option.map_congr fun d _ => ?_
    by_cases first : i ∈ front <;> by_cases second : i ∈ rest <;> simp [first, second, Delivery.claimedAs]
  exact congrArg (fun ds => { s with deliveries := ds }) rows

theorem claims_sum (hq : s.IsQueue now q) (online : s.online = true) (later : now ≤ till)
    (ends : now.add? lease = some till) (c : Uuid) (a b : Nat) :
    ∃ first second u, s.claims now lease [(c, a), (c, b)] = ([.ok first, .ok second], u) ∧
      s.claims now lease [(c, (a + b : Nat))] = ([.ok (first ++ second)], u) := by
  refine ⟨(q.take a).map (·.1.claimedAs c till), ((q.drop a).take b).map (·.1.claimedAs c till),
    (s.marked ((q.take a).map (·.2)) c till).marked (((q.drop a).take b).map (·.2)) c till, ?_, ?_⟩
  · simp only [claims, hq.claimDue online ends, (hq.marked later c a).claimDue online ends, Int.toNat_natCast]
  · rw [marked_marked, ← List.map_append, ← List.map_append, ← List.take_add]
    simp only [claims, hq.claimDue online ends, Int.toNat_natCast]

/-- There is one queue of the rows that can be claimed at a time. Calls that claim one after the other take consecutive
slices of it, each as long as its limit if the queue lasts, so that it makes no difference whether one claimer takes two
slices or one. Only the claims of these rows change. A store that cannot be reached gives nothing and stays as it is. -/
theorem claims_slice_queue (s : Store) (forward : 0 ≤ lease.val) (ends : now.add? lease = some till) :
    ∃ q, s.IsQueue now q ∧ (∀ q', s.IsQueue now q' → q' = q) ∧
      (s.online = true →
        (∀ calls, (s.claims now lease calls).1 = List.zipWith (answer till) calls (slices q calls) ∧
          Sliced s (s.claims now lease calls).2 till calls (slices q calls)) ∧
        ∀ c (a b : Nat), ∃ first second u, s.claims now lease [(c, a), (c, b)] = ([.ok first, .ok second], u) ∧
          s.claims now lease [(c, (a + b : Nat))] = ([.ok (first ++ second)], u)) ∧
      (s.online = false → ∀ calls, s.claims now lease calls = (calls.map fun _ => .error .unavailable, s)) := by
  have hq := isQueue_due s now
  have later := Instant.le_of_add? forward ends
  refine ⟨s.due now, hq, fun q' hq' => hq'.unique hq, fun online => ⟨?_, ?_⟩, claims_offline⟩
  · exact claims_online hq online later ends
  · exact claims_sum hq online later ends

namespace Sample

def row (n : Nat) (due : Option Instant) : Delivery :=
  Order.toDelivery ⟨.ofNat 1, "page.published", "[42]", .pending, due⟩ (.ofNat n) .first

/-- The second row is due at any time; the third is under a claim that ends now and is still good. -/
def rows : Store := ⟨[], [row 1 (some .first), row 2 none, (row 3 none).claimedAs (.ofNat 9) .first], true⟩

theorem rows_queue : rows.IsQueue .first [(row 2 none, 1), (row 1 (some .first), 0)] where
  claimable_iff d i := by
    constructor
    · intro member
      simp only [List.mem_cons, List.not_mem_nil, or_false, Prod.mk.injEq] at member
      rcases member with ⟨rfl, rfl⟩ | ⟨rfl, rfl⟩
      · exact ⟨rfl, rfl, fun t ht => (by cases ht), fun t ht => (by cases ht)⟩
      · refine ⟨rfl, rfl, fun t ht => ?_, fun t ht => (by cases ht)⟩
        obtain rfl := Option.some.inj ht
        decide
    · rintro ⟨here, -, -, free⟩
      match i with
      | 0 => obtain rfl := Option.some.inj here; exact .tail _ (.head _)
      | 1 => obtain rfl := Option.some.inj here; exact .head _
      | 2 =>
        obtain rfl := Option.some.inj here
        exact absurd (free .first rfl) (by decide)
      | n + 3 => cases here
  ordered := by simp [Ahead, row, Order.toDelivery]

def moment : Span := ⟨0, by decide⟩

def shared : List (Uuid × Int) := [(.ofNat 7, 1), (.ofNat 8, -1), (.ofNat 8, 5)]

end Sample

theorem claims_slice_queue_shared :
    0 ≤ Sample.moment.val ∧ Instant.first.add? Sample.moment = some .first ∧
      (Sample.rows.claims .first Sample.moment Sample.shared).1 =
        [.ok [(Sample.row 2 none).claimedAs (.ofNat 7) .first], .ok [],
          .ok [(Sample.row 1 (some .first)).claimedAs (.ofNat 8) .first]] ∧
      (Sample.rows.claims .first Sample.moment Sample.shared).2.deliveries[2]? = Sample.rows.deliveries[2]? := by
  have forward : 0 ≤ Sample.moment.val := by decide
  have ends : Instant.first.add? Sample.moment = some .first := by decide
  obtain ⟨q, -, unique, online, -⟩ := claims_slice_queue Sample.rows forward ends
  obtain rfl := unique _ Sample.rows_queue
  obtain ⟨answers, sliced⟩ := (online rfl).1 Sample.shared
  exact ⟨forward, ends, answers, sliced.others 2 (by decide)⟩

/-- A store that cannot be reached has a row to claim, and claims nothing. -/
theorem offline_row_unclaimed : (Sample.row 2 none) ∈ (Sample.rows.setOnline false).deliveries ∧
    (Sample.row 2 none).isClaimable .first = true ∧
    (Sample.rows.setOnline false).claims .first Sample.moment [(.ofNat 7, 1)] =
      ([.error .unavailable], Sample.rows.setOnline false) :=
  ⟨.tail _ (.head _), by decide, claims_offline rfl _⟩

end Store

end Courier
