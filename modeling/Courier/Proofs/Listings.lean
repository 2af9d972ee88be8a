import Courier.Proofs.ConsecutiveClaims
import Courier.Proofs.RoutineCalls
import Courier.Proofs.SettingsRange
set_option autoImplicit false

namespace Courier

theorem Status.mem_listed_iff {status : Status} :
    status ∈ listed ↔ status = .pending ∨ status = .delivered ∨ status = .dead := by
  simp only [listed, List.mem_cons, List.not_mem_nil, or_false]

theorem Bounded.exists_add? {lo hi n : Int} (a : Bounded lo hi) (low : lo ≤ a.val + n) (high : a.val + n ≤ hi) :
    ∃ b, a.add? n = some b ∧ b.val = a.val + n := ⟨⟨a.val + n, low, high⟩, add?_eq_some rfl, rfl⟩

namespace Tally

def count (t : Tally) : Status → Int
  | .pending => t.pending.val
  | .delivered => t.delivered.val
  | .dead => t.dead.val
  | .other _ _ => 0

variable {t u : Tally} {status x : Status} {n : Word64} {ds : List Delivery}

theorem ext_count (same : ∀ x ∈ Status.listed, t.count x = u.count x) : t = u := by
  have pending := Bounded.ext_val (same .pending (by decide))
  have delivered := Bounded.ext_val (same .delivered (by decide))
  have dead := Bounded.ext_val (same .dead (by decide))
  cases t
  cases u
  cases pending
  cases delivered
  cases dead
  rfl

theorem count_add? (added : t.add? status n = some u) (hx : x ∈ Status.listed) :
    u.count x = t.count x + if status = x then n.val else 0 := by
  cases status with
  | other =>
    cases added
    rcases Status.mem_listed_iff.mp hx with rfl | rfl | rfl
    all_goals exact (Int.add_zero _).symm
  | pending | delivered | dead =>
    obtain ⟨k, sum, rfl⟩ := Option.map_eq_some_iff.mp added
    have value := Bounded.val_of_ofInt? sum
    rcases Status.mem_listed_iff.mp hx with rfl | rfl | rfl
    all_goals simp [count, value]

theorem exists_add? (low : 0 ≤ t.count status + n.val) (high : t.count status + n.val ≤ 9223372036854775807) :
    ∃ u, t.add? status n = some u := by
  cases status with
  | other => exact ⟨t, rfl⟩
  | pending | delivered | dead =>
    obtain ⟨sum, added, -⟩ := Bounded.exists_add? _ (Int.le_trans (by decide) low) high
    exact ⟨_, Option.map_eq_some_iff.mpr ⟨sum, added, rfl⟩⟩

theorem countP_cons (d : Delivery) (ds : List Delivery) (x : Status) :
    ((d :: ds).countP (·.status = x) : Int) = ds.countP (·.status = x) + if d.status = x then 1 else 0 := by
  rw [List.countP_cons]
  by_cases here : d.status = x
  · simp [here]
  · simp [here]

/-- Every delivery adds one to the count of its status. -/
theorem count_foldlM {one : Word64} (unit : one.val = 1)
    (counted : ds.foldlM (fun t d => t.add? d.status one) t = some u) (hx : x ∈ Status.listed) :
    u.count x = t.count x + ds.countP (·.status = x) := by
  induction ds generalizing t with
  | nil =>
    cases counted
    exact (Int.add_zero _).symm
  | cons d ds ih =>
    rw [List.foldlM_cons] at counted
    obtain ⟨v, first, rest⟩ := Option.bind_eq_some_iff.mp counted
    rw [ih rest, count_add? first hx, unit, countP_cons]
    omega

theorem exists_foldlM {one : Word64} (unit : one.val = 1) (listed : ∀ d ∈ ds, d.status ∈ Status.listed)
    (low : ∀ x ∈ Status.listed, 0 ≤ t.count x)
    (high : ∀ x ∈ Status.listed, t.count x + ds.countP (·.status = x) ≤ 9223372036854775807) :
    ∃ u, ds.foldlM (fun t d => t.add? d.status one) t = some u := by
  induction ds generalizing t with
  | nil => exact ⟨t, rfl⟩
  | cons d ds ih =>
    simp only [countP_cons] at high
    have here := listed d List.mem_cons_self
    have start := low _ here
    have room := high _ here
    rw [if_pos rfl] at room
    obtain ⟨v, first⟩ : ∃ v, t.add? d.status one = some v := exists_add? (by omega) (by omega)
    have counted (x : Status) (hx : x ∈ Status.listed) : v.count x = t.count x + if d.status = x then 1 else 0 :=
      unit ▸ count_add? first hx
    have lower (x : Status) (hx : x ∈ Status.listed) : 0 ≤ v.count x := by
      have := low x hx
      rw [counted x hx]
      split_ifs <;> omega
    have higher (x : Status) (hx : x ∈ Status.listed) :
        v.count x + ds.countP (·.status = x) ≤ 9223372036854775807 := by
      have := high x hx
      rw [counted x hx]
      omega
    obtain ⟨u, rest⟩ := ih (fun e he => listed e (List.mem_cons_of_mem _ he)) lower higher
    exact ⟨u, by rw [List.foldlM_cons, first]; exact rest⟩

theorem count_le (t : Tally) (x : Status) : t.count x ≤ 9223372036854775807 := by
  cases x with
  | pending | delivered | dead => exact Bounded.le_hi _
  | other => exact Int.natCast_nonneg 9223372036854775807

theorem count_zero (x : Status) : zero.count x = 0 := by cases x <;> rfl

theorem exists_ofDeliveries? (listed : ∀ d ∈ ds, d.status ∈ Status.listed)
    (few : ∀ x ∈ Status.listed, ds.countP (·.status = x) ≤ 9223372036854775807) : ∃ t, ofDeliveries? ds = some t := by
  refine exists_foldlM rfl listed (fun x _ => (count_zero x).ge) fun x hx => ?_
  have := few x hx
  rw [count_zero]
  omega

theorem ofDeliveries?_eq_some_iff (listed : ∀ d ∈ ds, d.status ∈ Status.listed) :
    ofDeliveries? ds = some t ↔ ∀ x ∈ Status.listed, t.count x = ds.countP (·.status = x) := by
  have counts {u : Tally} (counted : ofDeliveries? ds = some u) (x : Status) (hx : x ∈ Status.listed) :
      u.count x = ds.countP (·.status = x) := by
    rw [count_foldlM rfl counted hx, count_zero, Int.zero_add]
  refine ⟨counts, fun same => ?_⟩
  obtain ⟨u, counted⟩ := exists_ofDeliveries? listed fun x hx => by
    have := t.count_le x
    have := same x hx
    omega
  rw [counted, ext_count fun x hx => (counts counted x hx).trans (same x hx).symm]

theorem length_eq_countP (listed : ∀ d ∈ ds, d.status ∈ Status.listed) :
    ds.length = ds.countP (·.status = .pending) + ds.countP (·.status = .delivered) + ds.countP (·.status = .dead) := by
  induction ds with
  | nil => rfl
  | cons d ds ih =>
    have rest := ih fun e he => listed e (List.mem_cons_of_mem _ he)
    rw [List.length_cons, rest]
    rcases Status.mem_listed_iff.mp (listed d List.mem_cons_self) with same | same | same
    all_goals grind

theorem total?_eq_some_iff {sum : Word64} (low : ∀ x ∈ Status.listed, 0 ≤ t.count x) :
    t.total? = some sum ↔ sum.val = t.pending.val + t.delivered.val + t.dead.val := by
  constructor
  · intro added
    obtain ⟨both, first, last⟩ := Option.bind_eq_some_iff.mp added
    rw [Bounded.val_of_ofInt? last, Bounded.val_of_ofInt? first]
  · intro value
    have pending : 0 ≤ t.pending.val := low .pending (by decide)
    have delivered : 0 ≤ t.delivered.val := low .delivered (by decide)
    have dead : 0 ≤ t.dead.val := low .dead (by decide)
    have bound := sum.le_hi
    obtain ⟨both, first, partly⟩ := t.pending.exists_add? (show _ ≤ _ + t.delivered.val by omega) (by omega)
    unfold total?
    rw [first, Option.bind_some]
    exact Bounded.add?_eq_some (by omega)

end Tally

/-! ### The list -/

namespace Store

variable {s : Store} {hook : Uuid} {filter : Option Status} {rows : List (Delivery × Nat)}

/-- Whether a row is listed before another: it is newer or, of one time, was stored later. -/
def Newer (a b : Delivery × Nat) : Prop :=
  b.1.createdAt < a.1.createdAt ∨ a.1.createdAt = b.1.createdAt ∧ b.2 < a.2

/-- The rows of a webhook with their places, all or those of a status, in the order in which they are listed. -/
structure IsListing (s : Store) (hook : Uuid) (filter : Option Status) (rows : List (Delivery × Nat)) : Prop where
  mem_iff : ∀ d i, (d, i) ∈ rows ↔
    s.deliveries[i]? = some d ∧ d.webhookId = hook ∧ ∀ status, filter = some status → d.status = status
  ordered : rows.Pairwise Newer
  once : rows.Nodup

theorem Newer.asymm {a b : Delivery × Nat} (newer : Newer a b) : ¬ Newer b a := by
  unfold Newer at newer ⊢
  simp only [Instant.lt_def, Instant.eq_iff] at newer ⊢
  omega

theorem IsListing.unique {rows' : List (Delivery × Nat)} (hr : s.IsListing hook filter rows)
    (hr' : s.IsListing hook filter rows') : rows = rows' := by
  refine List.Perm.eq_of_pairwise (fun a b _ _ newer back => absurd back newer.asymm) hr.ordered hr'.ordered ?_
  refine (List.perm_ext_iff_of_nodup hr.once hr'.once).mpr fun x => ?_
  exact (hr.mem_iff x.1 x.2).trans (hr'.mem_iff x.1 x.2).symm

def listing (s : Store) (hook : Uuid) (filter : Option Status) : List (Delivery × Nat) :=
  let rows := s.deliveries.zipIdx.filter fun x => x.1.webhookId = hook && filter.all (x.1.status = ·)
  rows.reverse.mergeSort fun a b => b.1.createdAt ≤ a.1.createdAt

theorem map_listing (s : Store) (hook : Uuid) (filter : Option Status) :
    (s.listing hook filter).map (·.1) = s.history hook filter := by
  have placed := List.filter_map (f := Prod.fst)
    (p := fun d : Delivery => d.webhookId = hook && filter.all (d.status = ·)) (l := s.deliveries.zipIdx)
  rw [List.zipIdx_map_fst] at placed
  refine (List.map_mergeSort (s := fun a b : Delivery => b.createdAt ≤ a.createdAt) fun _ _ _ _ => rfl).trans ?_
  rw [List.map_reverse, history, placed]
  rfl

theorem listing_ordered (s : Store) (hook : Uuid) (filter : Option Status) :
    (s.listing hook filter).Pairwise Newer := by
  have places := List.pairwise_reverse.mpr ((places_ordered s.deliveries).filter fun x =>
    x.1.webhookId = hook && filter.all (x.1.status = ·))
  have stable := mergeSort_stable (fun a b : Delivery × Nat => b.1.createdAt ≤ a.1.createdAt) (fun a b c => ?_)
    (fun a b => ?_) places
  · refine stable.imp fun {a b} ⟨first, back⟩ => ?_
    unfold Newer
    simp only [decide_eq_true_eq, Instant.le_def, Instant.lt_def, Instant.eq_iff] at first back ⊢
    omega
  · simp only [decide_eq_true_eq]
    exact fun first next => Instant.le_trans next first
  · simp only [Bool.or_eq_true, decide_eq_true_eq, Instant.le_def]
    omega

theorem isListing (s : Store) (hook : Uuid) (filter : Option Status) :
    s.IsListing hook filter (s.listing hook filter) where
  mem_iff d i := by
    rw [listing, List.mem_mergeSort, List.mem_reverse, List.mem_filter, List.mem_zipIdx_iff_getElem?]
    cases filter <;> simp
  ordered := s.listing_ordered hook filter
  once := (s.listing_ordered hook filter).imp fun newer same => (same ▸ newer).asymm (same ▸ newer)

theorem length_listing (s : Store) (hook : Uuid) :
    (s.listing hook none).length = (s.deliveries.filter (·.webhookId = hook)).length ∧
      ∀ x, (s.listing hook (some x)).length = (s.deliveries.filter (·.webhookId = hook)).countP (·.status = x) := by
  have length (filter : Option Status) : (s.listing hook filter).length =
      (s.deliveries.filter fun d => d.webhookId = hook && filter.all (d.status = ·)).length := by
    rw [← List.length_map (·.1), map_listing, history, List.length_mergeSort, List.length_reverse]
  constructor
  · rw [length]
    simp
  · intro x
    rw [length, List.countP_eq_length_filter, List.filter_filter]
    simp [Bool.and_comm]

/-! ### Windows and pages -/

theorem listDeliveries_eq (online : s.online = true) (listed : ∀ status, filter = some status → status ∈ Status.listed)
    (limit offset : Int) : s.listDeliveries hook (filter.map Status.text) limit offset =
      .ok (((s.history hook filter).drop offset.toNat).take limit.toNat) := by
  have told : statusFilter (filter.map Status.text) = .ok filter := by
    cases filter with
    | none => rfl
    | some status =>
      change (if Status.ofText status.text ∈ Status.listed then _ else _) = _
      rw [Status.ofText_text, if_pos (listed status rfl)]
  unfold listDeliveries
  rw [told]
  exact whenOnline_eq _ online

inductive Pages (s : Store) (hook : Uuid) (status : Option String) (size : Nat) : Nat → List (List Delivery) → Prop
  | last {n : Nat} (empty : s.listDeliveries hook status size (n * size : Nat) = .ok []) : Pages s hook status size n []
  | next {n : Nat} {page : List Delivery} {pages : List (List Delivery)}
    (read : s.listDeliveries hook status size (n * size : Nat) = .ok page) (some : page ≠ [])
    (later : Pages s hook status size (n + 1) pages) : Pages s hook status size n (page :: pages)

section Pages

variable {status : Option String} {l : List Delivery} {size n : Nat} {pages : List (List Delivery)}
  (window : ∀ limit offset : Int,
    s.listDeliveries hook status limit offset = .ok ((l.drop offset.toNat).take limit.toNat))

include window

theorem Pages.flatten_eq (positive : 1 ≤ size) (read : s.Pages hook status size n pages) :
    pages.flatten = l.drop (n * size) := by
  induction read with
  | last empty =>
    rw [window] at empty
    have nothing := Except.ok.inj empty
    rw [Int.toNat_natCast, Int.toNat_natCast, List.take_eq_nil_iff] at nothing
    exact (nothing.resolve_left (by omega)).symm
  | @next n page pages read _ _ ih =>
    rw [window] at read
    have here := Except.ok.inj read
    rw [Int.toNat_natCast, Int.toNat_natCast] at here
    rw [List.flatten_cons, ih, ← here, Nat.succ_mul, ← List.drop_drop, List.take_append_drop]

/-- Each page that is not empty leaves fewer rows, so that an empty one comes. -/
theorem exists_pages (positive : 1 ≤ size) (n : Nat) : ∃ pages, s.Pages hook status size n pages := by
  induction rest : l.length - n * size using Nat.strong_induction_on generalizing n with
  | _ m ih =>
    have read := window size (n * size : Nat)
    rw [Int.toNat_natCast, Int.toNat_natCast] at read
    by_cases empty : (l.drop (n * size)).take size = []
    · rw [empty] at read
      exact ⟨[], .last read⟩
    · have more : n * size < l.length := by
        by_contra beyond
        refine empty ?_
        rw [List.drop_eq_nil_of_le (by omega), List.take_nil]
      have less : l.length - (n + 1) * size < m := by
        rw [Nat.succ_mul]
        omega
      obtain ⟨pages, later⟩ := ih _ less (n + 1) rfl
      exact ⟨_ :: pages, .next read empty later⟩

end Pages

/-! ### All views agree -/

/-- Windows and pages of the deliveries of a webhook are read off one list. -/
structure Lists (s : Store) (hook : Uuid) (filter : Option Status) (rows : List (Delivery × Nat)) : Prop where
  listing : s.IsListing hook filter rows
  /-- Negative bounds count as zero. -/
  window : ∀ limit offset : Int, s.listDeliveries hook (filter.map Status.text) limit offset =
    .ok (((rows.map (·.1)).drop offset.toNat).take limit.toNat)
  pages : ∀ size, 1 ≤ size → (∃ pages, s.Pages hook (filter.map Status.text) size 0 pages) ∧
    ∀ pages, s.Pages hook (filter.map Status.text) size 0 pages → pages.flatten = rows.map (·.1)

theorem lists (online : s.online = true) (listed : ∀ status, filter = some status → status ∈ Status.listed) :
    s.Lists hook filter (s.listing hook filter) := by
  have window : ∀ limit offset : Int, s.listDeliveries hook (filter.map Status.text) limit offset =
      .ok ((((s.listing hook filter).map (·.1)).drop offset.toNat).take limit.toNat) :=
    map_listing s hook filter ▸ listDeliveries_eq online listed
  refine ⟨s.isListing hook filter, window, fun size positive => ⟨exists_pages window positive 0, fun pages read => ?_⟩⟩
  rw [read.flatten_eq window positive, Nat.zero_mul, List.drop_zero]

theorem deliveryStats_eq (online : s.online = true) {t : Tally} : s.deliveryStats hook = .ok t ↔
    Tally.ofDeliveries? (s.deliveries.filter (·.webhookId = hook)) = some t := by
  unfold deliveryStats
  rw [whenOnline_eq _ online]
  cases Tally.ofDeliveries? (s.deliveries.filter (·.webhookId = hook)) with
  | none => exact ⟨fun told => (by cases told), fun told => (by cases told)⟩
  | some u =>
    exact ⟨fun told => congrArg some (Except.ok.inj told), fun told => congrArg Except.ok (Option.some.inj told)⟩

theorem Orderly.listed_own (orderly : s.Orderly) (hook : Uuid) :
    ∀ d ∈ s.deliveries.filter (·.webhookId = hook), d.status ∈ Status.listed :=
  fun d hd => orderly.listed d (List.mem_of_mem_filter hd)

/-- The counts are the lengths of the lists of each status. -/
theorem deliveryStats_ok_iff (orderly : s.Orderly) {t : Tally} : s.deliveryStats hook = .ok t ↔
    ∀ x ∈ Status.listed, t.count x = (s.listing hook (some x)).length := by
  simp only [(s.length_listing hook).2]
  exact (deliveryStats_eq orderly.online).trans (Tally.ofDeliveries?_eq_some_iff (orderly.listed_own hook))

theorem total?_iff (orderly : s.Orderly) {t : Tally} (counted : s.deliveryStats hook = .ok t) (sum : Word64) :
    t.total? = some sum ↔ sum.val = (s.listing hook none).length := by
  have counts := (deliveryStats_ok_iff orderly).mp counted
  have pending : t.pending.val = _ := counts .pending (by decide)
  have delivered : t.delivered.val = _ := counts .delivered (by decide)
  have dead : t.dead.val = _ := counts .dead (by decide)
  have whole := Tally.length_eq_countP (orderly.listed_own hook)
  obtain ⟨all, each⟩ := s.length_listing hook
  rw [Tally.total?_eq_some_iff fun x hx => counts x hx ▸ Int.natCast_nonneg _, pending, delivered, dead, each, each,
    each, all, whole]
  rfl

theorem exists_total (orderly : s.Orderly) (few : (s.listing hook none).length ≤ 9223372036854775807) :
    ∃ t sum, s.deliveryStats hook = .ok t ∧ t.total? = some sum := by
  have listed := orderly.listed_own hook
  have room (x : Status) (_ : x ∈ Status.listed) :
      (s.deliveries.filter (·.webhookId = hook)).countP (·.status = x) ≤ 9223372036854775807 :=
    List.countP_le_length.trans ((s.length_listing hook).1 ▸ few)
  obtain ⟨t, counted⟩ := Tally.exists_ofDeliveries? listed room
  have told := (deliveryStats_eq orderly.online).mpr counted
  exact ⟨t, ⟨(s.listing hook none).length, by omega, by omega⟩, told, (total?_iff orderly told _).mpr rfl⟩

/-- After any routine calls, and so in a fleet (`Fleet.after_ofCalls`), the deliveries of a webhook, all or those of one
of the three statuses, form one list that has each of them once, the newest first and, of those of one time, the one
stored last; rows stand in the store in the order in which they were stored. Every window is a part of that list, and
the pages of any size up to the first empty one make it up. The counts by status are the lengths of the lists of each
status, and their sum is the length of the whole list. Both are told as long as that is a number of 64 bits, which it is
for every list that a memory holds. -/
theorem listings_agree {calls : List Call} (routine : ∀ call ∈ calls, call.Routine) (hook : Uuid) :
    ((ofCalls calls).deliveries.map (·.id)).Sublist (calls.flatMap Call.deliveryIds) ∧
      ∃ rows : Option Status → List (Delivery × Nat),
        (∀ filter, (∀ status, filter = some status → status ∈ Status.listed) →
          (ofCalls calls).Lists hook filter (rows filter)) ∧
        (∀ t, (ofCalls calls).deliveryStats hook = .ok t ↔
          t.pending.val = (rows (some .pending)).length ∧ t.delivered.val = (rows (some .delivered)).length ∧
            t.dead.val = (rows (some .dead)).length) ∧
        (∀ t, (ofCalls calls).deliveryStats hook = .ok t →
          ∀ sum : Word64, t.total? = some sum ↔ sum.val = (rows none).length) ∧
        ((rows none).length ≤ 9223372036854775807 → ∃ t sum, (ofCalls calls).deliveryStats hook = .ok t ∧
          t.total? = some sum) := by
  have orderly := orderly_ofCalls routine
  refine ⟨ids_ofCalls (fun s => s.deliveries.map (·.id)) (fun s call => (keeps_after s call).deliveries) rfl calls,
    (ofCalls calls).listing hook, fun filter listed => lists orderly.online listed, fun t => ?_,
    fun t counted => total?_iff orderly counted, exists_total orderly⟩
  rw [deliveryStats_ok_iff orderly]
  constructor
  · exact fun counts => ⟨counts .pending (by decide), counts .delivered (by decide), counts .dead (by decide)⟩
  · rintro ⟨pending, delivered, dead⟩ x hx
    rcases Status.mem_listed_iff.mp hx with rfl | rfl | rfl
    · exact pending
    · exact delivered
    · exact dead

end Store

namespace Store

open Fleet.Sample

/-- Three deliveries of one time, of which the first is claimed and dies before the others are stored. -/
def visited : List Call :=
  [.createWebhook registration hook (second 0),
    .createDeliveries [⟨hook, "page.created", "", .pending, none⟩] (fun _ => .ofNat 10) (second 1),
    .claimDue (second 2) 1 north .ninetySeconds,
    .completeAttempt (.ofNat 10) north (.deadWithoutAttempt "webhook is inactive"),
    .createDeliveries [⟨hook, "page.created", "", .pending, none⟩, ⟨hook, "page.deleted", "", .pending, none⟩]
      (fun i => .ofNat (11 + i)) (second 1)]

theorem visited_routine : ∀ call ∈ visited, call.Routine := by
  intro call made
  simp only [visited, List.mem_cons, List.not_mem_nil, or_false] at made
  rcases made with rfl | rfl | rfl | rfl | rfl
  · trivial
  · simp [Call.Routine]
  · trivial
  · exact ⟨.standard, .ofNat 0, .noAttempt _⟩
  · simp [Call.Routine]

theorem listings_agree_visited : (∀ call ∈ visited, call.Routine) ∧
    (∃ pages, (ofCalls visited).Pages hook none 2 0 pages ∧
      pages.flatten.map (·.id) = [.ofNat 12, .ofNat 11, .ofNat 10]) ∧
    ∃ t sum, (ofCalls visited).deliveryStats hook = .ok t ∧ t.total? = some sum ∧ sum.val = 3 := by
  obtain ⟨-, rows, lists, -, total, told⟩ := listings_agree visited_routine hook
  have whole := lists none fun _ told => by cases told
  have listed : (rows none).map (·.1) = (ofCalls visited).history hook none := by
    rw [whole.listing.unique ((ofCalls visited).isListing hook none), map_listing]
  -- they are of one time, so that turning them round is all that sorting does
  have turned : (ofCalls visited).history hook none =
      ((ofCalls visited).deliveries.filter fun d => d.webhookId = hook && none.all (d.status = ·)).reverse :=
    List.mergeSort_of_pairwise (by decide +kernel)
  have ids : ((rows none).map (·.1)).map (·.id) = [.ofNat 12, .ofNat 11, .ofNat 10] := by
    rw [listed, turned]
    decide +kernel
  have three : (rows none).length = 3 := by simpa using congrArg List.length ids
  obtain ⟨⟨pages, read⟩, whole⟩ := whole.pages 2 (by decide)
  obtain ⟨t, sum, counted, added⟩ := told (by omega)
  have value := (total t counted sum).mp added
  exact ⟨visited_routine, ⟨pages, read, whole pages read ▸ ids⟩, t, sum, counted, added, by rw [value, three]; rfl⟩

end Store

end Courier
