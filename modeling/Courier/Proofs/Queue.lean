import Courier.Proofs.StoreSteps
import Mathlib.Data.List.Nodup
set_option autoImplicit false

namespace Courier

section Sorting

variable {α : Type}

theorem filter_cut {q : α → Bool} {xs ys : List α} (before : ∀ x ∈ xs, q x = false) (after : ∀ y ∈ ys, q y = true) :
    (xs ++ ys).filter (!q ·) = xs ∧ (xs ++ ys).filter q = ys := by
  have kept : xs.filter (!q ·) = xs := by simpa using before
  have dropped : xs.filter q = [] := by simpa using before
  have kept' : ys.filter q = ys := by simpa using after
  have dropped' : ys.filter (!q ·) = [] := by simpa using after
  simp [kept, dropped, kept', dropped']

/-- A list is cut in one way only where a property begins to hold. -/
theorem cut_unique {q : α → Bool} {xs ys xs' ys' : List α} (same : xs ++ ys = xs' ++ ys')
    (before : ∀ x ∈ xs, q x = false) (after : ∀ y ∈ ys, q y = true)
    (before' : ∀ x ∈ xs', q x = false) (after' : ∀ y ∈ ys', q y = true) : xs = xs' ∧ ys = ys' := by
  obtain ⟨hx, hy⟩ := filter_cut before after
  obtain ⟨hx', hy'⟩ := filter_cut before' after'
  rw [same] at hx hy
  exact ⟨hx.symm.trans hx', hy.symm.trans hy'⟩

/-- Those that stay are sorted as they stood among all. -/
theorem mergeSort_filter {le : α → α → Bool} (trans : ∀ a b c, le a b = true → le b c = true → le a c = true)
    (total : ∀ a b, (le a b || le b a) = true) (p : α → Bool) (xs : List α) :
    (xs.filter p).mergeSort le = (xs.mergeSort le).filter p := by
  induction xs with
  | nil => simp
  | cons a xs ih =>
    obtain ⟨before, after, whole, rest, smaller⟩ := List.mergeSort_cons trans total a xs
    by_cases hp : p a = true
    · obtain ⟨before', after', whole', rest', smaller'⟩ := List.mergeSort_cons trans total a (xs.filter p)
      have sorted := List.pairwise_mergeSort trans total (a :: xs)
      have sorted' := List.pairwise_mergeSort trans total (a :: xs.filter p)
      rw [whole, List.pairwise_append, List.pairwise_cons] at sorted
      rw [whole', List.pairwise_append, List.pairwise_cons] at sorted'
      rw [ih, rest, List.filter_append] at rest'
      have cut := cut_unique rest' (q := le a) (fun x hx => by simpa using smaller x (List.mem_of_mem_filter hx))
        (fun y hy => sorted.2.1.1 y (List.mem_of_mem_filter hy)) (by simpa using smaller') sorted'.2.1.1
      rw [List.filter_cons_of_pos hp, whole', whole, List.filter_append, List.filter_cons_of_pos hp, cut.1, cut.2]
    · rw [List.filter_cons_of_neg hp, ih, whole, rest, List.filter_append, List.filter_append,
        List.filter_cons_of_neg hp]

end Sorting

/-! ### The queue -/

theorem Instant.eq_iff {a b : Instant} : a = b ↔ a.secs = b.secs ∧ a.nanos = b.nanos :=
  ⟨fun same => same ▸ ⟨rfl, rfl⟩, fun parts => ext_parts parts.1 parts.2⟩

namespace Store

/-- Of two deliveries that are due at some time the earlier due comes first, and of one time the older. -/
theorem dueBefore_some {a b : Delivery} {x y : Instant} (ha : a.nextRetryAt = some x) (hb : b.nextRetryAt = some y) :
    dueBefore a b = true ↔ x < y ∨ x = y ∧ a.createdAt ≤ b.createdAt := by
  have strict : ¬ x = y → (x ≤ y ↔ x < y) := by
    simp only [Instant.eq_iff, Instant.le_def, Instant.lt_def]
    omega
  have unlike : ¬ x < x := by
    simp only [Instant.lt_def]
    omega
  unfold dueBefore
  rw [ha, hb]
  by_cases same : x = y
  · subst same
    simp [unlike]
  · simp [same, strict same]

theorem dueBefore_trans (a b d : Delivery) (first : dueBefore a b = true) (next : dueBefore b d = true) :
    dueBefore a d = true := by
  cases ha : a.nextRetryAt <;> cases hb : b.nextRetryAt <;> cases hd : d.nextRetryAt
  case some.some.some =>
    rw [dueBefore_some ha hb] at first
    rw [dueBefore_some hb hd] at next
    rw [dueBefore_some ha hd]
    simp only [Instant.eq_iff, Instant.le_def, Instant.lt_def] at first next ⊢
    omega
  case none.none.none =>
    simp only [dueBefore, ha, hb, hd, decide_eq_true_eq] at first next ⊢
    exact Instant.le_trans first next
  all_goals simp_all [dueBefore]

theorem dueBefore_total (a b : Delivery) : (dueBefore a b || dueBefore b a) = true := by
  rw [Bool.or_eq_true]
  cases ha : a.nextRetryAt <;> cases hb : b.nextRetryAt
  case some.some =>
    rw [dueBefore_some ha hb, dueBefore_some hb ha]
    simp only [Instant.eq_iff, Instant.le_def, Instant.lt_def]
    omega
  case none.none =>
    simp only [dueBefore, ha, hb, decide_eq_true_eq, Instant.le_def]
    omega
  all_goals simp [dueBefore, ha, hb]

def queue (s : Store) (now : Instant) : List Delivery := (s.due now).map (·.1)

variable {s t : Store} {now : Instant} {d : Delivery}

theorem queue_eq (s : Store) (now : Instant) :
    s.queue now = (s.deliveries.filter (·.isClaimable now)).mergeSort dueBefore := by
  have placed := List.filter_map (f := Prod.fst) (p := fun d : Delivery => d.isClaimable now) (l := s.deliveries.zipIdx)
  rw [List.zipIdx_map_fst] at placed
  rw [queue, due, List.map_mergeSort (s := dueBefore) fun _ _ _ _ => rfl, placed]
  rfl

theorem mem_queue : d ∈ s.queue now ↔ d ∈ s.deliveries ∧ d.isClaimable now = true := by
  rw [queue_eq, List.mem_mergeSort, List.mem_filter]

theorem length_queue (s : Store) (now : Instant) : (s.queue now).length = s.deliveries.countP (·.isClaimable now) := by
  rw [queue_eq, List.length_mergeSort, List.countP_eq_length_filter]

theorem queue_ids (distinct : (s.deliveries.map (·.id)).Nodup) : ((s.queue now).map (·.id)).Nodup := by
  rw [queue_eq]
  exact ((List.mergeSort_perm _ _).map _).nodup_iff.mpr (distinct.sublist (List.filter_sublist.map _))

/-- When some rows are written over so that they cannot be claimed, the others stay in the queue in their order. -/
theorem queue_map {f : Delivery → Delivery} (rows : t.deliveries = s.deliveries.map f)
    (leaves : ∀ d ∈ s.deliveries, f d = d ∨ (f d).isClaimable now = false) :
    t.queue now = (s.queue now).filter fun d => f d = d := by
  have rest : (s.deliveries.map f).filter (·.isClaimable now) =
      (s.deliveries.filter (·.isClaimable now)).filter fun d => f d = d := by
    rw [List.filter_map, List.filter_filter]
    have stays : s.deliveries.filter ((fun d : Delivery => d.isClaimable now) ∘ f) =
        s.deliveries.filter fun d => decide (f d = d) && d.isClaimable now := by
      refine List.filter_congr fun d hd => ?_
      rcases leaves d hd with same | gone
      · simp [same]
      · by_cases same : f d = d
        · simp [same]
        · simp [gone, same]
    rw [stays]
    refine (List.map_congr_left fun d hd => ?_).trans (List.map_id _)
    have kept := (List.mem_filter.mp hd).2
    simp only [Bool.and_eq_true, decide_eq_true_eq] at kept
    exact kept.1
  rw [queue_eq, queue_eq, rows, rest, mergeSort_filter dueBefore_trans dueBefore_total]

/-- A claim marks the front of the queue. -/
theorem claimDue_queue (online : s.online = true) (distinct : (s.deliveries.map (·.id)).Nodup) {till : Instant}
    {lease : Span} (ends : now.add? lease = some till) (limit : Int) (c : Uuid) :
    s.claimDue now limit c lease =
      .ok (((s.queue now).take limit.toNat).map (·.apply (.claim c till)), { s with
        deliveries := s.deliveries.map fun d =>
          if d ∈ (s.queue now).take limit.toNat then d.apply (.claim c till) else d }) := by
  have batch : ((s.due now).take limit.toNat).map (fun x => x.1.apply (.claim c till)) =
      ((s.queue now).take limit.toNat).map (·.apply (.claim c till)) := by
    rw [queue, ← List.map_take, List.map_map]
    rfl
  have member : ∀ y ∈ (s.due now).take limit.toNat, y ∈ s.deliveries.zipIdx := fun y hy =>
    (List.mem_filter.mp (List.mem_mergeSort.mp (List.mem_of_mem_take hy))).1
  have rows : (s.deliveries.zipIdx.map fun x =>
        if x.2 ∈ ((s.due now).take limit.toNat).map (·.2) then x.1.apply (.claim c till) else x.1) =
      s.deliveries.map fun d => if d ∈ (s.queue now).take limit.toNat then d.apply (.claim c till) else d := by
    conv_rhs => rw [← List.zipIdx_map_fst 0 s.deliveries, List.map_map]
    refine List.map_congr_left fun x hx => ?_
    have placed := List.mem_zipIdx_iff_getElem?.mp hx
    -- no delivery stands at two places
    have same : x.2 ∈ ((s.due now).take limit.toNat).map (·.2) ↔ x.1 ∈ (s.queue now).take limit.toNat := by
      rw [queue, ← List.map_take]
      constructor
      · intro hp
        obtain ⟨y, hy, hxy⟩ := List.mem_map.mp hp
        have here := List.mem_zipIdx_iff_getElem?.mp (member y hy)
        rw [hxy, placed] at here
        exact List.mem_map.mpr ⟨y, hy, (Option.some.inj here).symm⟩
      · intro hd
        obtain ⟨y, hy, hxy⟩ := List.mem_map.mp hd
        have here := List.mem_zipIdx_iff_getElem?.mp (member y hy)
        rw [hxy, ← placed] at here
        refine List.mem_map.mpr ⟨y, hy, ?_⟩
        exact (List.getElem?_inj (List.getElem?_eq_some_iff.mp (here.trans placed)).1 distinct.of_map).mp here
    simp only [Function.comp_apply, same]
  unfold claimDue
  rw [whenOnline_eq _ online, ends]
  dsimp only
  rw [batch, rows]

end Store

end Courier
