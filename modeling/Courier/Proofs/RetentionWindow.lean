import Courier.Proofs.Calls
import Courier.Proofs.LaterInstants
import Courier.Retention
set_option autoImplicit false

namespace Courier

namespace Instant

/-- Second and fraction of the same time of day so many days ago, whether the calendar reaches so far back or not. A
leap second has its like on no other day, so that the second after it is taken. -/
def daysAgo (now : Instant) (days : Int) : Int × Nat :=
  if days = 0 ∨ now.nanos < 1000000000 then (now.secs - days * 86400, now.nanos)
  else (now.secs + 1 - days * 86400, now.nanos - 1000000000)

def IsOlder (now : Instant) (days : Int) (t : Instant) : Prop :=
  t.secs < (now.daysAgo days).1 ∨ t.secs = (now.daysAgo days).1 ∧ t.nanos < (now.daysAgo days).2

instance (now : Instant) (days : Int) (t : Instant) : Decidable (now.IsOlder days t) := by
  unfold IsOlder
  infer_instance

def Reaches (now : Instant) (days : Int) : Prop := first.secs ≤ (now.daysAgo days).1

instance (now : Instant) (days : Int) : Decidable (now.Reaches days) := by
  unfold Reaches
  infer_instance

variable {now t : Instant} {days : Int}

theorem not_isOlder (beyond : ¬ now.Reaches days) (t : Instant) : ¬ now.IsOlder days t := by
  have early := t.first_le
  have start : first.secs = -8334601228800 := rfl
  unfold Reaches at beyond
  unfold IsOlder
  omega

theorem IsOlder.mono {more : Int} (back : 0 ≤ days) (further : days ≤ more) (older : now.IsOlder more t) :
    now.IsOlder days t := by
  unfold IsOlder daysAgo at older ⊢
  split_ifs at older ⊢
  all_goals
    dsimp only at older ⊢
    omega

theorem sub?_days (now : Instant) {d : Span} (back : 0 ≤ days) (whole : d.val = days * 86400 * 1000000000) :
    now.sub? d = ofParts? (now.daysAgo days).1 (now.daysAgo days).2 := by
  have bound := now.nanos_lt
  have seconds : Int.tdiv (-d.val) 1000000000 = -(days * 86400) := by
    rw [whole, Int.neg_tdiv, Int.mul_tdiv_cancel _ (by decide)]
  have rest : Int.tmod (-d.val) 1000000000 = 0 := by
    rw [whole, Int.neg_tmod, Int.mul_tmod_left, Int.neg_zero]
  have shifted : shift now.secs now.nanos (-d.val) = ((now.daysAgo days).1, ((now.daysAgo days).2 : Int)) := by
    simp only [shift, shift.carry, daysAgo, seconds, rest]
    split_ifs
    all_goals refine Prod.ext ?_ ?_ <;> dsimp only <;> omega
  unfold sub?
  rw [shifted]
  rfl

/-- The time so many days ago is one of the calendar exactly if the calendar reaches so far back. -/
theorem ofParts?_daysAgo (now : Instant) (back : 0 ≤ days) :
    (now.Reaches days ∧ ∃ u, ofParts? (now.daysAgo days).1 (now.daysAgo days).2 = some u ∧
        ∀ t, t < u ↔ now.IsOlder days t) ∨
      ¬ now.Reaches days ∧ ofParts? (now.daysAgo days).1 (now.daysAgo days).2 = none := by
  have bound := now.nanos_lt
  have last := now.le_last
  have leap := now.leap_last
  by_cases reached : now.Reaches days
  · have start : first.secs = -8334601228800 := rfl
    refine .inl ⟨reached, ?_⟩
    have inside : (-8334601228800 ≤ (now.daysAgo days).1 ∧ (now.daysAgo days).1 ≤ 8210266876799) ∧
        (now.daysAgo days).2 < 2000000000 ∧ (1000000000 ≤ (now.daysAgo days).2 → (now.daysAgo days).1 % 60 = 59) := by
      unfold Reaches at reached
      unfold daysAgo at reached ⊢
      split_ifs at reached ⊢
      all_goals
        dsimp only at reached ⊢
        omega
    exact ⟨_, dif_pos inside, fun t => Iff.rfl⟩
  · exact .inr ⟨reached, dif_neg fun inside => reached inside.1.1⟩

end Instant

namespace Retention

variable {s : Store} {now : Instant} {days : Word64}

/-- A number of days that is too long for a span is longer than the calendar, too. -/
theorem cutoff?_eq (now : Instant) (back : 0 ≤ days.val) :
    cutoff? now days = Instant.ofParts? (now.daysAgo days.val).1 (now.daysAgo days.val).2 := by
  unfold cutoff? Span.ofDays?
  by_cases held : days.val * 86400 ≤ 9223372036854775
  · have whole : Span.ofNanos? (days.val * 86400 * 1000000000) = some ⟨days.val * 86400 * 1000000000, by omega⟩ :=
      dif_pos (by omega)
    dsimp only
    rw [if_pos (by omega), whole, Option.bind_some]
    exact Instant.sub?_days now back rfl
  · have last := now.le_last
    have beyond : ¬ now.Reaches days.val := by
      have start : Instant.first.secs = -8334601228800 := rfl
      unfold Instant.Reaches Instant.daysAgo
      split_ifs
      all_goals
        dsimp only
        omega
    have never : Instant.ofParts? (now.daysAgo days.val).1 (now.daysAgo days.val).2 = none :=
      ((Instant.ofParts?_daysAgo now back).resolve_left fun reached => beyond reached.1).2
    dsimp only
    rw [if_neg (by omega), never, Option.bind_none]

end Retention

/-! ### The cleanup -/

def Delivery.IsOutdated (now : Instant) (days : Int) (d : Delivery) : Prop :=
  (d.status = .delivered ∨ d.status = .dead) ∧ now.IsOlder days d.createdAt

instance (now : Instant) (days : Int) (d : Delivery) : Decidable (d.IsOutdated now days) := by
  unfold Delivery.IsOutdated
  infer_instance

def Store.withoutOutdated (s : Store) (now : Instant) (days : Int) : Store :=
  { s with deliveries := s.deliveries.filter fun d => ¬ d.IsOutdated now days }

namespace Retention

def after (s : Store) (now : Instant) (days : Word64) : Store :=
  match run s now days with
  | .ok x => s.wrote x
  | .error _ => s

variable {s : Store} {now : Instant} {days more : Word64}

theorem run_negative (s : Store) (now : Instant) (negative : days.val < 0) :
    run s now days = .ok (.error .negativeRetention) := if_pos negative

theorem run_beyond (s : Store) (back : 0 ≤ days.val) (beyond : ¬ now.Reaches days.val) :
    run s now days = .error ⟨⟩ := by
  have none := ((Instant.ofParts?_daysAgo now back).resolve_left fun reached => beyond reached.1).2
  unfold run
  rw [if_neg (by omega), cutoff?_eq now back, none]

theorem run_within (s : Store) (back : 0 ≤ days.val) (reached : now.Reaches days.val) :
    run s now days = .ok (s.whenOnline
      (.ok (s.deliveries.countP (·.IsOutdated now days.val), s.withoutOutdated now days.val))) := by
  obtain ⟨-, cutoff, found, before⟩ := (Instant.ofParts?_daysAgo now back).resolve_right fun beyond => beyond.1 reached
  have outdated (d : Delivery) : (!(d.isTerminal && d.createdAt < cutoff)) = decide (¬ d.IsOutdated now days.val) := by
    simp [Delivery.isTerminal, Delivery.IsOutdated, before]
  have kept : (s.deliveries.filter fun d => !(d.isTerminal && d.createdAt < cutoff)) =
      (s.withoutOutdated now days.val).deliveries := List.filter_congr fun d _ => outdated d
  have count : s.deliveries.length - (s.withoutOutdated now days.val).deliveries.length =
      s.deliveries.countP (·.IsOutdated now days.val) := by
    have split := List.length_eq_countP_add_countP (l := s.deliveries) fun d => decide (d.IsOutdated now days.val)
    have rest : (s.withoutOutdated now days.val).deliveries.length =
        s.deliveries.countP fun d => ¬ decide (d.IsOutdated now days.val) = true := by
      simp [Store.withoutOutdated, List.countP_eq_length_filter]
    omega
  unfold run
  rw [if_neg (by omega), cutoff?_eq now back, found]
  unfold Store.cleanupOld
  dsimp only
  rw [kept, count]
  rfl

theorem withoutOutdated_again (s : Store) (now : Instant) (days : Int) :
    (s.withoutOutdated now days).deliveries.countP (·.IsOutdated now days) = 0 ∧
      (s.withoutOutdated now days).withoutOutdated now days = s.withoutOutdated now days := by
  constructor
  · refine List.countP_eq_zero.mpr fun d hd => ?_
    simpa using (List.mem_filter.mp hd).2
  · unfold Store.withoutOutdated
    rw [List.filter_filter]
    simp

/-- What is outdated after more days is outdated after fewer. -/
theorem withoutOutdated_mono (s : Store) (back : 0 ≤ days.val) (longer : days.val ≤ more.val) :
    s.deliveries.countP (·.IsOutdated now more.val) ≤ s.deliveries.countP (·.IsOutdated now days.val) ∧
      (s.withoutOutdated now days.val).deliveries.Sublist (s.withoutOutdated now more.val).deliveries := by
  have earlier (d : Delivery) (outdated : d.IsOutdated now more.val) : d.IsOutdated now days.val :=
    ⟨outdated.1, outdated.2.mono back longer⟩
  constructor
  · exact List.countP_mono_left fun d _ => by simpa using earlier d
  · refine List.monotone_filter_right _ fun d => ?_
    simpa using mt (earlier d)

structure Cleans (s u : Store) (now : Instant) (days : Word64) (n : Nat) : Prop where
  count : n = s.deliveries.countP (·.IsOutdated now days.val)
  rows : u.deliveries = s.deliveries.filter fun d => ¬ d.IsOutdated now days.val
  webhooks : u.webhooks = s.webhooks
  online : u.online = s.online
  again : run u now days = .ok (.ok (0, u))
  longer : ∀ more : Word64, days.val ≤ more.val → ∀ m v, run s now more = .ok (.ok (m, v)) →
    m ≤ n ∧ u.deliveries.Sublist v.deliveries

theorem cleans (online : s.online = true) (back : 0 ≤ days.val) (reached : now.Reaches days.val) :
    Cleans s (s.withoutOutdated now days.val) now days (s.deliveries.countP (·.IsOutdated now days.val)) where
  count := rfl
  rows := rfl
  webhooks := rfl
  online := rfl
  again := by
    obtain ⟨nothing, same⟩ := withoutOutdated_again s now days.val
    rw [run_within _ back reached, nothing, same]
    exact congrArg Except.ok (Store.whenOnline_eq _ online)
  longer more further m v ran := by
    by_cases within : now.Reaches more.val
    · rw [run_within s (by omega) within, Store.whenOnline_eq _ online] at ran
      cases ran
      exact withoutOutdated_mono s back further
    · rw [run_beyond s (by omega) within] at ran
      cases ran

/-- A negative number of days is refused. Otherwise a cleanup deletes exactly what is over and more than so many days
old, counts it, and leaves all else as it is and in its order; a second one at the same time deletes nothing, and one
with more days no more than this. But if the calendar does not reach so far back the cleanup breaks down, though nothing
is that old. -/
theorem run_deletes_outdated (s : Store) (now : Instant) (days : Word64) :
    (days.val < 0 → run s now days = .ok (.error .negativeRetention) ∧ after s now days = s) ∧
      (0 ≤ days.val → ¬ now.Reaches days.val →
        run s now days = .error ⟨⟩ ∧ after s now days = s ∧ ∀ d ∈ s.deliveries, ¬ d.IsOutdated now days.val) ∧
      (0 ≤ days.val → now.Reaches days.val →
        (s.online = false → run s now days = .ok (.error .unavailable) ∧ after s now days = s) ∧
        (s.online = true → ∃ n, run s now days = .ok (.ok (n, after s now days)) ∧
          Cleans s (after s now days) now days n)) := by
  refine ⟨fun negative => ?_, fun back beyond => ?_, fun back reached => ⟨fun offline => ?_, fun online => ?_⟩⟩
  · have refused := run_negative s now negative
    exact ⟨refused, by rw [after, refused]; rfl⟩
  · have broken := run_beyond s back beyond
    exact ⟨broken, by rw [after, broken], fun d _ outdated => Instant.not_isOlder beyond _ outdated.2⟩
  · have refused := run_within s back reached
    rw [Store.whenOnline_offline offline] at refused
    exact ⟨refused, by rw [after, refused]; rfl⟩
  · have ran := run_within s back reached
    rw [Store.whenOnline_eq _ online] at ran
    have left : after s now days = s.withoutOutdated now days.val := by
      rw [after, ran]
      rfl
    rw [left]
    exact ⟨_, ran, cleans online back reached⟩

section History

open Fleet.Sample

/-- A delivery that is over since the first second, one as old that is pending, and one that is ten days younger. -/
def Sample.history : Store :=
  let row (id : Nat) (status : Status) (created : Nat) : Delivery :=
    Order.toDelivery ⟨hook, "page.published", "", status, none⟩ (.ofNat id) (second created)
  ⟨[registration.toWebhook hook (second 0)], [row 10 .dead 0, row 11 .pending 0, row 12 .delivered 864000], true⟩

/-- The youngest delivery is thirty days old to the second and stays. -/
theorem run_deletes_outdated_month :
    (0 ≤ (Word64.clamp 30).val ∧ (second 3456000).Reaches (Word64.clamp 30).val) ∧
      (after Sample.history (second 3456000) (.clamp 30)).deliveries.map (·.id) = [.ofNat 11, .ofNat 12] ∧
      ∃ n, run Sample.history (second 3456000) (.clamp 30) =
          .ok (.ok (n, after Sample.history (second 3456000) (.clamp 30))) ∧
        Cleans Sample.history (after Sample.history (second 3456000) (.clamp 30)) (second 3456000) (.clamp 30) n := by
  have back : 0 ≤ (Word64.clamp 30).val := by decide
  have reached : (second 3456000).Reaches (Word64.clamp 30).val := by decide +kernel
  refine ⟨⟨back, reached⟩, by decide +kernel, ?_⟩
  exact ((run_deletes_outdated Sample.history (second 3456000) (.clamp 30)).2.2 back reached).2 rfl

/-- At noon on the first of June in 2025 nothing is a hundred million days old. -/
theorem far_window_breaks_down :
    0 ≤ (Word64.clamp 100000000).val ∧ Sample.history.online = true ∧
      (∀ d ∈ Sample.history.deliveries, ¬ d.IsOutdated (second 1748779200) (Word64.clamp 100000000).val) ∧
      ∀ n u, run Sample.history (second 1748779200) (.clamp 100000000) ≠ .ok (.ok (n, u)) := by
  have back : 0 ≤ (Word64.clamp 100000000).val := by decide
  have beyond : ¬ (second 1748779200).Reaches (Word64.clamp 100000000).val := by decide +kernel
  refine ⟨back, rfl, fun d _ outdated => Instant.not_isOlder beyond _ outdated.2, fun n u ran => ?_⟩
  rw [run_beyond _ back beyond] at ran
  cases ran

end History

end Retention

end Courier
