import Courier.Proofs.Backoff
import Courier.Proofs.LaterInstants
import Courier.Proofs.Moves
import Courier.Settings.Convert
import Mathlib.Tactic.IntervalCases
set_option autoImplicit false

namespace Courier

namespace Instant

theorem ofParts?_isSome {secs : Int} {nanos : Nat} : (ofParts? secs nanos).isSome = true ↔
    (-8334601228800 ≤ secs ∧ secs ≤ 8210266876799) ∧ nanos < 2000000000 ∧ (1000000000 ≤ nanos → secs % 60 = 59) := by
  unfold ofParts?
  split
  · rename_i inside
    exact ⟨fun _ => inside, fun _ => rfl⟩
  · rename_i outside
    exact ⟨fun found => (by cases found), fun inside => absurd inside outside⟩

theorem add?_seconds (t : Instant) {d : Span} {n : Nat} (whole : d.val = n * 1000000000) :
    (t.add? d).isSome = true ↔ t.secs + n ≤ 8210266876799 := by
  have first := t.first_le
  have last := t.le_last
  have bound := t.nanos_lt
  have leap := t.leap_last
  have fraction : 0 ≤ t.fraction ∧ t.fraction < 1000000000 := by
    unfold Instant.fraction
    split <;> omega
  rw [add?_forward t (by omega)]
  split
  · -- a leap second lasts only if no time passes
    have still : n = 0 := by omega
    rw [ofParts?_isSome]
    omega
  · rw [ofParts?_isSome]
    omega

def InYears (t : Instant) : Prop := 0 ≤ t.secs ∧ t.secs ≤ 253402300799

def endOfYears : Instant := ⟨253402300799, 0, by decide, by decide, first.nanos_lt, by decide⟩

example : Calendar.Date.toDay ⟨9999, 12, 31⟩ * 86400 + 86399 = endOfYears.secs := by decide

end Instant

/-- So many seconds after any time of the years there is a date, or the seconds are too many for a span. -/
def FitsDates (seconds : Nat) : Prop := seconds ≤ 7956864576000 ∨ 9223372036854775 < seconds

theorem Span.ofDuration_seconds {d : Duration} {n : Nat} (whole : d.nanos = n * 1000000000) (other : Span) :
    ((Span.ofDuration? d).getD other).val = if n ≤ 9223372036854775 then (n * 1000000000 : Int) else other.val := by
  unfold Span.ofDuration? Span.ofNanos?
  rw [whole]
  split_ifs
  all_goals first | omega | simp

/-- A length of time can be added at all times of the years exactly if its seconds fit. -/
theorem fitsDates_iff {d : Duration} {n m : Nat} (whole : d.nanos = n * 1000000000) (other : Span)
    (short : other.val = m * 1000000000) (le : m ≤ 7956864576000) :
    FitsDates n ↔ ∀ now : Instant, now.InYears → (now.add? ((Span.ofDuration? d).getD other)).isSome = true := by
  have span := Span.ofDuration_seconds whole other
  by_cases held : n ≤ 9223372036854775
  · rw [if_pos held] at span
    constructor
    · intro fits now years
      rw [Instant.add?_seconds now span]
      unfold FitsDates at fits
      unfold Instant.InYears at years
      omega
    · intro all
      have last := (Instant.add?_seconds _ span).mp (all .endOfYears ⟨by decide, by decide⟩)
      have secs : Instant.endOfYears.secs = 253402300799 := rfl
      unfold FitsDates
      omega
  · -- too long for a span, so that the other one is added
    rw [if_neg held, short] at span
    have fits : FitsDates n := .inr (by omega)
    refine ⟨fun _ now years => ?_, fun _ => fits⟩
    rw [Instant.add?_seconds now span]
    unfold Instant.InYears at years
    omega

/-! ### The seconds that settings come to -/

namespace DeliverySettings

variable (s : DeliverySettings)

def leaseSeconds : Nat := max s.claimTtl.val.toNat (s.requestTimeout.val.toNat + 30)

def delaySeconds (attempt : Nat) : Nat :=
  if attempt ≤ 32 then min (s.initialBackoff.val.toNat * 2 ^ (attempt - 1)) s.maxBackoff.val.toNat
  else s.maxBackoff.val.toNat

structure KeepsDates : Prop where
  request : s.requestTimeout.val + 30 < 18446744073709551616
  lease : FitsDates s.leaseSeconds
  delays : ∀ n : Nat, 1 ≤ n → n < max 1 s.maxAttempts.val → FitsDates (s.delaySeconds n)

variable {s}

theorem nextDelay_nanos (s : DeliverySettings) (n : Word32) :
    (s.policy.nextDelay n).nanos = s.delaySeconds n.val.toNat * 1000000000 := by
  have initial : s.policy.initialBackoff.nanos = s.initialBackoff.val.toNat * 1000000000 := rfl
  have latest : s.policy.maxBackoff.nanos = s.maxBackoff.val.toNat * 1000000000 := rfl
  have exponent : (max n.val 1 - 1).toNat = n.val.toNat - 1 := by omega
  have few : n.val ≤ 32 ↔ n.val.toNat ≤ 32 := by omega
  rw [RetryPolicy.nextDelay_nanos, RetryPolicy.scheduled, RetryPolicy.doubled, delaySeconds, initial, latest, exponent]
  simp only [few]
  split_ifs with early
  · rw [Nat.mul_right_comm]
    exact Nat.mul_min_mul_right _ _ _
  · rfl

theorem policy_limit (s : DeliverySettings) : s.policy.maxAttempts.val = max 1 s.maxAttempts.val := by
  have high := s.maxAttempts.le_hi
  change max (-2147483648) (min 2147483647 (max 1 s.maxAttempts.val)) = max 1 s.maxAttempts.val
  omega

theorem minClaimTtl?_isSome (s : DeliverySettings) :
    (SchedulerConfig.minClaimTtl? (.ofCount s.requestTimeout)).isSome = true ↔
      s.requestTimeout.val + 30 < 18446744073709551616 := by
  have low := s.requestTimeout.lo_le
  change (Duration.ofNanos? (s.requestTimeout.val.toNat * 1000000000 + 30 * 1000000000)).isSome = true ↔ _
  rw [Option.isSome_iff_ne_none, Ne, Duration.ofNanos?_eq_none_iff]
  omega

theorem scheduler?_isSome (s : DeliverySettings) :
    (∃ c, s.scheduler? = some c) ↔ s.requestTimeout.val + 30 < 18446744073709551616 := by
  rw [← Option.isSome_iff_exists, scheduler?, Option.isSome_map, minClaimTtl?_isSome]

theorem scheduler?_claimTtl {c : SchedulerConfig} (converted : s.scheduler? = some c) :
    c.claimTtl.nanos = s.leaseSeconds * 1000000000 := by
  obtain ⟨least, hleast, rfl⟩ := Option.map_eq_some_iff.mp converted
  have shortest : least.nanos = (s.requestTimeout.val.toNat + 30) * 1000000000 := by
    have sum : least.nanos = s.requestTimeout.val.toNat * 1000000000 + 30 * 1000000000 :=
      Duration.ofNanos?_eq_some_iff.mp hleast
    omega
  have configured : (Duration.ofCount s.claimTtl).nanos = s.claimTtl.val.toNat * 1000000000 := rfl
  change (Duration.max (.ofCount s.claimTtl) least).nanos = _
  rw [Duration.nanos_max, configured, shortest]
  exact Nat.mul_max_mul_right _ _ _

theorem scheduler?_policy {c : SchedulerConfig} (converted : s.scheduler? = some c) : c.policy = s.policy := by
  obtain ⟨least, -, rfl⟩ := Option.map_eq_some_iff.mp converted
  rfl

end DeliverySettings

/-! ### Scans under a configuration -/

theorem Bounded.add?_eq_some {lo hi k : Int} {a b : Bounded lo hi} (sum : b.val = a.val + k) : a.add? k = some b := by
  rw [add?, ← sum]
  exact ofInt?_val b

/-- The change after an attempt that may be repeated exists when the date does at which to repeat it. -/
theorem Change.afterAttempt_repeats {before n : Word32} {o : Outcome} {p : RetryPolicy} {now : Instant}
    (number : n.val = before.val + 1) (retryable : o.verdict = .retryable) (more : n.val < p.maxAttempts.val) :
    afterAttempt before o p now ≠ .error ⟨⟩ ↔
      (now.add? ((Span.ofDuration? (p.nextDelay n)).getD Span.day)).isSome = true := by
  unfold afterAttempt
  simp only [Bounded.add?_eq_some number, retryable, RetryPolicy.allowsRetryAfter, decide_eq_true more, if_true]
  split
  · rename_i none_later
    simp [none_later]
  · rename_i due later
    simp [later]

/-- An attempt that is allowed is counted, and when it is not to be repeated nothing can go wrong. -/
theorem Change.afterAttempt_ends {before n : Word32} {o : Outcome} {p : RetryPolicy} {now : Instant}
    (number : n.val = before.val + 1) (ends : o.verdict = .retryable → p.maxAttempts.val ≤ n.val) :
    afterAttempt before o p now ≠ .error ⟨⟩ := by
  unfold afterAttempt
  simp only [Bounded.add?_eq_some number]
  cases hv : o.verdict with
  | success | permanent => simp
  | retryable =>
    have enough : ¬ n.val < p.maxAttempts.val := by
      have := ends hv
      omega
    simp [RetryPolicy.allowsRetryAfter, enough]

namespace SchedulerConfig

variable (c : SchedulerConfig)

/-- In the years 1970 to 9999 no sum of a scan leaves its range, whatever is stored and whatever comes back. -/
structure Lasts : Prop where
  claim : ∀ (id : Uuid) (now : Instant) (s : Store), now.InYears → Scan.claim ⟨id, c⟩ now s ≠ .error .outOfRange
  start : ∀ (id : Uuid) (d : Delivery) (stopping : Bool) (now : Instant) (s : Store), now.InYears →
    Worker.start ⟨id, c⟩ d stopping now s ≠ .error ⟨⟩
  answer : ∀ (id : Uuid) (d : Delivery) (o : Outcome) (now : Instant), now.InYears → 0 ≤ d.attempts.val →
    d.attempts.val < c.policy.maxAttempts.val → Worker.answer ⟨id, c⟩ d o now ≠ .error ⟨⟩

variable {c}

theorem claim_lasts {id : Uuid} {now : Instant} {s : Store} (lease : (Worker.claimEnd? c now).isSome = true) :
    Scan.claim ⟨id, c⟩ now s ≠ .error .outOfRange := by
  obtain ⟨till, ends⟩ := Option.isSome_iff_exists.mp lease
  have ends' : now.add? c.lease = some till := ends
  unfold Scan.claim Store.claimDue Store.whenOnline
  simp only [ends']
  split <;> simp

theorem claim_empty {id : Uuid} {now : Instant} (claimed : Scan.claim ⟨id, c⟩ now .empty ≠ .error .outOfRange) :
    (Worker.claimEnd? c now).isSome = true := by
  rw [Option.isSome_iff_ne_none]
  intro beyond
  have beyond' : now.add? c.lease = none := beyond
  refine claimed ?_
  unfold Scan.claim Store.claimDue Store.whenOnline
  simp [beyond', Store.empty]

theorem answer_counts {id : Uuid} {d : Delivery} {o : Outcome} {now : Instant} :
    Worker.answer ⟨id, c⟩ d o now ≠ .error ⟨⟩ ↔ Change.afterAttempt d.attempts o c.policy now ≠ .error ⟨⟩ := by
  unfold Worker.answer
  cases Change.afterAttempt d.attempts o c.policy now <;> simp [Except.map]

def attempted (n : Word32) : Delivery :=
  { (⟨.ofNat 0, "", "", .pending, none⟩ : Order).toDelivery (.ofNat 0) .first with attempts := n }

theorem lasts_iff : c.Lasts ↔ (∀ now : Instant, now.InYears → (Worker.claimEnd? c now).isSome = true) ∧
    ∀ n : Word32, 1 ≤ n.val → n.val < c.policy.maxAttempts.val → ∀ now : Instant, now.InYears →
      (now.add? ((Span.ofDuration? (c.policy.nextDelay n)).getD Span.day)).isSome = true := by
  constructor
  · intro lasts
    refine ⟨fun now years => claim_empty (lasts.claim (.ofNat 0) now .empty years), fun n pos more now years => ?_⟩
    have high := n.le_hi
    let before : Word32 := ⟨n.val - 1, by omega, by omega⟩
    have number : n.val = before.val + 1 := by
      change n.val = n.val - 1 + 1
      omega
    have answered := lasts.answer (.ofNat 0) (attempted before) (.failed .retryable "") now years
      (show 0 ≤ n.val - 1 by omega) (show n.val - 1 < c.policy.maxAttempts.val by omega)
    exact (Change.afterAttempt_repeats number rfl more).mp (answer_counts.mp answered)
  · rintro ⟨lease, delays⟩
    refine ⟨fun id now s years => claim_lasts (lease now years), fun id d stopping now s years => ?_,
      fun id d o now years nonneg below => ?_⟩
    · obtain ⟨stage, t, started⟩ := Worker.start_total ⟨id, c⟩ d stopping (lease now years) s
      rw [started]
      simp
    · have high := c.policy.maxAttempts.le_hi
      let n : Word32 := ⟨d.attempts.val + 1, by omega, by omega⟩
      have number : n.val = d.attempts.val + 1 := rfl
      rw [answer_counts]
      by_cases again : o.verdict = .retryable ∧ n.val < c.policy.maxAttempts.val
      · exact (Change.afterAttempt_repeats number again.1 again.2).mpr (delays n (by omega) again.2 now years)
      · refine Change.afterAttempt_ends number fun retryable => ?_
        by_contra more
        exact again ⟨retryable, by omega⟩

end SchedulerConfig

namespace DeliverySettings

variable {s : DeliverySettings}

theorem lasts_iff_fits {c : SchedulerConfig} (converted : s.scheduler? = some c) :
    c.Lasts ↔ FitsDates s.leaseSeconds ∧
      ∀ n : Nat, 1 ≤ n → n < max 1 s.maxAttempts.val → FitsDates (s.delaySeconds n) := by
  have policy := scheduler?_policy converted
  have lease := fitsDates_iff (m := 90) (scheduler?_claimTtl converted) Span.ninetySeconds rfl (by decide)
  rw [SchedulerConfig.lasts_iff, policy, policy_limit]
  refine and_congr lease.symm ⟨fun delays n pos more => ?_, fun fits n pos more => ?_⟩
  · have high := s.maxAttempts.le_hi
    let number : Word32 := ⟨n, by omega, by omega⟩
    have nanos := nextDelay_nanos s number
    rw [show number.val.toNat = n from rfl] at nanos
    exact (fitsDates_iff (m := 86400) nanos Span.day rfl (by decide)).mpr
      (delays number (show (1 : Int) ≤ n by omega) more)
  · have fits' := fits n.val.toNat (by omega) (by omega)
    exact (fitsDates_iff (m := 86400) (nextDelay_nanos s n) Span.day rfl (by decide)).mp fits'

theorem keepsDates_iff : (∃ c, s.scheduler? = some c ∧ c.Lasts) ↔ s.KeepsDates := by
  constructor
  · rintro ⟨c, converted, lasts⟩
    obtain ⟨lease, delays⟩ := (lasts_iff_fits converted).mp lasts
    exact ⟨(scheduler?_isSome s).mp ⟨c, converted⟩, lease, delays⟩
  · intro keeps
    obtain ⟨c, converted⟩ := (scheduler?_isSome s).mpr keeps.request
    exact ⟨c, converted, (lasts_iff_fits converted).mpr ⟨keeps.lease, keeps.delays⟩⟩

end DeliverySettings

/-! ### Scans in a run -/

namespace Fleet

def breaksDown (crew : Crew) (f : Fleet) : Act → Bool
  | .scan h now => (Scan.claim (crew.scheduler h) now f.store matches .error .outOfRange)
  | .start h id stopping now =>
    match f.active? h id with
    | some ⟨d, .waiting⟩ => (Worker.start (crew.scheduler h) d stopping now f.store matches .error _)
    | _ => false
  | .answer h id outcome now =>
    match f.active? h id with
    | some ⟨d, .sending _⟩ => (Worker.answer (crew.scheduler h) d outcome now matches .error _)
    | _ => false
  | _ => false

end Fleet

def Act.InYears : Act → Prop
  | .scan _ now | .start _ _ _ now | .answer _ _ _ now => now.InYears
  | _ => True

namespace Fleet

variable {crew : Crew} {f : Fleet}

theorem Keeps.lasts {m : Int} (keeps : Keeps crew m f) (lasts : ∀ h, (crew.config h).Lasts) {a : Act} (years : a.InYears) :
    f.breaksDown crew a = false := by
  cases a with
  | scan h now =>
    have claimed := (lasts h).claim h now f.store years
    unfold breaksDown
    dsimp only
    split
    · rename_i failed
      exact absurd failed claimed
    · rfl
  | start h id stopping now =>
    unfold breaksDown
    dsimp only
    split
    · rename_i d turn
      have started := (lasts h).start h d stopping now f.store years
      split
      · rename_i failed
        exact absurd failed started
      · rfl
    · rfl
  | answer h id o now =>
    unfold breaksDown
    dsimp only
    split
    · rename_i d w turn
      obtain ⟨sound, pending⟩ := keeps.copies h _ (mem_of_active turn)
      have below := keeps.sends h _ (mem_of_active turn) w rfl
      have answered := (lasts h).answer h d o now years (sound.pending pending).1 below
      split
      · rename_i failed
        exact absurd failed answered
      · rfl
    · rfl
  | _ => rfl

/-- Settings become a configuration under which no sum of a scan leaves its range exactly if they keep clear of the
lengths of time that lead to no date. Then no scan of any run breaks down on a sum. -/
theorem scans_stay_in_range (s : DeliverySettings) :
    ((∃ c, s.scheduler? = some c ∧ c.Lasts) ↔ s.KeepsDates) ∧
      (s.KeepsDates → ∀ crew : Crew, (∀ h, s.scheduler? = some (crew.config h)) →
        ∀ (acts : List Act) (a : Act), a.InYears → (after crew acts).breaksDown crew a = false) := by
  refine ⟨DeliverySettings.keepsDates_iff, fun keeps crew converted acts a years => ?_⟩
  refine (keeps_after crew.allows_max acts).lasts (fun h => ?_) years
  exact (DeliverySettings.lasts_iff_fits (converted h)).mpr ⟨keeps.lease, keeps.delays⟩

namespace Sample

def settings : DeliverySettings where
  scanInterval := .clamp 30
  batchSize := .clamp 50
  concurrency := .clamp 3
  requestTimeout := .clamp 30
  maxAttempts := .clamp 5
  initialBackoff := .clamp 60
  maxBackoff := .clamp 86400
  responseBodyLimit := .clamp 10240
  claimTtl := .clamp 90
  shutdownGrace := .clamp 30
  userAgent := "Hookline-Webhook/1.0"
  signatureHeader := "X-Webhook-Signature"

def patient : DeliverySettings := { settings with requestTimeout := .clamp 18446744073709551615 }

def possessive : DeliverySettings := { settings with claimTtl := .clamp 8300000000000 }

def reluctant : DeliverySettings :=
  { settings with
    initialBackoff := .clamp 8300000000000
    maxBackoff := .clamp 9000000000000 }

theorem settings_keepDates : settings.KeepsDates where
  request := by decide
  lease := .inl (by decide)
  delays n pos more := by
    have few : n < 5 := by
      change (n : Int) < 5 at more
      omega
    interval_cases n
    all_goals exact .inl (by decide)

end Sample

theorem scans_stay_in_range_standard : Sample.settings.scheduler? = some .standard ∧
    ∀ (acts : List Act) (a : Act), a.InYears → (after Sample.crew acts).breaksDown Sample.crew a = false := by
  have converted : Sample.settings.scheduler? = some .standard := by decide +kernel
  exact ⟨converted, (scans_stay_in_range Sample.settings).2 Sample.settings_keepDates Sample.crew fun _ => converted⟩

namespace Sample

def crewOf (c : SchedulerConfig) : Crew := ⟨fun _ => c⟩

def possessiveConfig : SchedulerConfig := { SchedulerConfig.standard with claimTtl := .ofSeconds 8300000000000 }

def reluctantConfig : SchedulerConfig := { SchedulerConfig.standard with policy := reluctant.policy }

def possessiveCrew : Crew := crewOf possessiveConfig

def reluctantCrew : Crew := crewOf reluctantConfig

end Sample

open Sample in
/-- Three sums that leave their range: the shortest claim, the end of a claim and the date of the next attempt. -/
theorem settings_break_scans : patient.scheduler? = none ∧
    (possessive.scheduler? = some possessiveConfig ∧
      initial.breaksDown possessiveCrew (.scan north (second 0)) = true) ∧
    reluctant.scheduler? = some reluctantConfig ∧
      (after reluctantCrew sent).breaksDown reluctantCrew (.answer north parcel unavailable (second 2)) = true := by
  refine ⟨?_, ⟨?_, ?_⟩, ?_, ?_⟩
  all_goals decide +kernel

end Fleet

end Courier
