import Courier.Proofs.Rounds
import Courier.Proofs.SettingsRange
set_option autoImplicit false

namespace Courier

def Span.maxSeconds : Nat := 9223372036854775

example : (Span.ofNanos? (Span.maxSeconds * 1000000000)).isSome = true ∧
    Span.ofNanos? ((Span.maxSeconds + 1) * 1000000000) = none := by decide

/-! ### Where the lease is written -/

structure SchedulerConfig.Stamps (c : SchedulerConfig) : Prop where
  claims : ∀ {id : Uuid} {now : Instant} {s t : Store} {batch : List Delivery},
    Scan.claim ⟨id, c⟩ now s = .ok (batch, t) → ∀ d ∈ batch, d ∈ t.deliveries ∧ d.claimedBy = some id ∧
      ∃ till, now.add? c.lease = some till ∧ d.claimedUntil = some till
  renewals : ∀ {id : Uuid} {d : Delivery} {now : Instant} {s t : Store},
    Worker.start ⟨id, c⟩ d false now s = .ok (.renewed, t) → ∃ e ∈ t.deliveries, e.id = d.id ∧ e.claimedBy = some id ∧
      ∃ till, now.add? c.lease = some till ∧ e.claimedUntil = some till

theorem SchedulerConfig.stamps (c : SchedulerConfig) : c.Stamps where
  claims claimed d hd := by
    obtain ⟨-, till, ends, -, stored, -⟩ := Store.claimDue_ok claimed
    obtain ⟨held, d, -, -, rfl⟩ := stored d hd
    exact ⟨held, rfl, till, ends, rfl⟩
  renewals started := by
    cases Worker.start_ok started with
    | renewed ends call =>
      obtain ⟨-, -, ⟨e, -, held, -, stored⟩ | ⟨-, unheld, -⟩⟩ := Store.renewClaim_ok call
      · exact ⟨_, stored, (Store.isHeld_iff.mp held).1, rfl, _, ends, rfl⟩
      · cases unheld

/-! ### How long it lasts -/

namespace DeliverySettings

variable {s : DeliverySettings} {c : SchedulerConfig}

def requestSeconds (s : DeliverySettings) : Nat := s.requestTimeout.val.toNat + 30

def claimSeconds (s : DeliverySettings) : Nat := s.claimTtl.val.toNat

theorem leaseSeconds_eq (s : DeliverySettings) : s.leaseSeconds = max s.claimSeconds s.requestSeconds := rfl

theorem lease_seconds (converted : s.scheduler? = some c) :
    c.lease.val = if s.leaseSeconds ≤ Span.maxSeconds then (s.leaseSeconds * 1000000000 : Int) else 90 * 1000000000 :=
  Span.ofDuration_seconds (scheduler?_claimTtl converted) Span.ninetySeconds

theorem requestSeconds_le_lease (converted : s.scheduler? = some c) :
    s.requestSeconds * 1000000000 ≤ c.lease.val ↔ s.leaseSeconds ≤ Span.maxSeconds ∨ s.requestSeconds ≤ 90 := by
  have longest := s.leaseSeconds_eq
  rw [lease_seconds converted]
  split_ifs <;> omega

theorem claimSeconds_le_lease (converted : s.scheduler? = some c) (held : s.claimSeconds ≤ Span.maxSeconds) :
    s.claimSeconds * 1000000000 ≤ c.lease.val ↔ s.requestSeconds ≤ Span.maxSeconds ∨ s.claimSeconds ≤ 90 := by
  have longest := s.leaseSeconds_eq
  rw [lease_seconds converted]
  split_ifs <;> omega

theorem lease_mono_iff {r : DeliverySettings} {b : SchedulerConfig} (converted : s.scheduler? = some c)
    (raised : r.scheduler? = some b) (claim : s.claimSeconds ≤ r.claimSeconds)
    (request : s.requestSeconds ≤ r.requestSeconds) : c.lease.val ≤ b.lease.val ↔
      r.leaseSeconds ≤ Span.maxSeconds ∨ Span.maxSeconds < s.leaseSeconds ∨ s.leaseSeconds ≤ 90 := by
  have longest := s.leaseSeconds_eq
  have raised_longest := r.leaseSeconds_eq
  rw [lease_seconds converted, lease_seconds raised]
  split_ifs <;> omega

/-- The lease of the claims outlasts a request by half a minute exactly if it is a span or a request takes a minute at
most. It reaches a claim that is a span exactly if a request and half a minute are one too, or the claim is one of
ninety seconds at most. Settings that ask for more lose nothing exactly if they still ask for a span, or what was asked
for before was none or ninety seconds at most. -/
theorem lease_outlives_requests_iff (converted : s.scheduler? = some c) :
    c.Stamps ∧
      (s.requestSeconds * 1000000000 ≤ c.lease.val ↔ s.leaseSeconds ≤ Span.maxSeconds ∨ s.requestSeconds ≤ 90) ∧
      (s.claimSeconds ≤ Span.maxSeconds →
        (s.claimSeconds * 1000000000 ≤ c.lease.val ↔ s.requestSeconds ≤ Span.maxSeconds ∨ s.claimSeconds ≤ 90)) ∧
      ∀ (r : DeliverySettings) (b : SchedulerConfig), r.scheduler? = some b → s.claimSeconds ≤ r.claimSeconds →
        s.requestSeconds ≤ r.requestSeconds → (c.lease.val ≤ b.lease.val ↔
          r.leaseSeconds ≤ Span.maxSeconds ∨ Span.maxSeconds < s.leaseSeconds ∨ s.leaseSeconds ≤ 90) :=
  ⟨c.stamps, requestSeconds_le_lease converted, claimSeconds_le_lease converted,
    fun _ _ raised claim request => lease_mono_iff converted raised claim request⟩

namespace Sample

open Fleet.Sample

def lenient : DeliverySettings := { settings with requestTimeout := .clamp 120, claimTtl := .clamp 600 }

def lenientConfig : SchedulerConfig := { SchedulerConfig.standard with claimTtl := .ofSeconds 600 }

def tireless : DeliverySettings := { settings with requestTimeout := .clamp 10000000000000000 }

def tirelessConfig : SchedulerConfig := { SchedulerConfig.standard with claimTtl := .ofSeconds 10000000000000030 }

def tirelessCrew : Crew := crewOf tirelessConfig

def tenacious : DeliverySettings := { settings with claimTtl := .clamp 9000000000000000 }

def tenaciousConfig : SchedulerConfig := { SchedulerConfig.standard with claimTtl := .ofSeconds 9000000000000000 }

def jealous : DeliverySettings := { settings with claimTtl := .clamp 10000000000000000 }

def jealousConfig : SchedulerConfig := { SchedulerConfig.standard with claimTtl := .ofSeconds 10000000000000000 }

/-- While a request is under way another scheduler claims the delivery and sends it too. -/
def sentTwice : List Act :=
  sent ++ [.scan south (second 100), .start south parcel false (second 100), .look south parcel]

end Sample

open Sample Fleet.Sample

theorem lease_outlives_requests_iff_lenient :
    (settings.scheduler? = some .standard ∧ lenient.scheduler? = some lenientConfig) ∧ SchedulerConfig.standard.Stamps ∧
      settings.requestSeconds * 1000000000 ≤ SchedulerConfig.standard.lease.val ∧
      settings.claimSeconds * 1000000000 ≤ SchedulerConfig.standard.lease.val ∧
      SchedulerConfig.standard.lease.val ≤ lenientConfig.lease.val := by
  have converted : settings.scheduler? = some .standard := by decide +kernel
  have raised : lenient.scheduler? = some lenientConfig := by decide +kernel
  obtain ⟨stamps, request, claim, mono⟩ := lease_outlives_requests_iff converted
  exact ⟨⟨converted, raised⟩, stamps, request.mpr (.inl (by decide)), (claim (by decide)).mpr (.inl (by decide)),
    (mono lenient lenientConfig raised (by decide) (by decide)).mpr (.inl (by decide))⟩

/-- A claim of ninety seconds for a request that may take longer than any span, so that another scheduler sends the same
delivery meanwhile. Settings that ask for longer claims shorten them. -/
theorem long_lease_falls_short :
    (tireless.scheduler? = some tirelessConfig ∧
      tirelessConfig.lease.val < tireless.requestSeconds * 1000000000 ∧
      (Fleet.after tirelessCrew sentTwice).sending north parcel = true ∧
      (Fleet.after tirelessCrew sentTwice).sending south parcel = true) ∧
    tenacious.scheduler? = some tenaciousConfig ∧ jealous.scheduler? = some jealousConfig ∧
      tenacious.claimSeconds ≤ jealous.claimSeconds ∧ tenacious.requestSeconds = jealous.requestSeconds ∧
      jealousConfig.lease.val < tenaciousConfig.lease.val := by
  refine ⟨⟨?_, ?_, ?_, ?_⟩, ?_, ?_, ?_, ?_, ?_⟩
  all_goals decide +kernel

end DeliverySettings

end Courier
