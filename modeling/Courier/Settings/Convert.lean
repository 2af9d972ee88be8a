import Courier.Request
import Courier.Retention
import Courier.Scheduler
import Courier.Settings.Sections
set_option autoImplicit false

namespace Courier

def Duration.ofCount (n : Count64) : Duration :=
  .ofSeconds n.val.toNat (by have := n.lo_le; have := n.le_hi; omega)

namespace DeliverySettings

def policy (s : DeliverySettings) : RetryPolicy :=
  ⟨.clamp (max 1 s.maxAttempts.val), .ofCount s.initialBackoff, .ofCount s.maxBackoff⟩

/-- How the scheduler works; none if no claim can outlive a request. -/
def scheduler? (s : DeliverySettings) : Option SchedulerConfig :=
  (SchedulerConfig.minClaimTtl? (.ofCount s.requestTimeout)).map fun least => {
    scanInterval := .ofCount (.clamp (max 1 s.scanInterval.val))
    batchSize := .clamp (max 1 s.batchSize.val)
    concurrency := max 1 s.concurrency.val.toNat
    claimTtl := Duration.max (.ofCount s.claimTtl) least
    policy := s.policy }

def sender (s : DeliverySettings) : SenderConfig :=
  ⟨.ofCount s.requestTimeout, s.userAgent, s.signatureHeader, s.responseBodyLimit.val.toNat⟩

end DeliverySettings

def RetentionSettings.retention? (s : RetentionSettings) : Option Retention :=
  Retention.ofSettings? s.cleanupInterval.val.toNat s.days

end Courier
