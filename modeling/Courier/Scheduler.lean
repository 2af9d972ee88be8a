import Courier.RetryPolicy
import Courier.Uuid
set_option autoImplicit false

namespace Courier

structure SchedulerConfig where
  scanInterval : Duration
  batchSize : Word64
  concurrency : Nat
  claimTtl : Duration
  policy : RetryPolicy
  deriving DecidableEq, Repr

namespace SchedulerConfig

def standard : SchedulerConfig :=
  ⟨.halfMinute, ⟨50, by decide, by decide⟩, 3, .ofSeconds 90, .standard⟩

def claimMargin : Duration := .halfMinute

/-- The shortest claim that outlives a request; none if there is no such length of time. -/
def minClaimTtl? (requestTimeout : Duration) : Option Duration := requestTimeout.add? claimMargin

/-- The lease of a claim. A length that is too long for a span becomes ninety seconds. -/
def lease (c : SchedulerConfig) : Span := (Span.ofDuration? c.claimTtl).getD Span.ninetySeconds

end SchedulerConfig

structure Scheduler where
  id : Uuid
  config : SchedulerConfig
  deriving DecidableEq, Repr

end Courier
