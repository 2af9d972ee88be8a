import Courier.Delivery
import Courier.RetryPolicy
set_option autoImplicit false

namespace Courier

inductive Verdict where
  | success
  | retryable
  | permanent
  deriving DecidableEq, Repr

/-- The verdict on a response: 2xx is a success, 4xx final, all else worth another attempt. -/
def Verdict.ofCode (code : Nat) : Verdict :=
  if 200 ≤ code ∧ code ≤ 299 then .success
  else if 400 ≤ code ∧ code ≤ 499 then .permanent
  else .retryable

structure Outcome where
  verdict : Verdict
  responseCode : Option Word32
  responseBody : Option String
  errorMessage : Option String
  deriving DecidableEq, Repr

namespace Outcome

def ofResponse (code : Nat) (body : Option String) (h : code < 65536) : Outcome :=
  let verdict := Verdict.ofCode code
  { verdict, responseCode := some ⟨code, by omega, by omega⟩, responseBody := body
    errorMessage := if verdict = .success then none else some s!"HTTP {String.ofList (Nat.toDigits 10 code)}" }

def failed (verdict : Verdict) (error : String) : Outcome :=
  { verdict, responseCode := none, responseBody := none, errorMessage := some error }

end Outcome

/-- A sum left the range of its numbers, which ends the whole task it is part of. -/
structure OutOfRange where
  deriving DecidableEq, Repr

namespace Change

def afterAttempt (attemptsBefore : Word32) (outcome : Outcome) (policy : RetryPolicy) (now : Instant) :
    Except OutOfRange Change :=
  match attemptsBefore.add? 1 with
  | none => .error ⟨⟩
  | some attempts =>
    let base : Change :=
      { release with
        attempts := some attempts
        lastAttemptAt := some (some now)
        responseCode := some outcome.responseCode
        responseBody := some outcome.responseBody
        errorMessage := some outcome.errorMessage }
    let dead : Change := { base with status := some .dead, nextRetryAt := some none }
    match outcome.verdict with
    | .success =>
      .ok { base with status := some .delivered, nextRetryAt := some none, deliveredAt := some (some now) }
    | .permanent => .ok dead
    | .retryable =>
      if policy.allowsRetryAfter attempts then
        let delay := (Span.ofDuration? (policy.nextDelay attempts)).getD Span.day
        match now.add? delay with
        | none => .error ⟨⟩
        | some due => .ok { base with status := some .pending, nextRetryAt := some (some due) }
      else .ok dead

def deadWithoutAttempt (reason : String) : Change :=
  { release with status := some .dead, nextRetryAt := some none, errorMessage := some (some reason) }

end Change

end Courier
