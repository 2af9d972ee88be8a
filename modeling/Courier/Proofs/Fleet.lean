import Courier.Dispatch
import Courier.Scan
import Mathlib.Data.List.Induction
import Mathlib.Logic.Function.Basic
set_option autoImplicit false

/-!
# Schedulers that share a store

A fleet is a store and, for every identifier, the scan that the scheduler of this identifier has under way. One action
is one atomic call to the store, or one look of a worker at what its request came to. All that an action depends on
besides the fleet (readings of a clock, outcomes, what a dispatch found before) is part of the action, so that a list of
actions is one interleaving and every list is a possible one.
-/

namespace Courier

structure Crew where
  config : Uuid → SchedulerConfig

namespace Crew

variable (crew : Crew)

def scheduler (h : Uuid) : Scheduler := ⟨h, crew.config h⟩

def policy (h : Uuid) : RetryPolicy := (crew.config h).policy

def limit (h : Uuid) : Int := (crew.policy h).maxAttempts.val

/-- There may be so many attempts: one at least, and no scheduler allows more. -/
structure Allows (m : Int) : Prop where
  one_le : 1 ≤ m
  limit_le : ∀ h, crew.limit h ≤ m

/-- All schedulers allow the same number of attempts, as those that share a policy do. -/
structure Agrees (m : Int) : Prop where
  one_le : 1 ≤ m
  limit_eq : ∀ h, crew.limit h = m

variable {crew}

theorem Agrees.allows {m : Int} (agrees : crew.Agrees m) : crew.Allows m :=
  ⟨agrees.one_le, fun h => Int.le_of_eq (agrees.limit_eq h)⟩

theorem allows_max (crew : Crew) : crew.Allows 2147483647 where
  one_le := by decide
  limit_le h := (crew.policy h).maxAttempts.le_hi

end Crew

inductive Act where
  | createWebhook (r : Registration) (id : Uuid) (now : Instant)
  | updateWebhook (id : Uuid) (a : Amendment) (now : Instant)
  | setActive (id : Uuid) (active : Bool) (now : Instant)
  | deleteWebhook (id : Uuid)
  /-- The second call of a dispatch, which found these webhooks at its first call. -/
  | dispatch (e : Event) (dueAt : Instant) (found : List Webhook) (ids : Nat → Uuid) (now : Instant)
  | retry (id : Uuid) (now : Instant)
  | cleanup (cutoff : Instant)
  | switch (online : Bool)
  | sweep (now : Instant)
  | claimByHand (now : Instant) (limit : Int) (claimer : Uuid) (lease : Span)
  | renewByHand (id claimer : Uuid) (till : Instant)
  | releaseByHand (id claimer : Uuid)
  | scan (holder : Uuid) (now : Instant)
  /-- The steps of the worker of a scheduler on a delivery; nothing happens unless it is at this step. -/
  | start (holder delivery : Uuid) (stopping : Bool) (now : Instant)
  | look (holder delivery : Uuid)
  | answer (holder delivery : Uuid) (outcome : Outcome) (now : Instant)
  | report (holder delivery : Uuid)
  /-- A scan breaks down or is given up between two of its calls. -/
  | abandon (holder : Uuid)

structure Fleet where
  store : Store
  scans : Uuid → Option Scan

/-- The workers of a scan that have not come to their end, those who still wait for their turn included. -/
def Scan.unfinished (scan : Scan) : List Worker := scan.active ++ scan.waiting.map (⟨·, .waiting⟩)

namespace Fleet

def initial : Fleet := ⟨.empty, fun _ => none⟩

def workers (f : Fleet) (h : Uuid) : List Worker := ((f.scans h).map Scan.unfinished).getD []

def active? (f : Fleet) (h id : Uuid) : Option Worker :=
  (f.scans h).bind fun scan => scan.active.find? (·.delivery.id = id)

def setScan (f : Fleet) (h : Uuid) (scan : Option Scan) : Fleet := { f with scans := Function.update f.scans h scan }

def wrote {ε α : Type} (f : Fleet) (x : Except ε (α × Store)) : Fleet :=
  match x with
  | .ok (_, store) => { f with store }
  | .error _ => f

def moved (crew : Crew) (f : Fleet) (h : Uuid) (d : Delivery) (stage : Worker.Stage) : Fleet :=
  match f.scans h with
  | some scan =>
    let others := scan.active.eraseP (·.delivery.id = d.id)
    f.setScan h (some (scan.advance (crew.config h).concurrency others d stage))
  | none => f

def step (crew : Crew) (f : Fleet) : Act → Fleet
  | .createWebhook r id now => f.wrote (f.store.createWebhook r id now)
  | .updateWebhook id a now => f.wrote (f.store.updateWebhook id a now)
  | .setActive id active now => f.wrote (f.store.setActive id active now)
  | .deleteWebhook id => f.wrote (f.store.deleteWebhook id)
  | .dispatch e dueAt found ids now => f.wrote (Dispatch.write f.store e dueAt found ids now)
  | .retry id now => f.wrote (f.store.retryDelivery id now)
  | .cleanup cutoff => f.wrote (f.store.cleanupOld cutoff)
  | .switch online => { f with store := f.store.setOnline online }
  | .sweep now => f.wrote (f.store.releaseExpired now)
  | .claimByHand now limit claimer lease => f.wrote (f.store.claimDue now limit claimer lease)
  | .renewByHand id claimer till => f.wrote (f.store.renewClaim id claimer till)
  | .releaseByHand id claimer => f.wrote (f.store.releaseClaim id claimer)
  | .scan h now =>
    if (f.scans h).all Scan.isDone then
      match Scan.claim (crew.scheduler h) now f.store with
      | .ok (batch, store) =>
        { f with store }.setScan h (some ((Scan.ofBatch batch).fill (crew.config h).concurrency))
      | .error _ => f
    else f
  | .start h id stopping now =>
    match f.active? h id with
    | some ⟨d, .waiting⟩ =>
      match Worker.start (crew.scheduler h) d stopping now f.store with
      | .ok (stage, store) => { f with store }.moved crew h d stage
      | .error _ => f.setScan h none
    | _ => f
  | .look h id =>
    match f.active? h id with
    | some ⟨d, .renewed⟩ => f.moved crew h d (Worker.look (crew.scheduler h) d (f.store.getWebhook d.webhookId))
    | _ => f
  | .answer h id outcome now =>
    match f.active? h id with
    | some ⟨d, .sending _⟩ =>
      match Worker.answer (crew.scheduler h) d outcome now with
      | .ok stage => f.moved crew h d stage
      | .error _ => f.setScan h none
    | _ => f
  | .report h id =>
    match f.active? h id with
    | some ⟨d, .reporting c⟩ =>
      let r := Worker.report (crew.scheduler h) d c f.store
      { f with store := r.2 }.moved crew h d r.1
    | _ => f
  | .abandon h => f.setScan h none

def after (crew : Crew) (acts : List Act) : Fleet := acts.foldl (step crew) initial

def run (crew : Crew) (f : Fleet) (acts : List Act) : Fleet := acts.foldl (step crew) f

/-! ### A run to look at -/

namespace Sample

def hook : Uuid := .ofNat 1
def parcel : Uuid := .ofNat 2
def north : Uuid := .ofNat 3
def south : Uuid := .ofNat 4

def second (n : Nat) : Instant := (Instant.ofParts? n 0).getD .first

def crew : Crew := ⟨fun _ => .standard⟩

theorem agrees : crew.Agrees 5 := ⟨by decide, fun _ => rfl⟩

def registration : Registration := ⟨"site", "https://example.com/hook", "s3cret", [some "*"], .object [], true⟩

def unavailable : Outcome := .ofResponse 503 none (by decide)

theorem thanks_in_range : 200 < 65536 := by decide

def thanked : Outcome := .ofResponse 200 none thanks_in_range

def claimed : List Act :=
  [.createWebhook registration hook (second 0),
    .dispatch ⟨"page.published", second 0, .null⟩ (second 0) [registration.toWebhook hook (second 0)] (fun _ => parcel)
      (second 0),
    .scan north (second 1)]

/-- The claim is renewed at the first second, so that its lease ends at the ninety-first. -/
def sent : List Act := claimed ++ [.start north parcel false (second 1), .look north parcel]

def answered : List Act := sent ++ [.answer north parcel unavailable (second 2)]

end Sample

end Fleet

end Courier
