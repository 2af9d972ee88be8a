import Courier.Proofs.Desk
import Courier.Wakeup
set_option autoImplicit false

/-!
# Dispatches and the loop they wake

A dispatch writes its deliveries and then wakes the loop of the scheduler, while the loop rests until it is woken or the
next tick comes and then claims what is due. Whatever comes between, the loop does not rest on while deliveries of a
dispatch that has returned wait for their first scan: it has begun to claim since they were written, or is about to, or
the next rest ends at once.
-/

namespace Courier

namespace Beacon

/-- How far a dispatch is. Once it has written, it keeps how many scans had begun to claim before. -/
inductive Stage where
  | called (e : Event)
  | found (e : Event) (webhooks : List Webhook)
  | written (created : List Delivery) (scansBefore : Nat)
  | returned (created : List Delivery) (scansBefore : Nat)
  | failed (error : Dispatch.Error)

inductive Move where
  | call (e : Event)
  | find (i : Nat)
  | create (i : Nat) (dueAt : Instant) (ids : Nat → Uuid) (now : Instant)
  | notify (i : Nat)
  /-- The rest of the loop ends by a tick, or the loop looks whether it is woken. -/
  | tick
  | look
  /-- The loop drops claims that ended, then asks for the time of the scan. -/
  | sweep (now : Instant) (next : Instant)
  | claim
  | work (h : Desk.Happening)
  | other (call : Store.Call)

end Beacon

/-- A scheduler that is never stopped, the wakeup that it rests on, and the dispatches that use it. -/
structure Beacon where
  desk : Desk
  wakeup : Wakeup
  scans : Nat
  calls : List Beacon.Stage

namespace Beacon

def start (s : Store) : Beacon := ⟨.started s, {}, 0, []⟩

def set (x : Beacon) (i : Nat) (stage : Stage) : Beacon := { x with calls := x.calls.set i stage }

def withStore (x : Beacon) (s : Store) : Beacon := { x with desk := { x.desk with store := s } }

def wake (x : Beacon) (w : Wakeup) : Beacon := { x with desk := { x.desk with loop := .sweeping }, wakeup := w }

def isWork : Desk.Happening → Bool
  | .unpack | .hand _ _ | .run _ | .take _ | .answer _ _ _ | .finish | .breakDown => true
  | _ => false

def step (sch : Scheduler) (x : Beacon) : Move → Beacon
  | .call e => { x with calls := x.calls ++ [.called e] }
  | .find i =>
    match x.calls[i]? with
    | some (.called e) =>
      match Dispatch.targets x.desk.store e with
      | .error err => x.set i (.failed err)
      | .ok [] => x.set i (.returned [] x.scans)
      | .ok found => x.set i (.found e found)
    | _ => x
  | .create i dueAt ids now =>
    match x.calls[i]? with
    | some (.found e found) =>
      match Dispatch.write x.desk.store e dueAt found ids now with
      | .error err => x.set i (.failed err)
      | .ok (created, s) => (x.withStore s).set i (.written created x.scans)
    | _ => x
  | .notify i =>
    match x.calls[i]? with
    | some (.written created n) => { x.set i (.returned created n) with wakeup := x.wakeup.notify }
    | _ => x
  | .tick =>
    match x.desk.loop with
    | .resting => x.wake x.wakeup.cancel
    | _ => x
  | .look =>
    match x.desk.loop with
    | .resting => if x.wakeup.poll.1 then x.wake x.wakeup.poll.2 else { x with wakeup := x.wakeup.poll.2 }
    | _ => x
  | .sweep now next =>
    match x.desk.loop with
    | .sweeping =>
      let swept := x.withStore (x.desk.store.wrote (x.desk.store.releaseExpired now))
      { swept with desk := swept.desk.step sch (.begin next) }
    | _ => x
  | .claim =>
    match x.desk.loop with
    | .claiming _ => { x with desk := x.desk.step sch .runClaim, scans := x.scans + 1 }
    | _ => x
  | .work h => if isWork h then { x with desk := x.desk.step sch h } else x
  | .other call => x.withStore (x.desk.store.after call)

def run (sch : Scheduler) (x : Beacon) (moves : List Move) : Beacon := moves.foldl (step sch) x

def Rests (x : Beacon) : Prop := x.desk.loop = .resting

/-- The rest is over, and the scan has not yet begun to claim. -/
def Awake (x : Beacon) : Prop := x.desk.loop = .sweeping ∨ ∃ now, x.desk.loop = .claiming now

/-- The next rest ends at once, or the present one does. -/
def Rings (x : Beacon) : Prop := x.wakeup.poll.1 = true

/-! ### The wakeup -/

theorem poll_notify (w : Wakeup) : w.notify.poll.1 = true := by
  unfold Wakeup.notify
  split
  · rfl
  · unfold Wakeup.poll
    split
    · rfl
    · rw [if_pos rfl]

/-! ### What moves keep -/

variable {sch : Scheduler} {x y : Beacon} {m : Move}

/-- What was written was written after no more scans than there were, and for deliveries that were returned the loop has
begun to claim since, or is about to, or is called. -/
def Fits (x : Beacon) : Stage → Prop
  | .written _ n => n ≤ x.scans
  | .returned created n => n ≤ x.scans ∧ (created ≠ [] → n < x.scans ∨ x.Awake ∨ x.Rings)
  | _ => True

theorem Fits.keep {stage : Stage} (fits : x.Fits stage) (scans : y.scans = x.scans)
    (call : x.Awake ∨ x.Rings → y.Awake ∨ y.Rings) : y.Fits stage := by
  cases stage with
  | written created n =>
    unfold Fits at fits ⊢
    rw [scans]
    exact fits
  | returned created n =>
    unfold Fits at fits ⊢
    rw [scans]
    exact ⟨fits.1, fun some => (fits.2 some).imp_right call⟩
  | _ => trivial

theorem Fits.heard {stage : Stage} (fits : x.Fits stage) (scans : y.scans = x.scans) (call : y.Awake ∨ y.Rings) :
    y.Fits stage := fits.keep scans fun _ => call

def Heard (x : Beacon) : Prop := ∀ stage ∈ x.calls, x.Fits stage

namespace Heard

theorem set (heard : Heard x) {i : Nat} {stage : Stage} (fits : x.Fits stage) : Heard (x.set i stage) := by
  intro other mem
  rcases List.mem_or_eq_of_mem_set mem with old | rfl
  · exact (heard other old).keep rfl id
  · exact fits.keep rfl id

theorem withStore (heard : Heard x) (s : Store) : Heard (x.withStore s) :=
  fun stage mem => (heard stage mem).keep rfl id

theorem wake (heard : Heard x) (w : Wakeup) : Heard (x.wake w) :=
  fun stage mem => (heard stage mem).heard rfl (.inl (.inl rfl))

end Heard

theorem work_awake {h : Desk.Happening} (work : isWork h = true) (awake : x.Awake) : x.desk.step sch h = x.desk := by
  rcases awake with loop | ⟨now, loop⟩
  all_goals
    cases h with
    | unpack | hand | run | take | answer | finish | breakDown => rw [Desk.step, loop]
    | _ => cases work

theorem begin_loop (sch : Scheduler) {next : Instant} (sweeping : x.desk.loop = .sweeping) (s : Store) :
    ((x.withStore s).desk.step sch (.begin next)).loop = .claiming next := by
  rw [Desk.step, show (x.withStore s).desk.loop = .sweeping from sweeping]

theorem Heard.step (heard : Heard x) (m : Move) : Heard (x.step sch m) := by
  cases m with
  | call e =>
    intro stage mem
    rcases List.mem_append.mp mem with old | new
    · exact (heard stage old).keep rfl id
    · rw [List.mem_singleton.mp new]
      trivial
  | find i =>
    rw [Beacon.step]
    split
    · split
      · exact heard.set trivial
      · exact heard.set ⟨Nat.le_refl _, fun some => absurd rfl some⟩
      · exact heard.set trivial
    · exact heard
  | create i dueAt ids now =>
    rw [Beacon.step]
    split
    · split
      · exact heard.set trivial
      · exact (heard.withStore _).set (Nat.le_refl x.scans)
    · exact heard
  | notify i =>
    rw [Beacon.step]
    split
    · next created n written =>
      have before : n ≤ x.scans := heard _ (List.mem_of_getElem? written)
      -- the one call serves all dispatches that have returned
      intro stage mem
      rcases List.mem_or_eq_of_mem_set mem with old | rfl
      · exact (heard stage old).heard rfl (.inr (poll_notify x.wakeup))
      · exact ⟨before, fun _ => .inr (.inr (poll_notify x.wakeup))⟩
    · exact heard
  | tick =>
    rw [Beacon.step]
    split
    · exact heard.wake _
    · exact heard
  | look =>
    rw [Beacon.step]
    split
    · next rests =>
      split
      · exact heard.wake _
      · next silent =>
        -- a loop that finds no call rests on, which it may as nothing waits for it
        refine fun stage mem => (heard stage mem).keep rfl ?_
        rintro ((sweeping | ⟨now, claiming⟩) | rings)
        · cases rests.symm.trans sweeping
        · cases rests.symm.trans claiming
        · exact absurd rings silent
    · exact heard
  | sweep now next =>
    rw [Beacon.step]
    split
    · next sweeping =>
      exact fun stage mem => (heard stage mem).heard rfl (.inl (.inr ⟨next, begin_loop sch sweeping _⟩))
    · exact heard
  | claim =>
    rw [Beacon.step]
    split
    · -- all that was written before is now behind a claim
      intro stage mem
      have fits := heard stage mem
      cases stage with
      | written created n => exact Nat.le_succ_of_le fits
      | returned created n => exact ⟨Nat.le_succ_of_le fits.1, fun _ => .inl (Nat.lt_succ_of_le fits.1)⟩
      | _ => trivial
    · exact heard
  | work h =>
    rw [Beacon.step]
    split
    · next work =>
      refine fun stage mem => (heard stage mem).keep rfl ?_
      rintro (awake | rings)
      · refine .inl ?_
        unfold Awake
        dsimp only
        rw [work_awake work awake]
        exact awake
      · exact .inr rings
    · exact heard
  | other call => exact heard.withStore _

theorem scans_step (sch : Scheduler) (x : Beacon) (m : Move) :
    (x.step sch m).scans = x.scans ∨ (x.step sch m).scans = x.scans + 1 := by
  cases m with
  | call | other => exact .inl rfl
  | find | create =>
    rw [step]
    split
    · split <;> exact .inl rfl
    · exact .inl rfl
  | look =>
    rw [step]
    split
    · split <;> exact .inl rfl
    · exact .inl rfl
  | notify | tick | sweep =>
    rw [step]
    split <;> exact .inl rfl
  | claim =>
    rw [step]
    split
    · exact .inr rfl
    · exact .inl rfl
  | work h =>
    rw [step]
    split <;> exact .inl rfl

theorem awake_step (awake : x.Awake) (m : Move) : (x.step sch m).Awake ∨ (x.step sch m).scans = x.scans + 1 := by
  cases m with
  | call | other => exact .inl awake
  | find | create =>
    rw [step]
    split
    · split <;> exact .inl awake
    · exact .inl awake
  | notify =>
    rw [step]
    split <;> exact .inl awake
  | tick =>
    rw [step]
    split
    · exact .inl (.inl rfl)
    · exact .inl awake
  | look =>
    rw [step]
    split
    · split
      · exact .inl (.inl rfl)
      · exact .inl awake
    · exact .inl awake
  | sweep now next =>
    rw [step]
    split
    · next sweeping => exact .inl (.inr ⟨next, begin_loop sch sweeping _⟩)
    · exact .inl awake
  | claim =>
    rw [step]
    split
    · exact .inr rfl
    · exact .inl awake
  | work h =>
    rw [step]
    split
    · next work =>
      refine .inl ?_
      unfold Awake
      dsimp only
      rw [work_awake work awake]
      exact awake
    · exact .inl awake

theorem run_concat (sch : Scheduler) (x : Beacon) (moves : List Move) (m : Move) :
    run sch x (moves ++ [m]) = (run sch x moves).step sch m :=
  List.foldl_concat _ _ _ _

theorem heard_run (heard : Heard x) (moves : List Move) : Heard (run sch x moves) := by
  induction moves using List.reverseRecOn with
  | nil => exact heard
  | append_singleton moves m ih =>
    rw [run_concat]
    exact ih.step m

theorem awake_run (awake : x.Awake) (moves : List Move) :
    x.scans ≤ (run sch x moves).scans ∧ ((run sch x moves).Awake ∨ x.scans < (run sch x moves).scans) := by
  induction moves using List.reverseRecOn with
  | nil => exact ⟨Nat.le_refl _, .inl awake⟩
  | append_singleton moves m ih =>
    obtain ⟨le, still⟩ := ih
    have grows := scans_step sch (run sch x moves) m
    rw [run_concat]
    refine ⟨by omega, ?_⟩
    rcases still with awake | more
    · exact (awake_step awake m).imp_right fun begun => by omega
    · exact .inr (by omega)

theorem Rests.not_awake (rests : x.Rests) : ¬ x.Awake := by
  unfold Rests at rests
  rintro (sweeping | ⟨now, claiming⟩)
  · cases rests.symm.trans sweeping
  · cases rests.symm.trans claiming

theorem look_rings (rests : x.Rests) (rings : x.Rings) : (x.step sch .look).Awake := by
  unfold Rests at rests
  rw [step, rests]
  dsimp only
  unfold Rings at rings
  rw [if_pos rings]
  exact .inl rfl

/-- At every moment of every run, for every dispatch that has returned deliveries: the loop has begun to claim since
they were written, or it is about to and does so before it rests again, or it is called and ends its next rest at once.
So a loop that rests on has begun to claim since all such deliveries were written. -/
theorem no_wakeup_lost (sch : Scheduler) (s : Store) (moves : List Move) :
    let x := run sch (start s) moves
    (∀ created n, .returned created n ∈ x.calls → created ≠ [] → n < x.scans ∨ x.Awake ∨ x.Rings) ∧
      (x.Awake → ∀ later, (run sch x later).Rests → x.scans < (run sch x later).scans) ∧
      (x.Rests → x.Rings → (x.step sch .look).Awake) ∧
      (x.Rests → ¬ x.Rings → ∀ created n, .returned created n ∈ x.calls → created ≠ [] → n < x.scans) := by
  intro x
  have heard : Heard x := heard_run (fun _ none => by cases none) moves
  have offered : ∀ created n, .returned created n ∈ x.calls → created ≠ [] → n < x.scans ∨ x.Awake ∨ x.Rings :=
    fun created n returned => (heard _ returned).2
  refine ⟨offered, fun awake later rests => ?_, look_rings, fun rests silent created n returned some => ?_⟩
  · exact (awake_run awake later).2.resolve_left rests.not_awake
  · obtain scanned | awake | rings := offered created n returned some
    · exact scanned
    · exact absurd awake rests.not_awake
    · exact absurd rings silent

section Nudged

open Fleet.Sample Desk.Sample

/-- The loop scans while the store is offline and rests again; then an event is dispatched. -/
def nudged : List Move :=
  [.look, .tick, .other (.switch false), .sweep (second 1) (second 1), .claim, .work .unpack, .other (.switch true),
    .look, .call ⟨"page.published", second 2, .null⟩, .find 0, .create 0 (second 2) (fun _ => parcel) (second 2),
    .notify 0]

def subscribed : Store := Store.empty.after (.createWebhook registration hook (second 0))

theorem no_wakeup_lost_nudged :
    (∃ d, .returned [d] 1 ∈ (run scheduler (start subscribed) nudged).calls) ∧
      (run scheduler (start subscribed) nudged).scans = 1 ∧ (run scheduler (start subscribed) nudged).Rests ∧
      (run scheduler (start subscribed) nudged).Rings ∧
      ((run scheduler (start subscribed) nudged).step scheduler .look).Awake := by
  obtain ⟨offered, -, ends, -⟩ := no_wakeup_lost scheduler subscribed nudged
  have rests : (run scheduler (start subscribed) nudged).Rests := rfl
  have scans : (run scheduler (start subscribed) nudged).scans = 1 := rfl
  obtain ⟨d, returned⟩ : ∃ d, .returned [d] 1 ∈ (run scheduler (start subscribed) nudged).calls :=
    ⟨_, List.mem_cons_self⟩
  obtain scanned | awake | rings := offered [d] 1 returned (List.cons_ne_nil d [])
  · exact absurd scanned (by rw [scans]; decide)
  · exact absurd awake rests.not_awake
  · exact ⟨⟨d, returned⟩, scans, rests, rings, ends rests rings⟩

end Nudged

end Beacon

end Courier
