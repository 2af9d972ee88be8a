import Courier.Proofs.Progress
set_option autoImplicit false

namespace Courier

namespace Store

/-- With distinct keys a write to the first record with a property is one to all records of its key. -/
theorem changeFirst_eq_map {α β : Type} [DecidableEq β] {key : α → β} {p : α → Bool} {f : α → α} {xs : List α}
    (distinct : (xs.map key).Nodup) {x : α} (hx : x ∈ xs) (hp : p x = true)
    (only : ∀ y ∈ xs, p y = true → key y = key x) :
    changeFirst p f xs = some (f x, xs.map fun y => if key y = key x then f y else y) := by
  induction xs with
  | nil => cases hx
  | cons y ys ih =>
    rw [List.map_cons, List.nodup_cons] at distinct
    rcases List.mem_cons.mp hx with rfl | hx
    · have rest : ys.map (fun z => if key z = key x then f z else z) = ys := by
        refine (List.map_congr_left fun z hz => ?_).trans (List.map_id ys)
        have apart : key z ≠ key x := fun same => distinct.1 (same ▸ List.mem_map_of_mem hz)
        simp [apart]
      simp [changeFirst, hp, rest]
    · have apart : key y ≠ key x := fun same => distinct.1 (same ▸ List.mem_map_of_mem hx)
      have unmet : ¬ p y = true := fun hy => apart (only y List.mem_cons_self hy)
      have tail := ih distinct.2 hx fun z hz => only z (List.mem_cons_of_mem _ hz)
      simp [changeFirst, unmet, tail, apart]

def put (s : Store) (id : Uuid) (d : Delivery) : Store :=
  { s with deliveries := s.deliveries.map fun x => if x.id = id then d else x }

section Held

variable {s : Store} (distinct : (s.deliveries.map (·.id)).Nodup) {d : Delivery} (hd : d ∈ s.deliveries)
include distinct hd

theorem changeFirst_eq_put {p : Delivery → Bool} (hp : p d = true) (only : ∀ y, p y = true → y.id = d.id)
    (f : Delivery → Delivery) : changeFirst p f s.deliveries = some (f d, (s.put d.id (f d)).deliveries) := by
  rw [changeFirst_eq_map distinct hd hp fun y _ => only y]
  have rows : (s.deliveries.map fun y => if y.id = d.id then f y else y) = (s.put d.id (f d)).deliveries := by
    refine List.map_congr_left fun y hy => ?_
    by_cases same : y.id = d.id
    · have itself : y = d := List.inj_on_of_nodup_map distinct hy hd same
      simp [itself]
    · simp [same]
  rw [rows]

theorem put_self : s.put d.id d = s := by
  have rows : (s.deliveries.map fun x => if x.id = d.id then d else x) = s.deliveries := by
    refine (List.map_congr_left fun x hx => ?_).trans (List.map_id _)
    by_cases same : x.id = d.id
    · have itself : x = d := List.inj_on_of_nodup_map distinct hx hd same
      simp [itself]
    · simp [same]
  unfold put
  rw [rows]

variable (online : s.online = true) {c : Uuid} (held : d.claimedBy = some c)
include online held

theorem renewClaim_eq (till : Instant) :
    s.renewClaim d.id c till = .ok (true, s.put d.id (d.apply (.claim c till))) := by
  have hp : isHeld d.id c d = true := isHeld_iff.mpr ⟨rfl, held⟩
  rw [renewClaim, whenOnline_eq _ online, changeFirst_eq_put distinct hd hp fun y hy => (isHeld_iff.mp hy).1]
  rfl

theorem releaseClaim_eq : s.releaseClaim d.id c = .ok (true, s.put d.id (d.apply .release)) := by
  have hp : isHeld d.id c d = true := isHeld_iff.mpr ⟨rfl, held⟩
  rw [releaseClaim, whenOnline_eq _ online, changeFirst_eq_put distinct hd hp fun y hy => (isHeld_iff.mp hy).1]
  rfl

theorem completeAttempt_eq (pending : d.status = .pending) (change : Change) :
    s.completeAttempt d.id c change = .ok (some (d.apply change), s.put d.id (d.apply change)) := by
  have hp : (isHeld d.id c d && d.status = .pending) = true := by simp [isHeld, held, pending]
  have only : ∀ y, (isHeld d.id c y && y.status = .pending) = true → y.id = d.id := by
    intro y hy
    exact (isHeld_iff.mp (Bool.and_eq_true _ _ |>.mp hy).1).1
  rw [completeAttempt, whenOnline_eq _ online, changeFirst_eq_put distinct hd hp only]
  rfl

end Held

end Store

/-! ### One worker -/

/-- A scheduler at a time that stands still, and a receiver that always answers the same. -/
structure Scene where
  scheduler : Scheduler
  now : Instant
  receiver : Delivery → Webhook → Outcome

namespace Scene

variable (c : Scene) (ws : List Webhook)

def turn (k : Worker) (stopping : Bool) (s : Store) : Option (Worker.Stage × Store) :=
  match k.stage with
  | .waiting => (Worker.start c.scheduler k.delivery stopping c.now s).toOption
  | .renewed => some (Worker.look c.scheduler k.delivery (s.getWebhook k.delivery.webhookId), s)
  | .sending w =>
    (Worker.answer c.scheduler k.delivery (c.receiver k.delivery w) c.now).toOption.map fun stage => (stage, s)
  | .reporting change => some (Worker.report c.scheduler k.delivery change s)
  | .done _ => none

def judge (d : Delivery) : Worker.Stage := Worker.judge c.scheduler d (ws.find? (·.id = d.webhookId))

def verdict (d : Delivery) : Option Change :=
  match c.judge ws d with
  | .sending w => (Change.afterAttempt d.attempts (c.receiver d w) c.scheduler.config.policy c.now).toOption
  | .reporting change => some change
  | _ => none

def concluded (d : Delivery) : Delivery := ((c.verdict ws d).map d.apply).getD d

def close (d : Delivery) : Worker.Result → Delivery
  | .failed => d
  | .released => d.apply .release
  | .delivered | .retrying | .dead => c.concluded ws d

inductive Ends (d : Delivery) (stopping online : Bool) : Worker.Result → Prop
  | handedBack (h : stopping = true) : Ends d stopping online .released
  | failed (h : online = false) : Ends d stopping online .failed
  | concluded {change : Change} (h : c.verdict ws d = some change) :
    Ends d stopping online (Worker.resultOf (d.apply change))

def OnCourse (k : Worker) : Prop :=
  match k.stage with
  | .waiting | .renewed => True
  | .sending w => c.judge ws k.delivery = .sending w
  | .reporting change => c.verdict ws k.delivery = some change
  | .done _ => False

structure Has (s : Store) (d : Delivery) : Prop where
  row : d ∈ s.deliveries
  holder : d.claimedBy = some c.scheduler.id
  till : d.claimedUntil = Worker.claimEnd? c.scheduler.config c.now
  pending : d.status = .pending

inductive Leads (s : Store) (d : Delivery) (stopping : Bool) : Worker.Stage → Store → Prop
  | goesOn {stage : Worker.Stage} (course : c.OnCourse s.webhooks ⟨d, stage⟩) : Leads s d stopping stage s
  | ends {r : Worker.Result} (h : c.Ends s.webhooks d stopping s.online r) :
    Leads s d stopping (.done r) (s.put d.id (c.close s.webhooks d r))

variable {c ws} {s t : Store} {d : Delivery} {stage next : Worker.Stage} {stopping : Bool}

theorem concluded_eq {change : Change} (h : c.verdict ws d = some change) : c.concluded ws d = d.apply change := by
  simp [concluded, h]

theorem close_resultOf (r : Delivery) : c.close ws d (Worker.resultOf r) = c.concluded ws d := by
  unfold Worker.resultOf
  split <;> rfl

theorem concluded_id (d : Delivery) : (c.concluded ws d).id = d.id := by
  unfold concluded
  cases c.verdict ws d <;> rfl

theorem close_id (d : Delivery) (r : Worker.Result) : (c.close ws d r).id = d.id := by
  cases r with
  | failed | released => rfl
  | delivered | retrying | dead => exact concluded_id d

theorem judge_cases (c : Scene) (ws : List Webhook) (d : Delivery) :
    (∃ w, c.judge ws d = .sending w ∧ d.attempts.val < c.scheduler.config.policy.maxAttempts.val) ∨
      ∃ reason, c.judge ws d = .reporting (.deadWithoutAttempt reason) := by
  unfold judge Worker.judge
  split
  · exact .inr ⟨_, rfl⟩
  · split
    · exact .inr ⟨_, rfl⟩
    · split
      · exact .inr ⟨_, rfl⟩
      · rename_i below
        exact .inl ⟨_, rfl, by omega⟩

theorem verdict_writes {change : Change} (h : c.verdict ws d = some change) :
    change.WritesBack c.scheduler.config.policy d.attempts := by
  unfold verdict at h
  rcases judge_cases c ws d with ⟨w, hjudge, -⟩ | ⟨reason, hjudge⟩
  · rw [hjudge] at h
    exact .attempt (toOption_eq_some.mp h)
  · rw [hjudge] at h
    cases h
    exact .noAttempt reason

theorem ends_failed (distinct : (s.deliveries.map (·.id)).Nodup) (has : c.Has s d) (offline : s.online = false) :
    c.Leads s d stopping (.done .failed) s := by
  have same : s.put d.id (c.close s.webhooks d .failed) = s := Store.put_self distinct has.row
  have leads : c.Leads s d stopping (.done .failed) (s.put d.id (c.close s.webhooks d .failed)) :=
    .ends (.failed offline)
  rwa [same] at leads

theorem start_offline (offline : s.online = false) (h : Worker.start c.scheduler d stopping c.now s = .ok (next, t)) :
    next = .done .failed ∧ t = s := by
  simp only [Worker.start, Store.releaseClaim, Store.renewClaim, Store.whenOnline_offline offline] at h
  split at h
  · cases h
    exact ⟨rfl, rfl⟩
  · split at h
    · cases h
    · cases h
      exact ⟨rfl, rfl⟩

theorem look_offline (offline : s.online = false) :
    Worker.look c.scheduler d (s.getWebhook d.webhookId) = .done .failed := by
  rw [Store.getWebhook, Store.whenOnline_offline offline]
  rfl

theorem look_online (online : s.online = true) :
    Worker.look c.scheduler d (s.getWebhook d.webhookId) = c.judge s.webhooks d := by
  rw [Store.getWebhook, Store.whenOnline_eq _ online]
  rfl

theorem report_offline (offline : s.online = false) (change : Change) :
    Worker.report c.scheduler d change s = (.done .failed, s) := by
  rw [Worker.report, Store.completeAttempt, Store.whenOnline_offline offline]

section Turn

variable (distinct : (s.deliveries.map (·.id)).Nodup) (has : c.Has s d)
include distinct has

theorem start_stopping (online : s.online = true) :
    Worker.start c.scheduler d true c.now s = .ok (.done .released, s.put d.id (d.apply .release)) := by
  rw [Worker.start, if_pos rfl, Store.releaseClaim_eq distinct has.row online has.holder]

/-- The claim ends at the time that is stored already. -/
theorem start_renews (online : s.online = true) (h : Worker.start c.scheduler d false c.now s = .ok (next, t)) :
    next = .renewed ∧ t = s := by
  rw [Worker.start, if_neg Bool.false_ne_true] at h
  split at h
  · cases h
  · rename_i till lease
    have renewed : d.apply (.claim c.scheduler.id till) = d := by
      rw [Delivery.apply_renewed has.holder, ← lease, ← has.till]
    rw [Store.renewClaim_eq distinct has.row online has.holder, renewed, Store.put_self distinct has.row] at h
    cases h
    exact ⟨rfl, rfl⟩

theorem report_online (online : s.online = true) (change : Change) :
    Worker.report c.scheduler d change s =
      (.done (Worker.resultOf (d.apply change)), s.put d.id (d.apply change)) := by
  rw [Worker.report, Store.completeAttempt_eq distinct has.row online has.holder has.pending]

theorem start_leads (h : Worker.start c.scheduler d stopping c.now s = .ok (next, t)) :
    c.Leads s d stopping next t := by
  cases reach : s.online with
  | false =>
    obtain ⟨rfl, rfl⟩ := start_offline reach h
    exact ends_failed distinct has reach
  | true =>
    cases stopping with
    | true =>
      rw [start_stopping distinct has reach] at h
      cases h
      exact .ends (.handedBack rfl)
    | false =>
      obtain ⟨rfl, rfl⟩ := start_renews distinct has reach h
      exact .goesOn trivial

theorem look_leads : c.Leads s d stopping (Worker.look c.scheduler d (s.getWebhook d.webhookId)) s := by
  cases reach : s.online with
  | false =>
    rw [look_offline reach]
    exact ends_failed distinct has reach
  | true =>
    rw [look_online reach]
    refine .goesOn ?_
    rcases judge_cases c s.webhooks d with ⟨w, hjudge, -⟩ | ⟨reason, hjudge⟩
    · rw [hjudge]
      exact hjudge
    · have hverdict : c.verdict s.webhooks d = some (.deadWithoutAttempt reason) := by rw [verdict, hjudge]
      rw [hjudge]
      exact hverdict

theorem report_leads {change : Change} (course : c.verdict s.webhooks d = some change) :
    c.Leads s d stopping (Worker.report c.scheduler d change s).1 (Worker.report c.scheduler d change s).2 := by
  cases reach : s.online with
  | false =>
    rw [report_offline reach]
    exact ends_failed distinct has reach
  | true =>
    have closed : c.close s.webhooks d (Worker.resultOf (d.apply change)) = d.apply change :=
      (close_resultOf _).trans (concluded_eq course)
    have ends : c.Leads s d stopping (.done (Worker.resultOf (d.apply change))) (s.put d.id (c.close s.webhooks d _)) :=
      .ends (.concluded course)
    rw [report_online distinct has reach]
    rwa [closed] at ends

theorem turn_leads (course : c.OnCourse s.webhooks ⟨d, stage⟩) (h : c.turn ⟨d, stage⟩ stopping s = some (next, t)) :
    c.Leads s d stopping next t := by
  cases stage with
  | waiting => exact start_leads distinct has (toOption_eq_some.mp h)
  | renewed =>
    cases h
    exact look_leads distinct has
  | sending w =>
    obtain ⟨next, hanswer, hpair⟩ := Option.map_eq_some_iff.mp h
    cases hpair
    obtain ⟨change, hchange, rfl⟩ := Worker.answer_ok (toOption_eq_some.mp hanswer)
    have hverdict : c.verdict s.webhooks d = some change := by
      rw [verdict, show c.judge s.webhooks d = .sending w from course]
      exact toOption_eq_some.mpr hchange
    exact .goesOn hverdict
  | reporting change =>
    have hreport : Worker.report c.scheduler d change s = (next, t) := Option.some.inj h
    have leads : c.Leads s d stopping _ _ := report_leads distinct has course
    rwa [hreport] at leads
  | done => cases h

end Turn

theorem turn_left {k : Worker} (h : c.turn k stopping s = some (next, t)) : next.left < k.stage.left := by
  obtain ⟨d, stage⟩ := k
  cases stage with
  | waiting =>
    have started := Worker.start_ok (toOption_eq_some.mp h)
    cases started with
    | renewed => exact Nat.lt_succ_self 3
    | handedBack | lost | failed => exact Nat.zero_lt_succ 3
  | renewed =>
    cases h
    exact Nat.lt_succ_of_le (Worker.look_left _ _ _)
  | sending w =>
    obtain ⟨next, hanswer, hpair⟩ := Option.map_eq_some_iff.mp h
    cases hpair
    obtain ⟨change, -, rfl⟩ := Worker.answer_ok (toOption_eq_some.mp hanswer)
    exact Nat.lt_succ_self 1
  | reporting change =>
    have hreport : Worker.report c.scheduler d change s = (next, t) := Option.some.inj h
    have left := Worker.Stage.left_ended (Worker.report_over c.scheduler d change s).1
    rw [hreport] at left
    rw [left]
    exact Nat.zero_lt_succ 0
  | done => cases h

end Scene

end Courier
