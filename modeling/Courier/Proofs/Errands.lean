import Courier.Proofs.Calls
import Courier.Proofs.Reports
set_option autoImplicit false

/-!
# Errands

A worker hands each of its calls over and waits for the answer. None of its calls gives the scheduler a claim, and after
the last one the scheduler does not hold the delivery, unless the store was offline.
-/

namespace Courier

inductive Errand where
  | start (d : Delivery) (stopping : Bool) (now : Instant)
  | look (d : Delivery)
  | report (d : Delivery) (change : Change)

namespace Errand

def delivery : Errand → Delivery
  | start d _ _ => d
  | look d => d
  | report d _ => d

def run (sch : Scheduler) (s : Store) : Errand → Option (Worker.Stage × Store)
  | start d stopping now => (Worker.start sch d stopping now s).toOption
  | look d => some (Worker.look sch d (s.getWebhook d.webhookId), s)
  | report d change => some (Worker.report sch d change s)

end Errand

/-- The call that a worker makes next, if it is to make one. The end of the claim is reckoned before the call. -/
def Worker.errand (sch : Scheduler) (k : Worker) (stopping : Bool) (now : Instant) :
    Except OutOfRange (Option Errand) :=
  match k.stage with
  | .waiting =>
    if stopping = false ∧ (claimEnd? sch.config now).isNone then .error ⟨⟩
    else .ok (some (.start k.delivery stopping now))
  | .renewed => .ok (some (.look k.delivery))
  | .reporting change => .ok (some (.report k.delivery change))
  | .sending _ | .done _ => .ok none

def Worker.Stage.LetsGo (stage : Worker.Stage) : Prop :=
  ∀ change, stage = .reporting change → change.claimedBy = some none

namespace Errand

variable {sch : Scheduler} {s t : Store} {stage : Worker.Stage} {e : Errand}

def LetsGo : Errand → Prop
  | report _ change => change.claimedBy = some none
  | _ => True

theorem start_failed {d : Delivery} {stopping : Bool} {now : Instant}
    (call : Worker.start sch d stopping now s = .ok (.done .failed, t)) : s.online = false := by
  refine Bool.eq_false_iff.mpr fun online => ?_
  obtain ⟨b, u, released⟩ := s.releaseClaim_total online d.id sch.id
  unfold Worker.start at call
  rw [released] at call
  split at call
  · cases call
  · split at call
    · cases call
    · rename_i till _
      obtain ⟨b, u, renewed⟩ := s.renewClaim_total online d.id sch.id till
      rw [renewed] at call
      cases b <;> cases call

theorem report_failed {d : Delivery} {change : Change} (failed : (Worker.report sch d change s).1 = .done .failed) :
    s.online = false := by
  refine Bool.eq_false_iff.mpr fun online => ?_
  obtain ⟨o, u, completed⟩ := s.completeAttempt_total online d.id sch.id change
  rw [Worker.report, completed] at failed
  cases o with
  | none => cases failed
  | some e => exact (Worker.resultOf_ne e).2 (Worker.Stage.done.inj failed)

theorem look_letsGo (d : Delivery) (found : Except Store.Error (Option Webhook)) :
    (Worker.look sch d found).LetsGo := by
  intro change reporting
  obtain ⟨w, -, judged⟩ := Worker.look_reporting reporting
  obtain ⟨-, rfl⟩ | ⟨w, -, -, rfl⟩ | ⟨-, rfl⟩ := Worker.judge_reporting judged
  all_goals rfl

theorem look_done {d : Delivery} {r : Worker.Result}
    (done : Worker.look sch d (s.getWebhook d.webhookId) = .done r) : s.online = false := by
  refine Bool.eq_false_iff.mpr fun online => ?_
  rw [Store.getWebhook, Store.whenOnline_eq _ online] at done
  unfold Worker.look Worker.judge at done
  dsimp only at done
  split at done
  · cases done
  · split at done
    · cases done
    · split at done <;> cases done

/-- No call of a worker gives its scheduler a claim, and the last one leaves it without, unless the store is offline. -/
theorem run_ok (letsGo : e.LetsGo) (ran : e.run sch s = some (stage, t)) : s.Sheds sch.id t ∧ stage.LetsGo ∧
    ∀ r, stage = .done r → s.online = false ∨ r ≠ .failed ∧ ((s.deliveries.map (·.id)).Nodup →
      (∀ d ∈ s.deliveries, d.claimedBy = some sch.id → d.status = .pending) → ¬ t.Holds sch.id e.delivery.id) := by
  cases e with
  | start d stopping now =>
    have call := toOption_eq_some.mp ran
    cases Worker.start_ok call with
    | handedBack released =>
      refine ⟨Store.releaseClaim_sheds released, fun _ h => (by cases h), fun r hr => .inr ⟨by cases hr; simp, ?_⟩⟩
      exact fun distinct _ => Store.releaseClaim_unheld distinct released
    | renewed _ renewed => exact ⟨Store.renewClaim_sheds renewed, fun _ h => (by cases h), fun r hr => (by cases hr)⟩
    | lost renewed =>
      refine ⟨Store.renewClaim_sheds renewed, fun _ h => (by cases h), fun r hr => .inr ⟨by cases hr; simp, ?_⟩⟩
      exact fun _ _ => Store.renewClaim_unheld renewed
    | failed => exact ⟨.refl s, fun _ h => (by cases h), fun _ _ => .inl (start_failed call)⟩
  | look d =>
    cases ran
    exact ⟨.refl s, look_letsGo _ _, fun r done => .inl (look_done done)⟩
  | report d change =>
    have reported : Worker.report sch d change s = (stage, t) := Option.some.inj ran
    have reports := Worker.report_over sch d change s
    rw [reported] at reports
    obtain ⟨ended, wrote⟩ := reports
    have sheds : s.Sheds sch.id t := by
      rcases wrote with same | ⟨o, call⟩
      · exact .of_eq (congrArg Store.deliveries same)
      · exact Store.completeAttempt_sheds letsGo call
    refine ⟨sheds, fun _ h => ?_, fun r hr => ?_⟩
    · rw [h] at ended
      cases ended
    · cases reach : s.online with
      | false => exact .inl rfl
      | true =>
        obtain ⟨o, u, call⟩ := s.completeAttempt_total reach d.id sch.id change
        have written : t = u := by
          rw [Worker.report, call] at reported
          cases o <;> exact (Prod.mk.inj reported).2.symm
        refine .inr ⟨fun failed => ?_, fun distinct pending => ?_⟩
        · have offline : s.online = false := report_failed (by rw [reported, hr, failed])
          cases reach.symm.trans offline
        · rw [written]
          exact Store.completeAttempt_unheld distinct pending letsGo call

theorem letsGo_of_worker {w : Worker} {stopping : Bool} {now : Instant}
    (letsGo : w.stage.LetsGo) (errand : w.errand sch stopping now = .ok (some e)) :
    e.delivery = w.delivery ∧ e.LetsGo := by
  obtain ⟨d, stage⟩ := w
  cases stage with
  | waiting =>
    unfold Worker.errand at errand
    dsimp only at errand
    split at errand
    · cases errand
    · cases errand
      exact ⟨rfl, trivial⟩
  | renewed =>
    cases errand
    exact ⟨rfl, trivial⟩
  | reporting change =>
    cases errand
    exact ⟨rfl, letsGo change rfl⟩
  | sending | done => cases errand

end Errand

end Courier
