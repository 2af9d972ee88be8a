import Courier.Proofs.FleetSteps
set_option autoImplicit false

namespace Courier

def Worker.Stage.result? : Worker.Stage → Option Worker.Result
  | .done result => some result
  | _ => none

theorem Worker.resultOf_ne (d : Delivery) : Worker.resultOf d ≠ .released ∧ Worker.resultOf d ≠ .failed := by
  unfold Worker.resultOf
  split <;> simp

def Report.sum (r : Report) : Nat := r.delivered + r.retrying + r.dead + r.released + r.errors

def Report.of (claimed : Nat) (results : List Worker.Result) : Report where
  claimed
  delivered := results.count .delivered
  retrying := results.count .retrying
  dead := results.count .dead
  released := results.count .released
  errors := results.count .failed

theorem Report.of_concat (claimed : Nat) (results : List Worker.Result) (r : Worker.Result) :
    Report.of claimed (results ++ [r]) = (Report.of claimed results).add r := by
  cases r <;> simp [Report.of, Report.add, List.count_append]

theorem Report.of_sum (claimed : Nat) (results : List Worker.Result) :
    (Report.of claimed results).sum = results.length := by
  induction results with
  | nil => rfl
  | cons r results ih =>
    simp only [Report.sum, Report.of] at ih ⊢
    cases r
    all_goals
      simp
      omega

theorem Report.of_perm {claimed : Nat} {results others : List Worker.Result} (perm : results.Perm others) :
    Report.of claimed results = Report.of claimed others := by
  simp only [Report.of, perm.count_eq]

namespace Scan

variable (scan : Scan) (n : Nat) (d : Delivery) (stage : Worker.Stage)

theorem report_eq : scan.report = .of scan.claimed scan.results := by
  unfold report
  induction scan.results using List.reverseRecOn with
  | nil => rfl
  | append_singleton results r ih => rw [List.foldl_append, ih, Report.of_concat, List.foldl_cons, List.foldl_nil]

theorem results_moved : (scan.moved n d stage).results = scan.results ++ stage.result?.toList := by
  cases stage with
  | done => rfl
  | waiting | renewed | sending | reporting => exact (List.append_nil _).symm

theorem claimed_moved : (scan.moved n d stage).claimed = scan.claimed := by
  cases stage <;> rfl

end Scan

end Courier
