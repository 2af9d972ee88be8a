import Courier.Worker
set_option autoImplicit false

namespace Courier

structure Report where
  claimed : Nat
  delivered : Nat := 0
  retrying : Nat := 0
  dead : Nat := 0
  released : Nat := 0
  errors : Nat := 0
  deriving DecidableEq, Repr

namespace Report

def add (r : Report) : Worker.Result → Report
  | .delivered => { r with delivered := r.delivered + 1 }
  | .retrying => { r with retrying := r.retrying + 1 }
  | .dead => { r with dead := r.dead + 1 }
  | .released => { r with released := r.released + 1 }
  | .failed => { r with errors := r.errors + 1 }

end Report

structure Scan where
  waiting : List Delivery
  active : List Worker
  results : List Worker.Result
  claimed : Nat
  deriving Repr

namespace Scan

def ofBatch (batch : List Delivery) : Scan := ⟨batch, [], [], batch.length⟩

/-- Gives workers to those who wait longest, up to a number of workers. -/
def fill (scan : Scan) (concurrency : Nat) : Scan :=
  let n := concurrency - scan.active.length
  { scan with
    waiting := scan.waiting.drop n
    active := scan.active ++ (scan.waiting.take n).map (⟨·, .waiting⟩) }

/-- The scan after a worker got to a stage: it stands behind the others, or it is done and makes room. -/
def advance (scan : Scan) (concurrency : Nat) (others : List Worker) (d : Delivery) (stage : Worker.Stage) : Scan :=
  match stage with
  | .done result => { scan with active := others, results := scan.results ++ [result] }.fill concurrency
  | stage => { scan with active := others ++ [⟨d, stage⟩] }

def isDone (scan : Scan) : Bool := scan.waiting.isEmpty && scan.active.isEmpty

def report (scan : Scan) : Report := scan.results.foldl Report.add { claimed := scan.claimed }

def claim (sch : Scheduler) (now : Instant) (s : Store) : Except Store.Error (List Delivery × Store) :=
  s.claimDue now sch.config.batchSize.val sch.id sch.config.lease

end Scan

end Courier
