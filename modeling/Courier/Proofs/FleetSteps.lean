import Courier.Proofs.Fleet
import Courier.Proofs.StoreSteps
set_option autoImplicit false

/-!
# What one action does to a fleet

`step_rows` says which deliveries an action touches and in which way, `step_workers` how the workers of each scheduler
move. All invariants of runs are derived from these two and never look into the actions themselves.
-/

namespace Courier

/-! ### The calls of a worker -/

theorem toOption_eq_some {ε α : Type} {x : Except ε α} {a : α} : x.toOption = some a ↔ x = .ok a := by
  cases x <;> simp [Except.toOption]

namespace Worker

def Stage.isOver : Stage → Bool
  | .done _ => true
  | _ => false

inductive Starts (sch : Scheduler) (d : Delivery) (now : Instant) (s : Store) : Bool → Stage → Store → Prop
  | handedBack {b : Bool} {t : Store} (call : s.releaseClaim d.id sch.id = .ok (b, t)) :
    Starts sch d now s true (.done .released) t
  | renewed {till : Instant} {t : Store} (lease : claimEnd? sch.config now = some till)
    (call : s.renewClaim d.id sch.id till = .ok (true, t)) : Starts sch d now s false .renewed t
  | lost {till : Instant} {t : Store} (call : s.renewClaim d.id sch.id till = .ok (false, t)) :
    Starts sch d now s false (.done .released) t
  | failed (stopping : Bool) : Starts sch d now s stopping (.done .failed) s

theorem start_ok {sch : Scheduler} {d : Delivery} {stopping : Bool} {now : Instant} {s t : Store} {stage : Stage}
    (h : start sch d stopping now s = .ok (stage, t)) : Starts sch d now s stopping stage t := by
  unfold start at h
  split at h
  · rename_i hstop
    rw [hstop]
    split at h
    · rename_i b u hcall
      cases h
      exact .handedBack hcall
    · cases h
      exact .failed true
  · rename_i hstop
    rw [Bool.not_eq_true _ |>.mp hstop]
    split at h
    · cases h
    · rename_i till hlease
      split at h
      · rename_i u hcall
        cases h
        exact .renewed hlease hcall
      · rename_i u hcall
        cases h
        exact .lost hcall
      · cases h
        exact .failed false

theorem start_renewed {sch : Scheduler} {d : Delivery} {now till : Instant} {s t : Store}
    (lease : claimEnd? sch.config now = some till) (call : s.renewClaim d.id sch.id till = .ok (true, t)) :
    start sch d false now s = .ok (.renewed, t) := by
  unfold start
  rw [if_neg Bool.false_ne_true, lease]
  dsimp only
  rw [call]

theorem report_over (sch : Scheduler) (d : Delivery) (c : Change) (s : Store) :
    (report sch d c s).1.isOver = true ∧
      ((report sch d c s).2 = s ∨ ∃ o, s.completeAttempt d.id sch.id c = .ok (o, (report sch d c s).2)) := by
  unfold report
  split
  · rename_i e t hcall
    exact ⟨rfl, .inr ⟨_, hcall⟩⟩
  · rename_i t hcall
    exact ⟨rfl, .inr ⟨_, hcall⟩⟩
  · exact ⟨rfl, .inl rfl⟩

end Worker

/-! ### Workers of a scan -/

namespace Scan

theorem unfinished_fill (scan : Scan) (n : Nat) : (scan.fill n).unfinished = scan.unfinished := by
  unfold fill unfinished
  dsimp only
  rw [List.append_assoc, ← List.map_append, List.take_append_drop]

theorem unfinished_ofBatch (batch : List Delivery) : (ofBatch batch).unfinished = batch.map (⟨·, .waiting⟩) := rfl

theorem unfinished_advance (scan : Scan) (n : Nat) (others : List Worker) (d : Delivery) (stage : Worker.Stage) :
    (scan.advance n others d stage).unfinished.Perm
      ((if stage.isOver then [] else [⟨d, stage⟩]) ++ (others ++ scan.waiting.map (⟨·, .waiting⟩))) := by
  cases stage with
  | done result =>
    change ((Scan.fill _ n).unfinished).Perm _
    rw [unfinished_fill]
    exact .refl _
  | waiting | renewed | sending | reporting =>
    change ((others ++ [_]) ++ _).Perm ([_] ++ (others ++ _))
    exact (List.perm_append_comm.append_right _).trans (.of_eq (List.append_assoc _ _ _))

theorem isDone_iff (scan : Scan) : scan.isDone = true ↔ scan.unfinished = [] := by
  simp only [isDone, unfinished, Bool.and_eq_true, List.isEmpty_iff, List.append_eq_nil_iff, List.map_eq_nil_iff]
  exact And.comm

def turn? (scan : Scan) (id : Uuid) : Option Worker := scan.active.find? (·.delivery.id = id)

theorem id_of_turn {scan : Scan} {id : Uuid} {k : Worker} (turn : scan.turn? id = some k) : k.delivery.id = id := by
  simpa using List.find?_some turn

theorem mem_of_turn {scan : Scan} {id : Uuid} {k : Worker} (turn : scan.turn? id = some k) : k ∈ scan.unfinished :=
  List.mem_append_left _ (List.mem_of_find?_eq_some turn)

def moved (scan : Scan) (concurrency : Nat) (d : Delivery) (stage : Worker.Stage) : Scan :=
  scan.advance concurrency (scan.active.eraseP (·.delivery.id = d.id)) d stage

theorem unfinished_moved {scan : Scan} {id : Uuid} {k : Worker} (turn : scan.turn? id = some k) (n : Nat)
    (stage : Worker.Stage) : ∃ rest, scan.unfinished.Perm (k :: rest) ∧
      (scan.moved n k.delivery stage).unfinished.Perm ((if stage.isOver then [] else [⟨k.delivery, stage⟩]) ++ rest) := by
  obtain ⟨hp, before, after, hactive, hbefore⟩ := List.find?_eq_some_iff_append.mp turn
  have herase : scan.active.eraseP (·.delivery.id = k.delivery.id) = before ++ after := by
    rw [hactive, id_of_turn turn, List.eraseP_append_right _ (fun u hu => by simpa using hbefore u hu),
      List.eraseP_cons_of_pos (l := after) hp]
  refine ⟨(before ++ after) ++ scan.waiting.map (⟨·, .waiting⟩), ?_, ?_⟩
  · unfold unfinished
    rw [hactive]
    exact List.perm_middle.append_right _
  · unfold moved
    rw [herase]
    exact scan.unfinished_advance _ _ _ _

end Scan

namespace Fleet

variable {crew : Crew} {f : Fleet} {h g id : Uuid}

theorem workers_setScan (scan : Option Scan) :
    (f.setScan h scan).workers g = if g = h then (scan.map Scan.unfinished).getD [] else f.workers g := by
  unfold workers setScan
  dsimp only
  rw [Function.update_apply]
  split <;> rfl

theorem idle_iff : (f.scans h).all Scan.isDone = true ↔ f.workers h = [] := by
  unfold workers
  cases f.scans h with
  | none => exact ⟨fun _ => rfl, fun _ => rfl⟩
  | some scan => exact scan.isDone_iff

theorem id_of_active {k : Worker} (turn : f.active? h id = some k) : k.delivery.id = id := by
  obtain ⟨scan, -, hk⟩ := Option.bind_eq_some_iff.mp turn
  exact Scan.id_of_turn hk

theorem mem_of_active {k : Worker} (turn : f.active? h id = some k) : k ∈ f.workers h := by
  obtain ⟨scan, hscan, hk⟩ := Option.bind_eq_some_iff.mp turn
  unfold workers
  rw [hscan]
  exact Scan.mem_of_turn hk

theorem workers_moved (crew : Crew) {k : Worker} (turn : f.active? h id = some k) (stage : Worker.Stage) :
    ∃ rest, (f.workers h).Perm (k :: rest) ∧ ((f.moved crew h k.delivery stage).workers h).Perm
      ((if stage.isOver then [] else [⟨k.delivery, stage⟩]) ++ rest) := by
  obtain ⟨scan, hscan, hk⟩ := Option.bind_eq_some_iff.mp turn
  obtain ⟨rest, before, after⟩ := Scan.unfinished_moved hk (crew.config h).concurrency stage
  refine ⟨rest, ?_, ?_⟩
  · unfold workers
    rw [hscan]
    exact before
  · unfold moved
    rw [hscan]
    dsimp only
    rw [workers_setScan, if_pos rfl]
    exact after

theorem workers_moved_other (d : Delivery) (stage : Worker.Stage) (hg : g ≠ h) :
    (f.moved crew h d stage).workers g = f.workers g := by
  unfold moved
  split
  · rw [workers_setScan, if_neg hg]
  · rfl

@[simp] theorem store_moved (d : Delivery) (stage : Worker.Stage) : (f.moved crew h d stage).store = f.store := by
  unfold moved
  split <;> rfl

@[simp] theorem scans_wrote {ε α : Type} (x : Except ε (α × Store)) : (f.wrote x).scans = f.scans := by
  unfold wrote
  split <;> rfl

theorem wrote_cases {ε α : Type} (x : Except ε (α × Store)) :
    (f.wrote x).store = f.store ∨ ∃ a, x = .ok (a, (f.wrote x).store) := by
  cases x with
  | ok r => exact .inr ⟨r.1, rfl⟩
  | error e => exact .inl rfl

/-! ### Deliveries -/

inductive Touched (crew : Crew) (f : Fleet) : Act → Delivery → Delivery → Prop
  | same (a : Act) (d : Delivery) : Touched crew f a d d
  | claimedByHand {now till : Instant} {limit : Int} {c : Uuid} {lease : Span} {d : Delivery}
    (due : d.isClaimable now = true) :
    Touched crew f (.claimByHand now limit c lease) d (d.apply (.claim c till))
  | claimed {h : Uuid} {now till : Instant} {d : Delivery} {batch : List Delivery} {t : Store}
    (idle : f.workers h = []) (call : Scan.claim (crew.scheduler h) now f.store = .ok (batch, t))
    (due : d.isClaimable now = true) (returned : d.apply (.claim h till) ∈ batch) :
    Touched crew f (.scan h now) d (d.apply (.claim h till))
  | renewedByHand {c : Uuid} {till : Instant} {d : Delivery} (held : d.claimedBy = some c) :
    Touched crew f (.renewByHand d.id c till) d (d.apply (.claim c till))
  | renewed {h : Uuid} {now till : Instant} {d x : Delivery} (turn : f.active? h d.id = some ⟨x, .waiting⟩)
    (lease : Worker.claimEnd? (crew.config h) now = some till) (held : d.claimedBy = some h) :
    Touched crew f (.start h d.id false now) d (d.apply (.claim h till))
  | releasedByHand {c : Uuid} {d : Delivery} (held : d.claimedBy = some c) :
    Touched crew f (.releaseByHand d.id c) d (d.apply .release)
  | handedBack {h : Uuid} {now : Instant} {d x : Delivery} (turn : f.active? h d.id = some ⟨x, .waiting⟩)
    (held : d.claimedBy = some h) : Touched crew f (.start h d.id true now) d (d.apply .release)
  | expired {now : Instant} {d : Delivery} (ended : Store.hasExpired now d = true) :
    Touched crew f (.sweep now) d (d.apply .release)
  | recorded {h : Uuid} {c : Change} {d x : Delivery} (turn : f.active? h d.id = some ⟨x, .reporting c⟩)
    (held : d.claimedBy = some h) (pending : d.status = .pending) :
    Touched crew f (.report h d.id) d (d.apply c)
  | retried {now : Instant} {d : Delivery} (dead : d.status = .dead) :
    Touched crew f (.retry d.id now) d (d.apply (.manualRetry now))

def Removed (a : Act) (d : Delivery) : Prop :=
  a = .deleteWebhook d.webhookId ∨ ∃ cutoff, a = .cleanup cutoff ∧ d.isTerminal = true ∧ d.createdAt < cutoff

def Added (f : Fleet) (a : Act) (d : Delivery) : Prop :=
  ∃ e dueAt found ids now, a = .dispatch e dueAt found ids now ∧ (∃ w ∈ f.store.webhooks, w.id = d.webhookId) ∧
    ∃ x ∈ found.zipIdx, d = (Dispatch.orderFor e dueAt x.1).toDelivery (ids x.2) now

theorem Touched.id_eq {a : Act} {d e : Delivery} (touched : Touched crew f a d e) : e.id = d.id := by
  cases touched <;> rfl

theorem Touched.frame {a : Act} {d e : Delivery} (touched : Touched crew f a d e) :
    e.webhookId = d.webhookId ∧ e.event = d.event ∧ e.payload = d.payload ∧ e.createdAt = d.createdAt := by
  cases touched <;> exact ⟨rfl, rfl, rfl, rfl⟩

abbrev Turns (crew : Crew) (f : Fleet) (a : Act) (ds es : List Delivery) : Prop :=
  Evolves (Touched crew f a) (Removed a) (Added f a) ds es

section Rows

variable {a : Act} {s t : Store} {keep : Delivery → Delivery → Prop}

theorem rows_same {ds es : List Delivery} (hx : es = ds) : Turns crew f a ds es := by
  rw [hx]
  exact .refl (.same a) _

theorem rows_of (hx : s.Rewrites keep t) (hk : ∀ d e, keep d e → Touched crew f a d e) :
    Turns crew f a s.deliveries t.deliveries :=
  hx.mono hk (fun _ => False.elim) (fun _ => False.elim)

theorem rows_wrote {ε α : Type} {x : Except ε (α × Store)}
    (hx : ∀ b t, x = .ok (b, t) → Turns crew f a f.store.deliveries t.deliveries) :
    Turns crew f a f.store.deliveries (f.wrote x).store.deliveries := by
  rcases wrote_cases (f := f) x with hs | ⟨b, hb⟩
  · exact rows_same (congrArg Store.deliveries hs)
  · exact hx b _ hb

end Rows

theorem start_rows {d : Delivery} {stopping : Bool} {now : Instant} {stage : Worker.Stage} {t : Store}
    (turn : f.active? h id = some ⟨d, .waiting⟩)
    (call : Worker.start (crew.scheduler h) d stopping now f.store = .ok (stage, t)) :
    Turns crew f (.start h id stopping now) f.store.deliveries t.deliveries := by
  obtain rfl : d.id = id := id_of_active turn
  cases Worker.start_ok call with
  | handedBack call =>
    refine rows_of (Store.releaseClaim_ok call).2.1 ?_
    rintro x e (rfl | ⟨held, rfl⟩)
    · exact .same _ _
    · obtain ⟨hid, hby⟩ := Store.isHeld_iff.mp held
      rw [← hid] at turn ⊢
      exact .handedBack turn hby
  | renewed lease call =>
    refine rows_of (Store.renewClaim_ok call).2.1 ?_
    rintro x e (rfl | ⟨held, rfl⟩)
    · exact .same _ _
    · obtain ⟨hid, hby⟩ := Store.isHeld_iff.mp held
      rw [← hid] at turn ⊢
      exact .renewed turn lease hby
  | lost call =>
    obtain ⟨-, -, -, hb, -⟩ | ⟨-, -, rfl⟩ := (Store.renewClaim_ok call).2.2
    · cases hb
    · exact rows_same rfl
  | failed => exact rows_same rfl

theorem report_rows {d : Delivery} {c : Change} (turn : f.active? h id = some ⟨d, .reporting c⟩) :
    Turns crew f (.report h id) f.store.deliveries (Worker.report (crew.scheduler h) d c f.store).2.deliveries := by
  obtain rfl : d.id = id := id_of_active turn
  rcases (Worker.report_over (crew.scheduler h) d c f.store).2 with same | ⟨o, call⟩
  · exact rows_same (congrArg Store.deliveries same)
  · refine rows_of (Store.completeAttempt_ok call).2.1 ?_
    rintro x e (rfl | ⟨hp, rfl⟩)
    · exact .same _ _
    · obtain ⟨held, pending⟩ := Bool.and_eq_true_iff.mp hp
      obtain ⟨hid, hby⟩ := Store.isHeld_iff.mp held
      rw [← hid] at turn ⊢
      exact .recorded turn hby (of_decide_eq_true pending)

theorem dispatch_rows {e : Event} {dueAt : Instant} {found : List Webhook} {ids : Nat → Uuid} {now : Instant}
    {created : List Delivery} {t : Store} (call : Dispatch.write f.store e dueAt found ids now = .ok (created, t)) :
    Turns crew f (.dispatch e dueAt found ids now) f.store.deliveries t.deliveries := by
  obtain ⟨-, hdel, hcreated, hwebhooks⟩ := Dispatch.write_ok call
  rw [hdel]
  refine .append (.same _) fun d hd => ⟨e, dueAt, found, ids, now, rfl, hwebhooks d hd, ?_⟩
  rw [hcreated] at hd
  obtain ⟨x, hx, hxd⟩ := List.mem_map.mp hd
  exact ⟨x, hx, hxd.symm⟩

theorem step_rows (crew : Crew) (f : Fleet) (a : Act) :
    Turns crew f a f.store.deliveries (f.step crew a).store.deliveries := by
  cases a with
  | createWebhook => exact rows_wrote fun _ _ hx => rows_same (Store.createWebhook_ok hx).1
  | updateWebhook => exact rows_wrote fun _ _ hx => rows_same (Store.updateWebhook_ok hx).1
  | setActive => exact rows_wrote fun _ _ hx => rows_same (Store.updateWebhook_ok hx).1
  | deleteWebhook id =>
    refine rows_wrote fun _ _ hx => (Store.deleteWebhook_ok hx).2.1.mono ?_ ?_ (fun _ => False.elim)
    · rintro d e rfl
      exact .same _ _
    · rintro d rfl
      exact .inl rfl
  | dispatch => exact rows_wrote fun _ _ hx => dispatch_rows hx
  | retry id now =>
    refine rows_wrote fun _ _ hx => rows_of (Store.retryDelivery_ok hx).2.1 ?_
    rintro d e (rfl | ⟨rfl, dead, rfl⟩)
    · exact .same _ _
    · exact .retried dead
  | cleanup cutoff =>
    refine rows_wrote fun _ _ hx => (Store.cleanupOld_ok hx).2.mono ?_ ?_ (fun _ => False.elim)
    · rintro d e rfl
      exact .same _ _
    · exact fun d hd => .inr ⟨cutoff, rfl, hd⟩
  | switch => exact rows_same rfl
  | sweep now =>
    refine rows_wrote fun _ _ hx => rows_of (Store.releaseExpired_ok hx).2 ?_
    rintro d e rfl
    split
    · rename_i ended
      exact .expired ended
    · exact .same _ _
  | claimByHand now limit c lease =>
    refine rows_wrote fun _ _ hx => ?_
    obtain ⟨-, till, -, rows, -⟩ := Store.claimDue_ok hx
    refine rows_of rows ?_
    rintro d e (rfl | ⟨due, rfl, -⟩)
    · exact .same _ _
    · exact .claimedByHand due
  | renewByHand id c till =>
    refine rows_wrote fun _ _ hx => rows_of (Store.renewClaim_ok hx).2.1 ?_
    rintro d e (rfl | ⟨held, rfl⟩)
    · exact .same _ _
    · obtain ⟨rfl, hby⟩ := Store.isHeld_iff.mp held
      exact .renewedByHand hby
  | releaseByHand id c =>
    refine rows_wrote fun _ _ hx => rows_of (Store.releaseClaim_ok hx).2.1 ?_
    rintro d e (rfl | ⟨held, rfl⟩)
    · exact .same _ _
    · obtain ⟨rfl, hby⟩ := Store.isHeld_iff.mp held
      exact .releasedByHand hby
  | scan h now =>
    rw [step]
    split
    · rename_i idle
      split
      · rename_i batch t call
        obtain ⟨-, till, -, rows, -⟩ := Store.claimDue_ok call
        refine rows_of rows ?_
        rintro d e (rfl | ⟨due, rfl, returned⟩)
        · exact .same _ _
        · exact .claimed (idle_iff.mp idle) call due returned
      · exact rows_same rfl
    · exact rows_same rfl
  | start h id stopping now =>
    rw [step]
    split
    · rename_i d turn
      split
      · rename_i stage t call
        rw [store_moved]
        exact start_rows turn call
      · exact rows_same rfl
    · exact rows_same rfl
  | look h id =>
    rw [step]
    split
    · exact rows_same (by rw [store_moved])
    · exact rows_same rfl
  | answer h id outcome now =>
    rw [step]
    split
    · split
      · exact rows_same (by rw [store_moved])
      · exact rows_same rfl
    · exact rows_same rfl
  | report h id =>
    rw [step]
    split
    · rename_i d c turn
      dsimp only
      rw [store_moved]
      exact report_rows turn
    · exact rows_same rfl
  | abandon => exact rows_same rfl

/-! ### Workers -/

/-- How an action may move a worker on that does not come to its end by it. -/
inductive Advanced (crew : Crew) (f : Fleet) (h : Uuid) : Act → Worker → Worker → Prop
  | renewed {d : Delivery} {now till : Instant} {t : Store} (turn : f.active? h d.id = some ⟨d, .waiting⟩)
    (lease : Worker.claimEnd? (crew.config h) now = some till)
    (call : f.store.renewClaim d.id h till = .ok (true, t)) :
    Advanced crew f h (.start h d.id false now) ⟨d, .waiting⟩ ⟨d, .renewed⟩
  | looked {d : Delivery} (turn : f.active? h d.id = some ⟨d, .renewed⟩) :
    Advanced crew f h (.look h d.id) ⟨d, .renewed⟩
      ⟨d, Worker.look (crew.scheduler h) d (f.store.getWebhook d.webhookId)⟩
  | answered {d : Delivery} {w : Webhook} {o : Outcome} {now : Instant} {stage : Worker.Stage}
    (turn : f.active? h d.id = some ⟨d, .sending w⟩)
    (call : Worker.answer (crew.scheduler h) d o now = .ok stage) :
    Advanced crew f h (.answer h d.id o now) ⟨d, .sending w⟩ ⟨d, stage⟩

theorem Advanced.delivery_eq {a : Act} {k j : Worker} (move : Advanced crew f h a k j) :
    j.delivery = k.delivery := by
  cases move <;> rfl

inductive Shifts (crew : Crew) (f : Fleet) (h : Uuid) (a : Act) : List Worker → Prop
  | same {js : List Worker} (eq : js = f.workers h) : Shifts crew f h a js
  | dropped : Shifts crew f h a []
  | ended {k : Worker} {rest js : List Worker} (before : (f.workers h).Perm (k :: rest)) (after : js.Perm rest) :
    Shifts crew f h a js
  | advanced {k j : Worker} {rest js : List Worker} (before : (f.workers h).Perm (k :: rest))
    (after : js.Perm (j :: rest)) (move : Advanced crew f h a k j) : Shifts crew f h a js
  | claimed {now : Instant} {batch : List Delivery} (act : a = .scan h now) (idle : f.workers h = [])
    (call : Scan.claim (crew.scheduler h) now f.store = .ok (batch, (f.step crew a).store)) :
    Shifts crew f h a (batch.map (⟨·, .waiting⟩))

/-- A worker that got to a stage by an action has advanced or is over. -/
theorem shifts_moved {a : Act} {k : Worker} {stage : Worker.Stage} (turn : f.active? h id = some k)
    (move : stage.isOver = false → Advanced crew f h a k ⟨k.delivery, stage⟩) (s : Store) :
    Shifts crew f g a ((({ f with store := s } : Fleet).moved crew h k.delivery stage).workers g) := by
  by_cases hg : g = h
  · subst hg
    obtain ⟨rest, before, after⟩ := workers_moved crew (f := { f with store := s }) turn stage
    cases hover : stage.isOver with
    | true =>
      rw [hover] at after
      exact .ended before after
    | false =>
      rw [hover] at after
      exact .advanced before after (move hover)
  · exact .same (workers_moved_other _ _ hg)

theorem shifts_setScan_none {a : Act} : Shifts crew f g a ((f.setScan h none).workers g) := by
  rw [workers_setScan]
  split
  · exact .dropped
  · exact .same rfl

theorem shifts_wrote {a : Act} {ε α : Type} (x : Except ε (α × Store)) :
    Shifts crew f g a ((f.wrote x).workers g) := by
  refine .same ?_
  unfold workers
  rw [scans_wrote]

theorem step_scan (idle : f.workers h = []) {now : Instant} {batch : List Delivery} {t : Store}
    (call : Scan.claim (crew.scheduler h) now f.store = .ok (batch, t)) : f.step crew (.scan h now) =
      ({ f with store := t } : Fleet).setScan h (some ((Scan.ofBatch batch).fill (crew.config h).concurrency)) := by
  rw [step, if_pos (idle_iff.mpr idle), call]

theorem workers_batch (batch : List Delivery) (n : Nat) :
    (f.setScan h (some ((Scan.ofBatch batch).fill n))).workers h = batch.map (⟨·, .waiting⟩) := by
  rw [workers_setScan, if_pos rfl]
  exact (Scan.unfinished_fill _ _).trans (Scan.unfinished_ofBatch batch)

theorem shifts_scan {now : Instant} : Shifts crew f g (.scan h now) ((f.step crew (.scan h now)).workers g) := by
  by_cases idle : (f.scans h).all Scan.isDone = true
  · cases call : Scan.claim (crew.scheduler h) now f.store with
    | error e =>
      have hstep : f.step crew (.scan h now) = f := by rw [step, if_pos idle, call]
      rw [hstep]
      exact .same rfl
    | ok r =>
      obtain ⟨batch, t⟩ := r
      have hstep := step_scan (idle_iff.mp idle) call
      by_cases hg : g = h
      · subst hg
        have hworkers : (f.step crew (.scan g now)).workers g = batch.map (⟨·, .waiting⟩) := by
          rw [hstep]
          exact workers_batch batch _
        rw [hworkers]
        refine .claimed rfl (idle_iff.mp idle) ?_
        rw [call, hstep]
        rfl
      · rw [hstep, workers_setScan, if_neg hg]
        exact .same rfl
  · have hstep : f.step crew (.scan h now) = f := by rw [step, if_neg idle]
    rw [hstep]
    exact .same rfl

theorem step_workers (crew : Crew) (f : Fleet) (a : Act) (g : Uuid) :
    Shifts crew f g a ((f.step crew a).workers g) := by
  cases a with
  | createWebhook | updateWebhook | setActive | deleteWebhook | dispatch | retry | cleanup | sweep | claimByHand
  | renewByHand | releaseByHand => exact shifts_wrote _
  | switch => exact .same rfl
  | scan h now => exact shifts_scan
  | start h id stopping now =>
    rw [step]
    split
    · rename_i d turn
      split
      · rename_i stage t call
        obtain rfl : d.id = id := id_of_active turn
        refine shifts_moved turn (fun hover => ?_) t
        cases Worker.start_ok call with
        | renewed lease call => exact .renewed turn lease call
        | handedBack | lost | failed => cases hover
      · exact shifts_setScan_none
    · exact .same rfl
  | look h id =>
    rw [step]
    split
    · rename_i d turn
      obtain rfl : d.id = id := id_of_active turn
      exact shifts_moved turn (fun _ => .looked turn) f.store
    · exact .same rfl
  | answer h id outcome now =>
    rw [step]
    split
    · rename_i d w turn
      split
      · rename_i stage call
        obtain rfl : d.id = id := id_of_active turn
        exact shifts_moved turn (fun _ => .answered turn call) f.store
      · exact shifts_setScan_none
    · exact .same rfl
  | report h id =>
    rw [step]
    split
    · rename_i d c turn
      refine shifts_moved turn (fun hover => ?_) _
      cases (Worker.report_over (crew.scheduler h) d c f.store).1.symm.trans hover
    · exact .same rfl
  | abandon h => exact shifts_setScan_none

theorem worker_origin {a : Act} {j : Worker} (hj : j ∈ (f.step crew a).workers h) :
    j ∈ f.workers h ∨ (∃ k ∈ f.workers h, Advanced crew f h a k j) ∨
      ∃ now batch, a = .scan h now ∧ f.workers h = [] ∧
        Scan.claim (crew.scheduler h) now f.store = .ok (batch, (f.step crew a).store) ∧
        j.delivery ∈ batch ∧ j.stage = .waiting := by
  generalize hjs : (f.step crew a).workers h = js at hj
  have shifts := step_workers crew f a h
  rw [hjs] at shifts
  cases shifts with
  | same eq => exact .inl (eq ▸ hj)
  | dropped => cases hj
  | ended before after => exact .inl (before.mem_iff.mpr (List.mem_cons_of_mem _ (after.mem_iff.mp hj)))
  | @advanced k _ _ _ before after move =>
    rcases List.mem_cons.mp (after.mem_iff.mp hj) with rfl | hj
    · exact .inr (.inl ⟨k, before.mem_iff.mpr List.mem_cons_self, move⟩)
    · exact .inl (before.mem_iff.mpr (List.mem_cons_of_mem _ hj))
  | claimed act idle call =>
    obtain ⟨d, hd, rfl⟩ := List.mem_map.mp hj
    exact .inr (.inr ⟨_, _, act, idle, call, hd, rfl⟩)

/-! ### Runs -/

theorem after_concat (crew : Crew) (acts : List Act) (a : Act) :
    after crew (acts ++ [a]) = (after crew acts).step crew a := by
  unfold after
  rw [List.foldl_append]
  rfl

theorem run_append (crew : Crew) (f : Fleet) (acts more : List Act) :
    f.run crew (acts ++ more) = (f.run crew acts).run crew more := List.foldl_append

theorem run_concat (crew : Crew) (f : Fleet) (acts : List Act) (a : Act) :
    f.run crew (acts ++ [a]) = (f.run crew acts).step crew a := run_append crew f acts [a]

end Fleet

end Courier
