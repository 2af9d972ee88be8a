import Courier.Proofs.Identity
import Courier.Proofs.Links
import Courier.Proofs.Records
set_option autoImplicit false

namespace Courier

namespace RetryPolicy

def dueAfter (p : RetryPolicy) (attempts : Word32) (now : Instant) : Option Instant :=
  (Span.ofDuration? (p.nextDelay attempts)).bind now.add?

/-- An attempt that finishes now leads to no date that does not exist. -/
def Fits (p : RetryPolicy) (now : Instant) : Prop :=
  ∀ n : Word32, 1 ≤ n.val → n.val < p.maxAttempts.val → (p.dueAfter n now).isSome

end RetryPolicy

namespace Change

def concluded (p : RetryPolicy) (n : Word32) (o : Outcome) (now : Instant) : Change :=
  match o.verdict with
  | .success => recorded n o now .delivered none (some (some now))
  | .permanent => recorded n o now .dead none none
  | .retryable =>
    if n.val < p.maxAttempts.val then recorded n o now .pending (p.dueAfter n now) none
    else recorded n o now .dead none none

theorem concluded_drops_claim (p : RetryPolicy) (n : Word32) (o : Outcome) (now : Instant) :
    (concluded p n o now).claimedBy = some none ∧ (concluded p n o now).claimedUntil = some none := by
  unfold concluded
  split
  · exact ⟨rfl, rfl⟩
  · exact ⟨rfl, rfl⟩
  · split
    · exact ⟨rfl, rfl⟩
    · exact ⟨rfl, rfl⟩

theorem afterAttempt_fits {before : Word32} {p : RetryPolicy} {now : Instant} (nonneg : 0 ≤ before.val)
    (below : before.val < p.maxAttempts.val) (fits : p.Fits now) (o : Outcome) :
    ∃ n : Word32, n.val = before.val + 1 ∧ afterAttempt before o p now = .ok (concluded p n o now) := by
  have high := p.maxAttempts.le_hi
  have low := before.lo_le
  let n : Word32 := ⟨before.val + 1, by omega, by omega⟩
  have number : n.val = before.val + 1 := rfl
  have counted : before.add? 1 = some n := Bounded.ofInt?_val n
  refine ⟨n, number, ?_⟩
  unfold afterAttempt concluded RetryPolicy.allowsRetryAfter
  rw [counted]
  dsimp only
  cases o.verdict with
  | success => rfl
  | permanent => rfl
  | retryable =>
    by_cases more : n.val < p.maxAttempts.val
    · obtain ⟨due, hdue⟩ := Option.isSome_iff_exists.mp (fits n (by omega) more)
      obtain ⟨delay, hdelay, hsum⟩ := Option.bind_eq_some_iff.mp hdue
      simp only [decide_eq_true more, if_pos more, hdelay, Option.getD_some, hsum, hdue]
      rfl
    · simp only [decide_eq_false more, if_neg more]
      rfl

end Change

theorem Delivery.apply_over_claim (d : Delivery) (h : Uuid) (till : Instant) {c : Change}
    (drops : c.claimedBy = some none ∧ c.claimedUntil = some none) : (d.apply (.claim h till)).apply c = d.apply c := by
  unfold Delivery.apply
  rw [drops.1, drops.2]
  rfl

/-! ### Calls that succeed -/

namespace Store

variable {s : Store}

theorem renewClaim_held (online : s.online = true) {id c : Uuid} {d : Delivery} (hd : d ∈ s.deliveries)
    (held : isHeld id c d = true) (till : Instant) : ∃ t, s.renewClaim id c till = .ok (true, t) := by
  unfold renewClaim
  rw [whenOnline_eq _ online]
  cases hc : changeFirst (isHeld id c) (·.apply (.claim c till)) s.deliveries with
  | none => cases (changeFirst_none hc d hd).symm.trans held
  | some r => exact ⟨_, rfl⟩

/-- A claim with room for all that is due takes all that is due. -/
theorem claimDue_roomy (online : s.online = true) {now till : Instant} {lease : Span} {limit : Int}
    (ends : now.add? lease = some till) (roomy : (s.due now).length ≤ limit.toNat) (c : Uuid) :
    ∃ batch, s.claimDue now limit c lease = .ok (batch, { s with
        deliveries := s.deliveries.map fun d => if d.isClaimable now then d.apply (.claim c till) else d }) ∧
      ∀ x, x ∈ batch ↔ ∃ d ∈ s.deliveries, d.isClaimable now = true ∧ x = d.apply (.claim c till) := by
  have member : ∀ x, x ∈ s.due now ↔ x ∈ s.deliveries.zipIdx ∧ x.1.isClaimable now = true := by
    intro x
    unfold due
    rw [List.mem_mergeSort, List.mem_filter]
  have places : ∀ x ∈ s.deliveries.zipIdx, x.2 ∈ (s.due now).map (·.2) ↔ x.1.isClaimable now = true := by
    intro x hx
    constructor
    · intro hp
      obtain ⟨y, hy, hxy⟩ := List.mem_map.mp hp
      obtain ⟨hmem, claimable⟩ := (member y).mp hy
      have same := List.mem_zipIdx_iff_getElem?.mp hmem
      rw [hxy, List.mem_zipIdx_iff_getElem?.mp hx] at same
      exact Option.some.inj same ▸ claimable
    · exact fun claimable => List.mem_map.mpr ⟨x, (member x).mpr ⟨hx, claimable⟩, rfl⟩
  have rows : (s.deliveries.zipIdx.map fun x =>
      if x.2 ∈ (s.due now).map (·.2) then x.1.apply (.claim c till) else x.1) =
      s.deliveries.map fun d => if d.isClaimable now then d.apply (.claim c till) else d := by
    conv_rhs => rw [← List.zipIdx_map_fst 0 s.deliveries]
    rw [List.map_map]
    refine List.map_congr_left fun x hx => ?_
    exact if_congr (places x hx) rfl rfl
  refine ⟨(s.due now).map fun x => x.1.apply (.claim c till), ?_, fun x => ?_⟩
  · unfold claimDue
    rw [whenOnline_eq _ online, ends]
    dsimp only
    rw [List.take_of_length_le roomy, rows]
  · rw [List.mem_map]
    constructor
    · rintro ⟨y, hy, rfl⟩
      obtain ⟨hmem, claimable⟩ := (member y).mp hy
      exact ⟨y.1, List.mem_of_getElem? (List.mem_zipIdx_iff_getElem?.mp hmem), claimable, rfl⟩
    · rintro ⟨d, hd, claimable, rfl⟩
      obtain ⟨i, hi⟩ := List.mem_iff_getElem?.mp hd
      exact ⟨(d, i), (member (d, i)).mpr ⟨List.mem_zipIdx_iff_getElem?.mpr hi, claimable⟩, rfl⟩

def Serves (s : Store) (id : Uuid) : Prop := ∃ w, s.getWebhook id = .ok (some w) ∧ w.active = true

theorem Serves.frames {t : Store} {id : Uuid} (serves : s.Serves id) (frames : s.Frames t) : t.Serves id := by
  unfold Serves getWebhook whenOnline at *
  rw [frames.webhooks, frames.online]
  exact serves

end Store

namespace Worker

variable {sch : Scheduler} {d : Delivery}

theorem start_total (sch : Scheduler) (d : Delivery) (stopping : Bool) {now : Instant}
    (lease : (claimEnd? sch.config now).isSome) (s : Store) : ∃ stage t, start sch d stopping now s = .ok (stage, t) := by
  obtain ⟨till, ends⟩ := Option.isSome_iff_exists.mp lease
  unfold start
  rw [ends]
  dsimp only
  split
  · split
    · exact ⟨_, _, rfl⟩
    · exact ⟨_, _, rfl⟩
  · split
    · exact ⟨_, _, rfl⟩
    · exact ⟨_, _, rfl⟩
    · exact ⟨_, _, rfl⟩

theorem look_serving {s : Store} (serves : s.Serves d.webhookId)
    (below : d.attempts.val < sch.config.policy.maxAttempts.val) :
    ∃ w, look sch d (s.getWebhook d.webhookId) = .sending w := by
  obtain ⟨w, found, active⟩ := serves
  refine ⟨w, ?_⟩
  rw [found]
  unfold look judge
  dsimp only
  rw [if_neg (by rw [active]; decide), if_neg (by omega)]

end Worker

/-! ### Steps of workers -/

inductive Move where
  | start (delivery : Uuid) (now : Instant)
  | look (delivery : Uuid)
  | answer (delivery : Uuid) (outcome : Outcome) (now : Instant)
  | report (delivery : Uuid)

namespace Move

def delivery : Move → Uuid
  | start id _ => id
  | look id => id
  | answer id _ _ => id
  | report id => id

def act (h : Uuid) : Move → Act
  | start id now => .start h id false now
  | look id => .look h id
  | answer id o now => .answer h id o now
  | report id => .report h id

def Fits (crew : Crew) (h : Uuid) : Move → Prop
  | start _ now => (Worker.claimEnd? (crew.config h) now).isSome
  | answer _ _ now => (crew.policy h).Fits now
  | look _ => True
  | report _ => True

def Meets : Move → Worker.Stage → Prop
  | start _ _, .waiting => True
  | look _, .renewed => True
  | answer _ _ _, .sending _ => True
  | report _, .reporting _ => True
  | _, _ => False

end Move

namespace Fleet

variable {crew : Crew} {m : Int} {f : Fleet} {h : Uuid} {v : Move}

inductive Takes (crew : Crew) (f : Fleet) (h : Uuid) : Move → Worker → Worker.Stage → Store → Prop
  | started {d : Delivery} {now : Instant} {stage : Worker.Stage} {t : Store}
    (call : Worker.start (crew.scheduler h) d false now f.store = .ok (stage, t)) :
    Takes crew f h (.start d.id now) ⟨d, .waiting⟩ stage t
  | looked {d : Delivery} :
    Takes crew f h (.look d.id) ⟨d, .renewed⟩
      (Worker.look (crew.scheduler h) d (f.store.getWebhook d.webhookId)) f.store
  | answered {d : Delivery} {w : Webhook} {o : Outcome} {now : Instant} {stage : Worker.Stage}
    (call : Worker.answer (crew.scheduler h) d o now = .ok stage) :
    Takes crew f h (.answer d.id o now) ⟨d, .sending w⟩ stage f.store
  | reported {d : Delivery} {c : Change} :
    Takes crew f h (.report d.id) ⟨d, .reporting c⟩ (Worker.report (crew.scheduler h) d c f.store).1
      (Worker.report (crew.scheduler h) d c f.store).2

/-- Where all dates exist the scan does not break down. -/
theorem step_taken (keeps : Keeps crew m f) (fits : v.Fits crew h) {k : Worker}
    (turn : f.active? h v.delivery = some k) (meets : v.Meets k.stage) : ∃ stage t, Takes crew f h v k stage t ∧
      f.step crew (v.act h) = ({ f with store := t } : Fleet).moved crew h k.delivery stage := by
  obtain ⟨d, stage⟩ := k
  have hid := id_of_active turn
  cases v with
  | start id now =>
    cases stage with
    | waiting =>
      obtain rfl : d.id = id := hid
      obtain ⟨stage, t, call⟩ := Worker.start_total (crew.scheduler h) d false fits f.store
      refine ⟨stage, t, .started call, ?_⟩
      change f.step crew (.start h d.id false now) = _
      rw [step, show f.active? h d.id = _ from turn]
      dsimp only
      rw [call]
    | renewed | sending | reporting | done => exact meets.elim
  | look id =>
    cases stage with
    | renewed =>
      obtain rfl : d.id = id := hid
      refine ⟨_, f.store, .looked, ?_⟩
      change f.step crew (.look h d.id) = _
      rw [step, show f.active? h d.id = _ from turn]
    | waiting | sending | reporting | done => exact meets.elim
  | answer id o now =>
    cases stage with
    | sending w =>
      obtain rfl : d.id = id := hid
      obtain ⟨sound, pending⟩ := keeps.copies h _ (mem_of_active turn)
      have below := keeps.sends h _ (mem_of_active turn) w rfl
      obtain ⟨n, -, concluded⟩ := Change.afterAttempt_fits (sound.pending pending).1 below fits o
      have call : Worker.answer (crew.scheduler h) d o now =
          .ok (.reporting (.concluded (crew.policy h) n o now)) := by
        rw [Worker.answer]
        change Except.map _ (Change.afterAttempt _ _ (crew.policy h) _) = _
        rw [concluded]
        rfl
      refine ⟨_, f.store, .answered call, ?_⟩
      change f.step crew (.answer h d.id o now) = _
      rw [step, show f.active? h d.id = _ from turn]
      dsimp only
      rw [call]
    | waiting | renewed | reporting | done => exact meets.elim
  | report id =>
    cases stage with
    | reporting c =>
      obtain rfl : d.id = id := hid
      refine ⟨_, _, .reported, ?_⟩
      change f.step crew (.report h d.id) = _
      rw [step, show f.active? h d.id = _ from turn]
    | waiting | renewed | sending | done => exact meets.elim

theorem step_untaken (unmet : ∀ k, f.active? h v.delivery = some k → ¬ v.Meets k.stage) :
    f.step crew (v.act h) = f := by
  cases v
  all_goals
    rw [Move.act, step]
    split
    · next turn => exact (unmet _ turn trivial).elim
    · rfl

/-- A step is one of the worker whose turn it is, or nothing happens. -/
theorem step_move (keeps : Keeps crew m f) (fits : v.Fits crew h) :
    f.step crew (v.act h) = f ∨ ∃ k stage t, f.active? h v.delivery = some k ∧ Takes crew f h v k stage t ∧
      f.step crew (v.act h) = ({ f with store := t } : Fleet).moved crew h k.delivery stage := by
  by_cases met : ∃ k, f.active? h v.delivery = some k ∧ v.Meets k.stage
  · obtain ⟨k, turn, meets⟩ := met
    obtain ⟨stage, t, takes, hnext⟩ := step_taken keeps fits turn meets
    exact .inr ⟨k, stage, t, turn, takes, hnext⟩
  · exact .inl (step_untaken fun k turn meets => met ⟨k, turn, meets⟩)

/-! ### What a step leaves alone -/

/-- Between two actions of a scheduler that is alone with an online store. -/
structure Steady (crew : Crew) (h : Uuid) (f : Fleet) : Prop where
  distinct : Distinct f
  keeps : Keeps crew (crew.limit h) f
  online : f.store.online = true

theorem Distinct.step (distinct : Distinct f) {a : Act} (unissued : a.issued = []) : Distinct (f.step crew a) where
  rows := rows_step distinct.rows (unissued ▸ List.nodup_nil) fun d _ hd => by
    rw [unissued] at hd
    cases hd
  workers _ := workers_step distinct

theorem move_frames (crew : Crew) (f : Fleet) (h : Uuid) (v : Move) : f.store.Frames (f.step crew (v.act h)).store := by
  refine frames_step crew f _ ?_ fun online same => ?_
  · cases v <;> rfl
  · cases v <;> cases same

theorem Steady.move (steady : Steady crew h f) (v : Move) : Steady crew h (f.step crew (v.act h)) where
  distinct := steady.distinct.step (by cases v <;> rfl)
  keeps := steady.keeps.step _
  online := (move_frames crew f h v).online.trans steady.online

theorem Touched.about {d e : Delivery} (touched : Touched crew f (v.act h) d e) : e = d ∨ d.id = v.delivery := by
  generalize hact : v.act h = a at touched
  cases touched with
  | same => exact .inl rfl
  | renewed =>
    cases v <;> cases hact
    exact .inr rfl
  | recorded =>
    cases v <;> cases hact
    exact .inr rfl
  | claimedByHand | claimed | renewedByHand | releasedByHand | handedBack | expired | retried =>
    cases v <;> cases hact

/-- A step leaves the deliveries that it is not about as they are. -/
theorem row_kept {d : Delivery} (hd : d ∈ f.store.deliveries) (other : d.id ≠ v.delivery) :
    d ∈ (f.step crew (v.act h)).store.deliveries := by
  obtain ⟨e, he, touched⟩ | removed := (step_rows crew f (v.act h)).fate hd
  · obtain rfl | same := touched.about
    · exact he
    · exact absurd same other
  · obtain gone | ⟨cutoff, gone, -⟩ := removed
    · cases v <;> cases gone
    · cases v <;> cases gone

theorem worker_kept (steady : Steady crew h f) (fits : v.Fits crew h) {k : Worker} (hk : k ∈ f.workers h)
    (other : k.delivery.id ≠ v.delivery) : k ∈ (f.step crew (v.act h)).workers h := by
  obtain same | ⟨j, stage, t, turn, -, hnext⟩ := step_move steady.keeps fits
  · rw [same]
    exact hk
  · obtain ⟨rest, before, after⟩ := workers_moved crew (f := { f with store := t }) turn stage
    have hrest : k ∈ rest := by
      rcases List.mem_cons.mp (before.mem_iff.mp hk) with rfl | hrest
      · exact absurd (id_of_active turn) other
      · exact hrest
    rw [hnext]
    exact after.mem_iff.mpr (List.mem_append_right _ hrest)

theorem worker_before (steady : Steady crew h f) (fits : v.Fits crew h) {j : Worker}
    (hj : j ∈ (f.step crew (v.act h)).workers h) (other : j.delivery.id ≠ v.delivery) : j ∈ f.workers h := by
  obtain same | ⟨k, stage, t, turn, -, hnext⟩ := step_move steady.keeps fits
  · rw [same] at hj
    exact hj
  · obtain ⟨rest, before, after⟩ := workers_moved crew (f := { f with store := t }) turn stage
    rw [hnext] at hj
    rcases List.mem_append.mp (after.mem_iff.mp hj) with own | hrest
    · split at own
      · cases own
      · rw [List.mem_singleton.mp own] at other
        exact absurd (id_of_active turn) other
    · exact before.mem_iff.mpr (List.mem_cons_of_mem _ hrest)

/-- The worker of a step is at the stage that it got to, or gone if that was its end. -/
theorem worker_moved (steady : Steady crew h f) {id : Uuid} {k : Worker} (turn : f.active? h id = some k)
    (stage : Worker.Stage) (t : Store) :
    let g := ({ f with store := t } : Fleet).moved crew h k.delivery stage
    (stage.isOver = false → ⟨k.delivery, stage⟩ ∈ g.workers h) ∧
      (stage.isOver = true → ∀ j ∈ g.workers h, j.delivery.id ≠ k.delivery.id) := by
  intro g
  obtain ⟨rest, before, after⟩ := workers_moved crew (f := { f with store := t }) turn stage
  have ids := (before.map (·.delivery.id)).nodup_iff.mp (steady.distinct.workers h)
  rw [List.map_cons, List.nodup_cons] at ids
  refine ⟨fun going => ?_, fun ended j hj same => ?_⟩
  · rw [going] at after
    exact after.mem_iff.mpr List.mem_cons_self
  · rw [ended] at after
    exact ids.1 (List.mem_map.mpr ⟨j, after.mem_iff.mp hj, same⟩)

end Fleet

end Courier
