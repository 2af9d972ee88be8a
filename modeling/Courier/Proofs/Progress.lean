import Courier.Proofs.Rounds
import Mathlib.Algebra.BigOperators.Group.List.Basic
import Mathlib.Algebra.GroupWithZero.Nat
import Mathlib.Data.Nat.Init
set_option autoImplicit false

namespace Courier

namespace Worker

def Stage.left : Stage → Nat
  | .waiting => 4
  | .renewed => 3
  | .sending _ => 2
  | .reporting _ => 1
  | .done _ => 0

theorem Stage.left_ended {stage : Stage} (ended : stage.isOver = true) : stage.left = 0 := by
  cases stage with
  | done => rfl
  | waiting | renewed | sending | reporting => cases ended

theorem look_left (sch : Scheduler) (d : Delivery) (found : Except Store.Error (Option Webhook)) :
    (look sch d found).left ≤ 2 := by
  unfold look judge
  split
  · split
    · exact Nat.le_succ 1
    · split
      · exact Nat.le_succ 1
      · split
        · exact Nat.le_succ 1
        · exact Nat.le_refl 2
  · exact Nat.zero_le 2

end Worker

namespace Fleet

variable {crew : Crew} {f : Fleet} {h : Uuid} {v : Move}

theorem Takes.left_lt {k : Worker} {stage : Worker.Stage} {t : Store} (takes : Takes crew f h v k stage t) :
    stage.left < k.stage.left := by
  cases takes with
  | started call =>
    cases Worker.start_ok call with
    | renewed => exact Nat.lt_succ_self 3
    | lost | failed => exact Nat.zero_lt_succ 3
  | looked => exact Nat.lt_succ_of_le (Worker.look_left _ _ _)
  | answered call =>
    obtain ⟨c, -, rfl⟩ := Worker.answer_ok call
    exact Nat.lt_succ_self 1
  | reported =>
    rw [Worker.Stage.left_ended (Worker.report_over _ _ _ _).1]
    exact Nat.zero_lt_succ 0

def left (f : Fleet) (h : Uuid) : Nat := ((f.workers h).map (·.stage.left)).sum

theorem left_moved (crew : Crew) {id : Uuid} {k : Worker} (turn : f.active? h id = some k) {stage : Worker.Stage}
    (less : stage.left < k.stage.left) (t : Store) :
    (({ f with store := t } : Fleet).moved crew h k.delivery stage).left h < f.left h := by
  obtain ⟨rest, before, after⟩ := workers_moved crew (f := { f with store := t }) turn stage
  have old : f.left h = k.stage.left + (rest.map (·.stage.left)).sum := (before.map _).sum_eq
  have new := (after.map (·.stage.left)).sum_eq
  rw [List.map_append, List.sum_append] at new
  have own : ((if stage.isOver then [] else [(⟨k.delivery, stage⟩ : Worker)]).map (·.stage.left)).sum ≤ stage.left := by
    split
    · exact Nat.zero_le _
    · exact Nat.le_refl _
  unfold left at old ⊢
  omega

/-! ### Whose turn it is -/

/-- No worker is kept beyond its end, and none waits unless another is under way. -/
structure Filled (f : Fleet) (h : Uuid) : Prop where
  going : ∀ k ∈ f.workers h, k.stage.isOver = false
  first : ∀ scan, f.scans h = some scan → scan.active = [] → scan.waiting = []

theorem Filled.turn (filled : Filled f h) (busy : f.workers h ≠ []) : ∃ k, f.active? h k.delivery.id = some k := by
  unfold workers at busy
  unfold active?
  cases hscan : f.scans h with
  | none =>
    rw [hscan] at busy
    exact absurd rfl busy
  | some scan =>
    rw [hscan] at busy
    cases hactive : scan.active with
    | nil =>
      refine absurd ?_ busy
      change scan.active ++ scan.waiting.map _ = []
      rw [hactive, filled.first scan hscan hactive]
      rfl
    | cons k rest =>
      refine ⟨k, ?_⟩
      change scan.active.find? _ = some k
      rw [hactive]
      exact List.find?_cons_of_pos (by simp)

theorem waiting_fill {n : Nat} (pos : 1 ≤ n) (scan : Scan) (none_active : (scan.fill n).active = []) :
    (scan.fill n).waiting = [] := by
  unfold Scan.fill at *
  obtain ⟨idle, untaken⟩ := List.append_eq_nil_iff.mp none_active
  have short := List.take_eq_nil_iff.mp (List.map_eq_nil_iff.mp untaken)
  rw [idle] at short
  obtain none_free | empty := short
  · change n - 0 = 0 at none_free
    omega
  · change scan.waiting.drop _ = []
    rw [empty, List.drop_nil]

theorem waiting_advance {n : Nat} (pos : 1 ≤ n) (scan : Scan) (others : List Worker) (d : Delivery)
    (stage : Worker.Stage) (none_active : (scan.advance n others d stage).active = []) :
    (scan.advance n others d stage).waiting = [] := by
  cases stage with
  | done => exact waiting_fill pos _ none_active
  | waiting | renewed | sending | reporting => exact absurd (List.append_eq_nil_iff.mp none_active).2 (by simp)

section Filled

variable (pos : 1 ≤ (crew.config h).concurrency)
include pos

theorem Filled.moved (filled : Filled f h) {id : Uuid} {k : Worker} (turn : f.active? h id = some k)
    (stage : Worker.Stage) (t : Store) : Filled (({ f with store := t } : Fleet).moved crew h k.delivery stage) h where
  going j hj := by
    obtain ⟨rest, before, after⟩ := workers_moved crew (f := { f with store := t }) turn stage
    rcases List.mem_append.mp (after.mem_iff.mp hj) with own | hrest
    · split at own
      · cases own
      · rename_i unfinished
        rw [List.mem_singleton.mp own]
        exact Bool.eq_false_iff.mpr unfinished
    · exact filled.going j (before.mem_iff.mpr (List.mem_cons_of_mem _ hrest))
  first scan hscan := by
    obtain ⟨old, hold, -⟩ := Option.bind_eq_some_iff.mp turn
    rw [Fleet.moved, hold] at hscan
    dsimp only [setScan] at hscan
    rw [Function.update_self] at hscan
    cases hscan
    exact waiting_advance pos old _ _ _

theorem Filled.scan {now till : Instant} (ready : Ready crew h f) (ends : now.add? (crew.config h).lease = some till)
    (roomy : (f.store.due now).length ≤ (crew.config h).batchSize.val.toNat) :
    Filled (f.step crew (.scan h now)) h := by
  obtain ⟨batch, claim, -, workers, -⟩ := scan_step ready ends roomy
  refine ⟨fun k hk => ?_, fun scan hscan => ?_⟩
  · rw [workers] at hk
    obtain ⟨d, -, rfl⟩ := List.mem_map.mp hk
    rfl
  · rw [step_scan ready.idle claim] at hscan
    dsimp only [setScan] at hscan
    rw [Function.update_self] at hscan
    cases hscan
    exact waiting_fill pos _

/-! ### Bringing a scan to its end -/

variable {id : Uuid} {now : Instant} {o : Nat → Outcome} {finish : Nat → Instant}

omit pos in
/-- For a worker that is not at its end there is a step, which may bring any outcome if it is at a request. -/
theorem exists_meets (leased : (now.add? (crew.config h).lease).isSome) (out : Outcome) {done : Instant}
    (fits : (crew.policy h).Fits done) {k : Worker} (going : k.stage.isOver = false) : ∃ v : Move,
      v.delivery = k.delivery.id ∧ v.Meets k.stage ∧ v.Fits crew h ∧
      ∀ id, ∀ x ∈ (v.act h).outcome? h id, x = (out, done) := by
  cases hstage : k.stage with
  | waiting => exact ⟨.start k.delivery.id now, rfl, trivial, leased, fun _ _ hx => by cases hx⟩
  | renewed => exact ⟨.look k.delivery.id, rfl, trivial, trivial, fun _ _ hx => by cases hx⟩
  | sending =>
    refine ⟨.answer k.delivery.id out done, rfl, trivial, fits, fun id x hx => ?_⟩
    obtain ⟨-, same⟩ := Option.ite_none_right_eq_some.mp hx
    exact (Option.some.inj same).symm
  | reporting => exact ⟨.report k.delivery.id, rfl, trivial, trivial, fun _ _ hx => by cases hx⟩
  | done => cases hstage ▸ going

/-- From any point of a scan on its workers can be brought to their ends, with any outcomes for one delivery. -/
theorem moves_end (leased : (now.add? (crew.config h).lease).isSome) (fits : ∀ i, (crew.policy h).Fits (finish i))
    (n : Nat) (steady : Steady crew h f) (filled : Filled f h) : ∃ vs : List Move, (∀ v ∈ vs, v.Fits crew h) ∧
      (f.runMoves crew h vs).workers h = [] ∧ Follows crew h id o finish n f (vs.map (Move.act h)) := by
  -- each step is one of the worker whose turn it is, so that fewer steps are left
  induction hleft : f.left h using Nat.strong_induction_on generalizing f n with
  | _ m ih =>
    by_cases idle : f.workers h = []
    · exact ⟨[], List.forall_mem_nil _, idle, trivial⟩
    · obtain ⟨k, turn⟩ := filled.turn idle
      obtain ⟨v, about, meets, fits', answers⟩ :=
        exists_meets leased (o n) (fits n) (filled.going k (mem_of_active turn))
      rw [← about] at turn
      obtain ⟨stage, t, takes, hstep⟩ := step_taken steady.keeps fits' turn meets
      have less : (f.step crew (v.act h)).left h < m := by
        rw [hstep, ← hleft]
        exact left_moved crew turn takes.left_lt t
      obtain ⟨vs, fits'', ended, rest⟩ := ih _ less (n + requests crew h id f [v.act h]) (steady.move v)
        (by rw [hstep]; exact filled.moved pos turn stage t) rfl
      refine ⟨v :: vs, fun u hu => ?_, ended, fun _ => answers id, rest⟩
      rcases List.mem_cons.mp hu with rfl | hu
      · exact fits'
      · exact fits'' u hu

/-- A scheduler that has no scan under way can run a round whenever it likes. -/
theorem round_exists (leased : (now.add? (crew.config h).lease).isSome) (fits : ∀ i, (crew.policy h).Fits (finish i))
    (n : Nat) (ready : Ready crew h f)
    (roomy : (f.store.due now).length ≤ (crew.config h).batchSize.val.toNat) :
    ∃ r : Round, r.claimAt = now ∧ r.Completes crew h f ∧ Follows crew h id o finish n f (r.acts h) := by
  obtain ⟨till, ends⟩ := Option.isSome_iff_exists.mp leased
  obtain ⟨vs, fits', ended, follows⟩ := moves_end pos leased fits
    (n + requests crew h id f [.scan h now]) (ready.scan now) (.scan pos ready ends roomy)
  exact ⟨⟨now, vs⟩, rfl, ⟨roomy, leased, fits', ended⟩, (fun _ _ hx => by cases hx), follows⟩

end Filled

end Fleet

end Courier
