import Courier.Proofs.Moves
set_option autoImplicit false

namespace Courier

def Worker.Stage.isSending : Worker.Stage → Bool
  | .sending _ => true
  | _ => false

def Act.outcome? (h id : Uuid) : Act → Option (Outcome × Instant)
  | .answer g i out now => if g = h ∧ i = id then some (out, now) else none
  | _ => none

namespace Fleet

variable {crew : Crew} {f : Fleet} {h : Uuid} {v : Move}

/-! ### Requests -/

def sending (f : Fleet) (h id : Uuid) : Bool := (f.workers h).any fun k => k.delivery.id = id && k.stage.isSending

def requests (crew : Crew) (h id : Uuid) : Fleet → List Act → Nat
  | _, [] => 0
  | f, a :: acts =>
    (if f.sending h id = false ∧ (f.step crew a).sending h id = true then 1 else 0) +
      requests crew h id (f.step crew a) acts

theorem requests_append (crew : Crew) (f : Fleet) (h id : Uuid) (acts more : List Act) :
    requests crew h id f (acts ++ more) = requests crew h id f acts + requests crew h id (f.run crew acts) more := by
  induction acts generalizing f with
  | nil => exact (Nat.zero_add _).symm
  | cons a acts ih =>
    rw [List.cons_append, requests, requests, ih (f.step crew a), Nat.add_assoc]
    rfl

theorem requests_none {id : Uuid} {a : Act} (idle : f.sending h id = true ∨ (f.step crew a).sending h id = false) :
    requests crew h id f [a] = 0 := by
  have unbegun : ¬ (f.sending h id = false ∧ (f.step crew a).sending h id = true) := by
    rintro ⟨before, after⟩
    rcases idle with asked | unasked
    · cases asked.symm.trans before
    · cases unasked.symm.trans after
  rw [requests, if_neg unbegun]
  rfl

theorem requests_one {id : Uuid} {a : Act} (before : f.sending h id = false)
    (after : (f.step crew a).sending h id = true) : requests crew h id f [a] = 1 := by
  rw [requests, if_pos ⟨before, after⟩]
  rfl

theorem requests_cons (crew : Crew) (f : Fleet) (h id : Uuid) (a : Act) (acts : List Act) :
    requests crew h id f (a :: acts) = requests crew h id f [a] + requests crew h id (f.step crew a) acts :=
  requests_append crew f h id [a] acts

/-- After `n` requests for the delivery: request number `k` for it comes to outcome `o k` at time `finish k`. -/
def Follows (crew : Crew) (h id : Uuid) (o : Nat → Outcome) (finish : Nat → Instant) : Nat → Fleet → List Act → Prop
  | _, _, [] => True
  | n, f, a :: acts =>
    (f.sending h id = true → ∀ x ∈ a.outcome? h id, x = (o n, finish n)) ∧
      Follows crew h id o finish (n + requests crew h id f [a]) (f.step crew a) acts

instance decidableFollows (crew : Crew) (h id : Uuid) (o : Nat → Outcome) (finish : Nat → Instant) :
    ∀ n f acts, Decidable (Follows crew h id o finish n f acts)
  | _, _, [] => .isTrue trivial
  | n, f, a :: acts =>
    have := decidableFollows crew h id o finish (n + requests crew h id f [a]) (f.step crew a) acts
    inferInstanceAs (Decidable (_ ∧ _))

theorem follows_append {id : Uuid} {o : Nat → Outcome} {finish : Nat → Instant} {n : Nat} (acts more : List Act) :
    Follows crew h id o finish n f (acts ++ more) ↔ Follows crew h id o finish n f acts ∧
      Follows crew h id o finish (n + requests crew h id f acts) (f.run crew acts) more := by
  induction acts generalizing f n with
  | nil => exact ⟨fun follows => ⟨trivial, follows⟩, And.right⟩
  | cons a acts ih =>
    rw [List.cons_append, Follows, Follows, ih, requests_cons crew f h id a acts, Nat.add_assoc, and_assoc]
    rfl

theorem sending_eq (distinct : Distinct f) {k : Worker} (hk : k ∈ f.workers h) :
    f.sending h k.delivery.id = k.stage.isSending := by
  unfold sending
  rw [Bool.eq_iff_iff, List.any_eq_true]
  constructor
  · rintro ⟨j, hj, both⟩
    obtain ⟨same, at_request⟩ := Bool.and_eq_true_iff.mp both
    obtain rfl := distinct.worker_eq hj hk (of_decide_eq_true same)
    exact at_request
  · intro at_request
    exact ⟨k, hk, by simp [at_request]⟩

theorem sending_none {id : Uuid} (absent : ∀ k ∈ f.workers h, k.delivery.id ≠ id) : f.sending h id = false := by
  unfold sending
  rw [List.any_eq_false]
  intro k hk
  simp [absent k hk]

/-! ### The delivery that a round is about -/

def Rests (f : Fleet) (h : Uuid) (d : Delivery) : Prop :=
  d ∈ f.store.deliveries ∧ ∀ k ∈ f.workers h, k.delivery.id ≠ d.id

theorem Rests.move {d : Delivery} (rests : Rests f h d) (steady : Steady crew h f) (fits : v.Fits crew h) :
    Rests (f.step crew (v.act h)) h d ∧ requests crew h d.id f [v.act h] = 0 := by
  have next : Rests (f.step crew (v.act h)) h d := by
    by_cases own : d.id = v.delivery
    · obtain same | ⟨k, stage, t, turn, -⟩ := step_move steady.keeps fits
      · rw [same]
        exact rests
      · exact absurd ((id_of_active turn).trans own.symm) (rests.2 k (mem_of_active turn))
    · refine ⟨row_kept rests.1 own, fun k hk same => ?_⟩
      exact rests.2 k (worker_before steady fits hk (same ▸ own)) same
  exact ⟨next, requests_none (.inr (sending_none next.2))⟩

/-- The scheduler holds the delivery, and its worker is at this stage with it. The worker keeps the delivery as it was
claimed, so that the end of its claim may be an earlier one than the stored. -/
def Handles (f : Fleet) (h : Uuid) (d : Delivery) (stage : Worker.Stage) : Prop :=
  (∃ till, d.apply (.claim h till) ∈ f.store.deliveries) ∧ ∃ till, ⟨d.apply (.claim h till), stage⟩ ∈ f.workers h

section Handles

variable {d : Delivery} {stage : Worker.Stage}

theorem Handles.sending (handles : Handles f h d stage) (distinct : Distinct f) :
    f.sending h d.id = stage.isSending := by
  obtain ⟨-, till, hk⟩ := handles
  exact sending_eq distinct hk

theorem Handles.other (handles : Handles f h d stage) (steady : Steady crew h f) (fits : v.Fits crew h)
    (other : d.id ≠ v.delivery) : Handles (f.step crew (v.act h)) h d stage := by
  obtain ⟨⟨till, hrow⟩, till', hk⟩ := handles
  exact ⟨⟨till, row_kept hrow other⟩, till', worker_kept steady fits hk other⟩

theorem Handles.sound (handles : Handles f h d stage) (steady : Steady crew h f) :
    d.status = .pending ∧ 0 ≤ d.attempts.val ∧ d.attempts.val < crew.limit h := by
  obtain ⟨-, till, hk⟩ := handles
  obtain ⟨sound, pending⟩ := steady.keeps.copies h _ hk
  obtain ⟨nonneg, below, -⟩ := sound.pending pending
  exact ⟨pending, nonneg, below⟩

/-- A step on the delivery is a step from the stage that its worker is at. -/
theorem Handles.own (handles : Handles f h d stage) (steady : Steady crew h f) (fits : v.Fits crew h)
    (own : d.id = v.delivery) : f.step crew (v.act h) = f ∨ ∃ till next t,
      Takes crew f h v ⟨d.apply (.claim h till), stage⟩ next t ∧ (f.step crew (v.act h)).store = t ∧
      (next.isOver = false → ⟨d.apply (.claim h till), next⟩ ∈ (f.step crew (v.act h)).workers h) ∧
      (next.isOver = true → ∀ k ∈ (f.step crew (v.act h)).workers h, k.delivery.id ≠ d.id) := by
  obtain same | ⟨k, next, t, turn, takes, hnext⟩ := step_move steady.keeps fits
  · exact .inl same
  · obtain ⟨-, till, hk⟩ := handles
    obtain rfl := steady.distinct.worker_eq (mem_of_active turn) hk ((id_of_active turn).trans own.symm)
    obtain ⟨going, ended⟩ := worker_moved steady turn next t
    rw [hnext]
    exact .inr ⟨till, next, t, takes, store_moved _ _, going, ended⟩

theorem Handles.from_waiting (handles : Handles f h d .waiting) (steady : Steady crew h f) (fits : v.Fits crew h) :
    Handles (f.step crew (v.act h)) h d .waiting ∨ Handles (f.step crew (v.act h)) h d .renewed := by
  by_cases own : d.id = v.delivery
  · obtain same | ⟨till, next, t, takes, hstore, going, -⟩ := handles.own steady fits own
    · exact .inl (by rw [same]; exact handles)
    · refine .inr ?_
      obtain ⟨⟨held, hrow⟩, -⟩ := handles
      cases takes with
      | @started _ now _ _ call =>
        obtain ⟨ends, lease⟩ := Option.isSome_iff_exists.mp fits
        have holds : Store.isHeld d.id h (d.apply (.claim h held)) = true := Store.isHeld_iff.mpr ⟨rfl, rfl⟩
        obtain ⟨u, renewed⟩ := Store.renewClaim_held steady.online hrow holds ends
        have started : Worker.start (crew.scheduler h) (d.apply (.claim h till)) false now f.store = .ok (.renewed, u) :=
          Worker.start_renewed lease renewed
        obtain ⟨rfl, rfl⟩ := Prod.mk.inj (Except.ok.inj (call.symm.trans started))
        refine ⟨⟨ends, ?_⟩, till, going rfl⟩
        obtain ⟨-, -, ⟨x, hx, hheld, -, hmem⟩ | ⟨-, unheld, -⟩⟩ := Store.renewClaim_ok renewed
        · obtain rfl := steady.distinct.row_eq hx hrow (Store.isHeld_iff.mp hheld).1
          rw [hstore]
          exact hmem
        · cases unheld
  · exact .inl (handles.other steady fits own)

theorem Handles.from_renewed (handles : Handles f h d .renewed) (steady : Steady crew h f) (fits : v.Fits crew h)
    (serves : f.store.Serves d.webhookId) :
    Handles (f.step crew (v.act h)) h d .renewed ∨ ∃ w, Handles (f.step crew (v.act h)) h d (.sending w) := by
  by_cases own : d.id = v.delivery
  · obtain same | ⟨till, next, t, takes, hstore, going, -⟩ := handles.own steady fits own
    · exact .inl (by rw [same]; exact handles)
    · refine .inr ?_
      have spare : d.attempts.val < (crew.scheduler h).config.policy.maxAttempts.val :=
        (handles.sound steady).2.2
      obtain ⟨⟨held, hrow⟩, -⟩ := handles
      cases takes with
      | looked =>
        obtain ⟨w, asks⟩ : ∃ w, Worker.look (crew.scheduler h) (d.apply (.claim h till))
            (f.store.getWebhook d.webhookId) = .sending w := Worker.look_serving serves spare
        have going : Worker.Stage.isOver (.sending w) = false → _ := asks ▸ going
        refine ⟨w, ⟨held, ?_⟩, till, going rfl⟩
        rw [hstore]
        exact hrow
  · exact .inl (handles.other steady fits own)

theorem Handles.from_sending {w : Webhook} (handles : Handles f h d (.sending w)) (steady : Steady crew h f)
    (fits : v.Fits crew h) : Handles (f.step crew (v.act h)) h d (.sending w) ∨ ∃ o now c,
      v = .answer d.id o now ∧ Change.afterAttempt d.attempts o (crew.policy h) now = .ok c ∧
        Handles (f.step crew (v.act h)) h d (.reporting c) := by
  by_cases own : d.id = v.delivery
  · obtain same | ⟨till, next, t, takes, hstore, going, -⟩ := handles.own steady fits own
    · exact .inl (by rw [same]; exact handles)
    · refine .inr ?_
      obtain ⟨⟨held, hrow⟩, -⟩ := handles
      cases takes with
      | @answered _ _ o now _ call =>
        obtain ⟨c, concluded, rfl⟩ := Worker.answer_ok call
        refine ⟨o, now, c, rfl, concluded, ⟨held, ?_⟩, till, going rfl⟩
        rw [hstore]
        exact hrow
  · exact .inl (handles.other steady fits own)

/-- What a worker reports while it holds the delivery is written, and the worker is done with it. -/
theorem Handles.from_reporting {c : Change} (handles : Handles f h d (.reporting c)) (steady : Steady crew h f)
    (fits : v.Fits crew h)
    (drops : c.claimedBy = some none ∧ c.claimedUntil = some none) :
    Handles (f.step crew (v.act h)) h d (.reporting c) ∨ Rests (f.step crew (v.act h)) h (d.apply c) := by
  by_cases own : d.id = v.delivery
  · obtain same | ⟨till, next, t, takes, hstore, -, gone⟩ := handles.own steady fits own
    · exact .inl (by rw [same]; exact handles)
    · refine .inr ?_
      have pending := (handles.sound steady).1
      obtain ⟨⟨held, hrow⟩, -⟩ := handles
      cases takes with
      | reported =>
        have ended := (Worker.report_over (crew.scheduler h) (d.apply (.claim h till)) c f.store).1
        have holds : Store.isHeld d.id h (d.apply (.claim h held)) = true := Store.isHeld_iff.mpr ⟨rfl, rfl⟩
        obtain ⟨e, u, call⟩ := Store.completeAttempt_some steady.online hrow holds pending c
        have reported : Worker.report (crew.scheduler h) (d.apply (.claim h till)) c f.store =
            (.done (Worker.resultOf e), u) := by
          unfold Worker.report
          rw [show f.store.completeAttempt (d.apply (.claim h till)).id (crew.scheduler h).id c = _ from call]
        refine ⟨?_, gone ended⟩
        rw [hstore, reported]
        obtain ⟨-, -, ⟨x, hx, hheld, -, hmem⟩ | ⟨-, unwritten, -⟩⟩ := Store.completeAttempt_ok call
        · have hid := (Store.isHeld_iff.mp (Bool.and_eq_true_iff.mp hheld).1).1
          obtain rfl := steady.distinct.row_eq hx hrow hid
          rw [d.apply_over_claim h held drops] at hmem
          exact hmem
        · cases unwritten
  · exact .inl (handles.other steady fits own)

end Handles

/-- How far a round is with a delivery that was due when it began, and how many requests it began for it. -/
inductive Phase (crew : Crew) (h : Uuid) (d : Delivery) (o : Outcome) (done : Instant) (f : Fleet) : Nat → Prop
  | ahead {stage : Worker.Stage} (early : stage = .waiting ∨ stage = .renewed) (handles : Handles f h d stage) :
    Phase crew h d o done f 0
  | asked {w : Webhook} (handles : Handles f h d (.sending w)) : Phase crew h d o done f 1
  | answered {n : Word32} (counted : n.val = d.attempts.val + 1) (fits : (crew.policy h).Fits done)
    (handles : Handles f h d (.reporting (.concluded (crew.policy h) n o done))) : Phase crew h d o done f 1
  | ended {n : Word32} (counted : n.val = d.attempts.val + 1) (fits : (crew.policy h).Fits done)
    (rests : Rests f h (d.apply (.concluded (crew.policy h) n o done))) : Phase crew h d o done f 1

/-- A step brings the delivery to the next phase or leaves it in its phase, if a request for it ends as given. -/
theorem Phase.move {d : Delivery} {o : Outcome} {done : Instant} {n : Nat} (phase : Phase crew h d o done f n)
    (steady : Steady crew h f) (fits : v.Fits crew h) (serves : f.store.Serves d.webhookId)
    (answers : ∀ out now, v = .answer d.id out now → f.sending h d.id = true → n = 1 → out = o ∧ now = done) :
    Phase crew h d o done (f.step crew (v.act h)) (n + requests crew h d.id f [v.act h]) := by
  have steady' := steady.move v
  cases phase with
  | @ahead stage early handles =>
    have before := handles.sending steady.distinct
    have quiet : ∀ {next : Worker.Stage}, next = .waiting ∨ next = .renewed →
        Handles (f.step crew (v.act h)) h d next →
        Phase crew h d o done (f.step crew (v.act h)) (0 + requests crew h d.id f [v.act h]) := by
      intro next early' handles'
      have after := handles'.sending steady'.distinct
      rw [requests_none (.inr (by rw [after]; rcases early' with rfl | rfl <;> rfl))]
      exact .ahead early' handles'
    rcases early with rfl | rfl
    · obtain handles' | handles' := handles.from_waiting steady fits
      · exact quiet (.inl rfl) handles'
      · exact quiet (.inr rfl) handles'
    · obtain handles' | ⟨w, handles'⟩ := handles.from_renewed steady fits serves
      · exact quiet (.inr rfl) handles'
      · rw [requests_one before (handles'.sending steady'.distinct)]
        exact .asked handles'
  | asked handles =>
    have before := handles.sending steady.distinct
    rw [requests_none (.inl before)]
    obtain handles' | ⟨out, now, c, hv, call, handles'⟩ := handles.from_sending steady fits
    · exact .asked handles'
    · obtain ⟨rfl, rfl⟩ := answers out now hv before rfl
      have fits' : (crew.policy h).Fits now := by
        rw [hv] at fits
        exact fits
      obtain ⟨-, nonneg, below⟩ := handles.sound steady
      obtain ⟨n, counted, concluded⟩ := Change.afterAttempt_fits nonneg below fits' out
      obtain rfl := Except.ok.inj (call.symm.trans concluded)
      exact .answered counted fits' handles'
  | answered counted fits' handles =>
    obtain handles' | rests := handles.from_reporting steady fits (Change.concluded_drops_claim _ _ _ _)
    · rw [requests_none (.inr (handles'.sending steady'.distinct))]
      exact .answered counted fits' handles'
    · have after : (f.step crew (v.act h)).sending h d.id = false := sending_none rests.2
      rw [requests_none (.inr after)]
      exact .ended counted fits' rests
  | ended counted fits' rests =>
    obtain ⟨rests', unasked⟩ := rests.move steady fits
    rw [show requests crew h d.id f [v.act h] = 0 from unasked]
    exact .ended counted fits' rests'

/-! ### Steps one after the other -/

variable {vs : List Move}

abbrev runMoves (crew : Crew) (h : Uuid) (f : Fleet) (vs : List Move) : Fleet := f.run crew (vs.map (Move.act h))

theorem Steady.moves (steady : Steady crew h f) (vs : List Move) : Steady crew h (f.runMoves crew h vs) := by
  induction vs generalizing f with
  | nil => exact steady
  | cons v vs ih => exact ih (steady.move v)

theorem moves_frames (crew : Crew) (h : Uuid) (f : Fleet) (vs : List Move) :
    f.store.Frames (f.runMoves crew h vs).store := by
  induction vs generalizing f with
  | nil => exact .rfl
  | cons v vs ih => exact (move_frames crew f h v).trans (ih (f.step crew (v.act h)))

theorem Rests.moves {d : Delivery} (rests : Rests f h d) (steady : Steady crew h f)
    (fits : ∀ v ∈ vs, v.Fits crew h) :
    Rests (f.runMoves crew h vs) h d ∧ requests crew h d.id f (vs.map (Move.act h)) = 0 := by
  induction vs generalizing f with
  | nil => exact ⟨rests, rfl⟩
  | cons v vs ih =>
    obtain ⟨next, unasked⟩ := rests.move steady (fits v List.mem_cons_self)
    obtain ⟨last, unasked'⟩ := ih next (steady.move v) fun u hu => fits u (List.mem_cons_of_mem _ hu)
    refine ⟨last, ?_⟩
    rw [List.map_cons, requests_cons, unasked, Nat.zero_add]
    exact unasked'

theorem Phase.moves {d : Delivery} {o : Nat → Outcome} {finish : Nat → Instant} {b n : Nat}
    (phase : Phase crew h d (o (b + 1)) (finish (b + 1)) f n) (steady : Steady crew h f)
    (fits : ∀ v ∈ vs, v.Fits crew h) (serves : f.store.Serves d.webhookId)
    (follows : Follows crew h d.id o finish (b + n) f (vs.map (Move.act h))) :
    Phase crew h d (o (b + 1)) (finish (b + 1)) (f.runMoves crew h vs)
      (n + requests crew h d.id f (vs.map (Move.act h))) := by
  induction vs generalizing f n with
  | nil => exact phase
  | cons v vs ih =>
    obtain ⟨first, rest⟩ := follows
    have next := phase.move steady (fits v List.mem_cons_self) serves fun out now hv asked once => by
      subst once
      have told : (out, now) ∈ (v.act h).outcome? h d.id := by
        rw [hv]
        exact if_pos ⟨rfl, rfl⟩
      exact Prod.mk.inj (first asked _ told)
    rw [List.map_cons, requests_cons, ← Nat.add_assoc]
    rw [Nat.add_assoc] at rest
    exact ih next (steady.move v) (fun u hu => fits u (List.mem_cons_of_mem _ hu))
      (serves.frames (move_frames crew f h v)) rest

/-! ### Rounds -/

end Fleet

structure Round where
  claimAt : Instant
  moves : List Move

def Round.acts (h : Uuid) (r : Round) : List Act := .scan h r.claimAt :: r.moves.map (Move.act h)

/-- The round is a scan that comes to its end: all that is due fits into the batch and all dates exist. -/
structure Round.Completes (crew : Crew) (h : Uuid) (f : Fleet) (r : Round) : Prop where
  roomy : (f.store.due r.claimAt).length ≤ (crew.config h).batchSize.val.toNat
  leased : (r.claimAt.add? (crew.config h).lease).isSome
  fits : ∀ v ∈ r.moves, v.Fits crew h
  finished : (f.run crew (r.acts h)).workers h = []

namespace Fleet

variable {crew : Crew} {f : Fleet} {h : Uuid}

structure Ready (crew : Crew) (h : Uuid) (f : Fleet) : Prop where
  distinct : Distinct f
  online : f.store.online = true
  idle : f.workers h = []
  keeps : Keeps crew (crew.limit h) f

/-- In a run of schedulers of which none allows more attempts than this one. -/
theorem ready_after (allows : crew.Allows (crew.limit h)) {acts : List Act} (regular : Regular acts)
    (online : (after crew acts).store.online = true) (idle : (after crew acts).workers h = []) :
    Ready crew h (after crew acts) :=
  ⟨(distinct_after crew regular).1, online, idle, keeps_after allows acts⟩

/-- The scan takes what can be claimed and leaves the rest. -/
theorem scan_step (ready : Ready crew h f) {now till : Instant} (ends : now.add? (crew.config h).lease = some till)
    (roomy : (f.store.due now).length ≤ (crew.config h).batchSize.val.toNat) : ∃ batch,
    Scan.claim (crew.scheduler h) now f.store = .ok (batch, (f.step crew (.scan h now)).store) ∧
      (f.step crew (.scan h now)).store.deliveries =
        f.store.deliveries.map (fun d => if d.isClaimable now then d.apply (.claim h till) else d) ∧
      (f.step crew (.scan h now)).workers h = batch.map (⟨·, .waiting⟩) ∧
      ∀ x, x ∈ batch ↔ ∃ d ∈ f.store.deliveries, d.isClaimable now = true ∧ x = d.apply (.claim h till) := by
  obtain ⟨batch, call, member⟩ := Store.claimDue_roomy ready.online ends roomy h
  have claim : Scan.claim (crew.scheduler h) now f.store = .ok (batch, { f.store with
      deliveries := f.store.deliveries.map fun d => if d.isClaimable now then d.apply (.claim h till) else d }) := call
  rw [step_scan ready.idle claim]
  exact ⟨batch, claim, rfl, workers_batch batch _, member⟩

theorem scan_frames (crew : Crew) (f : Fleet) (h : Uuid) (now : Instant) :
    f.store.Frames (f.step crew (.scan h now)).store :=
  frames_step crew f _ rfl fun _ same => by cases same

theorem Ready.scan (ready : Ready crew h f) (now : Instant) : Steady crew h (f.step crew (.scan h now)) where
  distinct := ready.distinct.step rfl
  keeps := ready.keeps.step _
  online := (scan_frames crew f h now).online.trans ready.online

theorem Ready.round (ready : Ready crew h f) {r : Round} (completes : r.Completes crew h f) :
    Ready crew h (f.run crew (r.acts h)) ∧ f.store.Frames (f.run crew (r.acts h)).store := by
  have steady := (ready.scan r.claimAt).moves r.moves
  exact ⟨⟨steady.distinct, steady.online, completes.finished, steady.keeps⟩,
    (scan_frames crew f h r.claimAt).trans (moves_frames crew h _ r.moves)⟩

theorem requests_round {now : Instant} {id : Uuid} (acts : List Act)
    (unasked : (f.step crew (.scan h now)).sending h id = false) :
    requests crew h id f (.scan h now :: acts) = requests crew h id (f.step crew (.scan h now)) acts := by
  rw [requests_cons, requests_none (.inr unasked), Nat.zero_add]

/-- A delivery that cannot be claimed when a round begins is not claimed in it, not sent, and left as it is. -/
theorem round_passes (ready : Ready crew h f) {r : Round} (completes : r.Completes crew h f) {d : Delivery}
    (hd : d ∈ f.store.deliveries) (unclaimable : d.isClaimable r.claimAt = false) :
    d ∈ (f.run crew (r.acts h)).store.deliveries ∧ requests crew h d.id f (r.acts h) = 0 ∧
      ∀ batch t, Scan.claim (crew.scheduler h) r.claimAt f.store = .ok (batch, t) → ∀ x ∈ batch, x.id ≠ d.id := by
  obtain ⟨till, ends⟩ := Option.isSome_iff_exists.mp completes.leased
  obtain ⟨batch, claim, rows, workers, member⟩ := scan_step ready ends completes.roomy
  have apart : ∀ x ∈ batch, x.id ≠ d.id := by
    intro x hx same
    obtain ⟨y, hy, claimable, rfl⟩ := (member x).mp hx
    obtain rfl := ready.distinct.row_eq hy hd same
    cases unclaimable.symm.trans claimable
  have rests : Rests (f.step crew (.scan h r.claimAt)) h d := by
    refine ⟨?_, fun k hk => ?_⟩
    · rw [rows]
      exact List.mem_map.mpr ⟨d, hd, by rw [unclaimable]; rfl⟩
    · rw [workers] at hk
      obtain ⟨x, hx, rfl⟩ := List.mem_map.mp hk
      exact apart x hx
  obtain ⟨last, unasked⟩ := rests.moves (ready.scan r.claimAt) completes.fits
  refine ⟨last.1, ?_, fun batch' t claim' x hx => ?_⟩
  · exact (requests_round _ (sending_none rests.2)).trans unasked
  · obtain ⟨rfl, -⟩ := Prod.mk.inj (Except.ok.inj (claim'.symm.trans claim))
    exact apart x hx

/-- A delivery that can be claimed when a round begins is sent exactly once in it, if its webhook is active, and what
the attempt led to is written down. -/
theorem round_attempts (ready : Ready crew h f) {r : Round} (completes : r.Completes crew h f) {d : Delivery}
    (hd : d ∈ f.store.deliveries) (claimable : d.isClaimable r.claimAt = true) (serves : f.store.Serves d.webhookId)
    {o : Nat → Outcome} {finish : Nat → Instant} {b : Nat}
    (follows : Follows crew h d.id o finish b f (r.acts h)) :
    ∃ n : Word32, n.val = d.attempts.val + 1 ∧ (crew.policy h).Fits (finish (b + 1)) ∧
      d.apply (.concluded (crew.policy h) n (o (b + 1)) (finish (b + 1))) ∈ (f.run crew (r.acts h)).store.deliveries ∧
      requests crew h d.id f (r.acts h) = 1 := by
  obtain ⟨till, ends⟩ := Option.isSome_iff_exists.mp completes.leased
  obtain ⟨batch, claim, rows, workers, member⟩ := scan_step ready ends completes.roomy
  have steady := ready.scan r.claimAt
  have handles : Handles (f.step crew (.scan h r.claimAt)) h d .waiting := by
    refine ⟨⟨till, ?_⟩, till, ?_⟩
    · rw [rows]
      exact List.mem_map.mpr ⟨d, hd, if_pos claimable⟩
    · rw [workers]
      exact List.mem_map_of_mem ((member _).mpr ⟨d, hd, claimable, rfl⟩)
  have unasked := handles.sending steady.distinct
  obtain ⟨-, answers⟩ := follows
  rw [requests_none (.inr unasked)] at answers
  have phase := Phase.moves (.ahead (.inl rfl) handles) steady completes.fits
    (serves.frames (scan_frames crew f h r.claimAt)) answers
  rw [Nat.zero_add, ← requests_round _ unasked] at phase
  have finished : ∀ {stage : Worker.Stage}, ¬ Handles (f.run crew (r.acts h)) h d stage := by
    rintro stage ⟨-, till, hk⟩
    rw [completes.finished] at hk
    cases hk
  change Phase crew h d (o (b + 1)) (finish (b + 1)) (f.run crew (r.acts h)) (requests crew h d.id f (r.acts h)) at phase
  generalize requests crew h d.id f (r.acts h) = n at phase
  cases phase with
  | ahead _ handles => exact absurd handles finished
  | asked handles => exact absurd handles finished
  | answered _ _ handles => exact absurd handles finished
  | ended counted fits rests => exact ⟨_, counted, fits, rests.1, rfl⟩

end Fleet

end Courier
