import Courier.Proofs.Outages
set_option autoImplicit false

namespace Courier

def Worker.Stage.isWaiting : Worker.Stage → Bool
  | .waiting => true
  | _ => false

namespace Scene

def Turn.late (id : Uuid) : Turn := ⟨id, true, true⟩

def Bench.unstarted (b : Bench) : List Uuid := (b.scan.unfinished.filter (·.stage.isWaiting)).map (·.delivery.id)

def Bench.sending? (b : Bench) (t : Turn) : Option Delivery :=
  (b.scan.turn? t.delivery).bind fun k =>
    match k.stage with
    | .sending _ => some k.delivery
    | _ => none

def sent (c : Scene) (n : Nat) (b : Bench) : List Turn → List Delivery
  | [] => []
  | t :: ts =>
    (b.sending? t).toList ++
      match c.step n b t with
      | some b' => c.sent n b' ts
      | none => []

/-- These workers find the scheduler stopping, and all calls get through. -/
def Weather.stoppingFor (late : List Uuid) : Weather := ⟨fun id => id ∈ late, fun _ _ => true⟩

variable {c : Scene} {s t : Store} {batch : List Delivery} {ts : List Turn} {ends : List (Delivery × Worker.Result)}
  {n : Nat} {b b' cut : Bench} {tn : Turn} {d : Delivery} {id : Uuid} {late ids : List Uuid}

theorem Bench.mem_unstarted :
    id ∈ b.unstarted ↔ ∃ k ∈ b.scan.unfinished, k.stage.isWaiting = true ∧ k.delivery.id = id := by
  simp [unstarted, and_assoc]

/-! ### Who has started -/

theorem turn_started {k : Worker} {stopping : Bool} {next : Worker.Stage}
    (h : c.turn k stopping s = some (next, t)) : next.isWaiting = false := by
  have less := turn_left h
  cases next with
  | waiting =>
    have most : k.stage.left ≤ 4 := by cases k.stage <;> simp [Worker.Stage.left]
    exact absurd less (Nat.not_lt.mpr most)
  | renewed | sending | reporting | done => rfl

theorem turn_started_stopping {k : Worker} (started : k.stage.isWaiting = false) (stopping stopping' : Bool)
    (s : Store) : c.turn k stopping s = c.turn k stopping' s := by
  obtain ⟨d, stage⟩ := k
  cases stage with
  | waiting => cases started
  | renewed | sending | reporting | done => rfl

theorem turn_handsBack {k : Worker} (waits : k.stage.isWaiting = true) {next : Worker.Stage}
    (h : c.turn k true s = some (next, t)) : next.isOver = true := by
  obtain ⟨d, stage⟩ := k
  cases stage with
  | waiting =>
    cases Worker.start_ok (toOption_eq_some.mp h) with
    | handedBack | failed => rfl
  | renewed | sending | reporting | done => cases waits

theorem Stands.ids_unfinished (claims : c.Claims s batch) (stands : c.Stands s batch ts ends b) :
    (b.scan.unfinished.map (·.delivery.id)).Nodup :=
  (List.nodup_append.mp (stands.ids claims)).2.1

theorem step_unstarted (claims : c.Claims s batch) (stands : c.Stands s batch ts ends b) (h : c.step n b tn = some b')
    (waits : id ∈ b'.unstarted) : id ∈ b.unstarted ∧ tn.delivery ≠ id := by
  obtain ⟨k, next, t, turn, hturn, rest, before, after⟩ := step_unfinished h
  obtain ⟨j, hj, waiting, rfl⟩ := Bench.mem_unstarted.mp waits
  have apart := (before.map (·.delivery.id)).nodup_iff.mp (stands.ids_unfinished claims)
  rcases List.mem_append.mp (after.mem_iff.mp hj) with mover | other
  · split at mover
    · cases mover
    · rw [List.mem_singleton.mp mover, turn_started hturn] at waiting
      cases waiting
  · refine ⟨Bench.mem_unstarted.mpr ⟨j, before.mem_iff.mpr (List.mem_cons_of_mem _ other), waiting, rfl⟩, ?_⟩
    rw [← Scan.id_of_turn turn]
    exact fun same => (List.nodup_cons.mp apart).1 (List.mem_map.mpr ⟨j, other, same.symm⟩)

/-- Who has not started after some turns had none of them. -/
theorem run_unstarted (claims : c.Claims s batch) (stands : c.Stands s batch ts ends b) {more : List Turn}
    (h : c.run n b more = some b') (waits : id ∈ b'.unstarted) :
    id ∈ b.unstarted ∧ ∀ u ∈ more, u.delivery ≠ id := by
  induction more generalizing ts ends b with
  | nil =>
    cases h
    exact ⟨waits, fun u hu => (by cases hu)⟩
  | cons u more ih =>
    obtain ⟨next, hstep, hrest⟩ := Option.bind_eq_some_iff.mp h
    obtain ⟨ends', stands'⟩ := stands.step claims hstep
    obtain ⟨later, apart⟩ := ih stands' hrest
    obtain ⟨earlier, own⟩ := step_unstarted claims stands hstep later
    exact ⟨earlier, List.forall_mem_cons.mpr ⟨own, apart⟩⟩

theorem run_filled (pos : 1 ≤ n) (filled : b.scan.active = [] → b.scan.waiting = []) {more : List Turn}
    (h : c.run n b more = some b') : b'.scan.active = [] → b'.scan.waiting = [] := by
  induction more generalizing b with
  | nil =>
    cases h
    exact filled
  | cons u more ih =>
    obtain ⟨next, hstep, hrest⟩ := Option.bind_eq_some_iff.mp h
    exact ih (step_filled pos hstep) hrest

/-! ### An interrupted scan is a scan in which some workers find the scheduler stopping -/

theorem turn_stoppingFor (late : List Uuid) (k : Worker) :
    (Weather.stoppingFor late).turn k = ⟨k.delivery.id, k.delivery.id ∈ late, true⟩ := by
  unfold Weather.turn
  cases (Weather.stoppingFor late).call? k <;> rfl

theorem prompt_calm_apart (apart : id ∉ late) (b : Bench) :
    c.prompt n (Weather.stoppingFor late).turn b id = c.step n b (.calm id) := by
  rw [← prompt_own .calm fun _ => rfl]
  unfold prompt
  cases turn : b.scan.turn? id with
  | none => rfl
  | some k =>
    have unasked : decide (k.delivery.id ∈ late) = false := by simpa [Scan.id_of_turn turn] using apart
    rw [Option.bind_some, Option.bind_some, turn_stoppingFor, unasked]
    rfl

theorem prompt_late (waits : ∀ id ∈ b.unstarted, id ∈ late) (id : Uuid) :
    c.prompt n (Weather.stoppingFor late).turn b id = c.step n b (.late id) := by
  rw [← prompt_own .late fun _ => rfl]
  unfold prompt
  cases turn : b.scan.turn? id with
  | none => rfl
  | some k =>
    obtain rfl := Scan.id_of_turn turn
    rw [Option.bind_some, Option.bind_some, turn_stoppingFor]
    unfold step
    dsimp only [Turn.late]
    rw [turn, Option.bind_some, Option.bind_some]
    cases started : k.stage.isWaiting with
    | true =>
      have asked := waits _ (Bench.mem_unstarted.mpr ⟨k, Scan.mem_of_turn turn, started, rfl⟩)
      simp [asked]
    | false => rw [turn_started_stopping started _ true]

theorem play_calm_apart (apart : ∀ id ∈ ids, id ∉ late) (h : c.run n b (ids.map .calm) = some b') :
    c.play n (Weather.stoppingFor late).turn b ids = some b' := by
  induction ids generalizing b with
  | nil => exact h
  | cons id ids ih =>
    obtain ⟨next, hstep, hrest⟩ := Option.bind_eq_some_iff.mp h
    rw [← prompt_calm_apart (apart id List.mem_cons_self)] at hstep
    exact Option.bind_eq_some_iff.mpr ⟨next, hstep, ih (fun i hi => apart i (List.mem_cons_of_mem _ hi)) hrest⟩

theorem play_late (claims : c.Claims s batch) (stands : c.Stands s batch ts ends b)
    (waits : ∀ id ∈ b.unstarted, id ∈ late) (h : c.run n b (ids.map .late) = some b') :
    c.play n (Weather.stoppingFor late).turn b ids = some b' := by
  induction ids generalizing ts ends b with
  | nil => exact h
  | cons id ids ih =>
    obtain ⟨next, hstep, hrest⟩ := Option.bind_eq_some_iff.mp h
    obtain ⟨ends', stands'⟩ := stands.step claims hstep
    have waits' : ∀ id ∈ next.unstarted, id ∈ late := fun id hid =>
      waits id (step_unstarted claims stands hstep hid).1
    rw [← prompt_late waits] at hstep
    exact Option.bind_eq_some_iff.mpr ⟨next, hstep, ih stands' waits' hrest⟩

variable (c) in
def CutsAt (n : Nat) (batch : List Delivery) (s : Store) (before : List Uuid) (cut : Bench) : Prop :=
  c.run n (opened n batch s) (before.map .calm) = some cut

variable (c) in
def Closes (n : Nat) (cut : Bench) (after : List Uuid) (b : Bench) : Prop :=
  c.run n cut (after.map .late) = some b ∧ b.scan.isDone = true

variable {before after : List Uuid}

theorem weathers_of_cut (claims : c.Claims s batch) (cuts : c.CutsAt n batch s before cut)
    (closes : c.Closes n cut after b) : c.Weathers (.stoppingFor cut.unstarted) n batch s b := by
  obtain ⟨hrun, done⟩ := closes
  have opens := Stands.opened (c := c) n batch s
  obtain ⟨ends, stands⟩ := opens.run claims cuts
  -- whose turn it was before the cut has started, so that the weather of the whole scan is calm there
  have apart : ∀ id ∈ before, id ∉ cut.unstarted := fun id hid waits =>
    (run_unstarted claims opens cuts waits).2 _ (List.mem_map_of_mem hid) rfl
  refine ⟨before ++ after, ?_, done⟩
  unfold play
  rw [List.foldlM_append]
  exact Option.bind_eq_some_iff.mpr ⟨cut, play_calm_apart apart cuts, play_late claims stands (fun _ => id) hrun⟩

/-! ### Nothing is sent for who has not started -/

theorem delivery_of_sent {more : List Turn} (hd : d ∈ c.sent n b more) : ∃ u ∈ more, u.delivery = d.id := by
  induction more generalizing b with
  | nil => cases hd
  | cons u more ih =>
    unfold sent at hd
    rcases List.mem_append.mp hd with now | later
    · obtain ⟨k, turn, sends⟩ := Option.bind_eq_some_iff.mp (Option.mem_toList.mp now)
      split at sends
      · cases sends
        exact ⟨u, List.mem_cons_self, (Scan.id_of_turn turn).symm⟩
      · cases sends
    · split at later
      · obtain ⟨v, hv, same⟩ := ih later
        exact ⟨v, List.mem_cons_of_mem _ hv, same⟩
      · cases later

/-- While the scheduler is stopping those who wait do nothing but hand back. -/
theorem not_sent_late (waits : ∀ k ∈ b.scan.unfinished, k.delivery.id ∈ late → k.stage.isWaiting = true)
    (hd : d ∈ c.sent n b (ids.map .late)) : d.id ∉ late := by
  induction ids generalizing b with
  | nil => cases hd
  | cons id ids ih =>
    rw [List.map_cons, sent] at hd
    rcases List.mem_append.mp hd with now | later
    · intro member
      obtain ⟨k, turn, sends⟩ := Option.bind_eq_some_iff.mp (Option.mem_toList.mp now)
      split at sends
      · rename_i w stage
        cases sends
        have waiting := waits k (Scan.mem_of_turn turn) member
        rw [stage] at waiting
        cases waiting
      · cases sends
    · split at later
      · rename_i b' hstep
        refine ih (fun j hj member => ?_) later
        obtain ⟨k, next, t, turn, hturn, rest, before, after⟩ := step_unfinished hstep
        rcases List.mem_append.mp (after.mem_iff.mp hj) with mover | other
        · split at mover
          · cases mover
          · rename_i going
            obtain rfl := List.mem_singleton.mp mover
            exact absurd (turn_handsBack (waits k (Scan.mem_of_turn turn) member) hturn) going
        · exact waits j (before.mem_iff.mpr (List.mem_cons_of_mem _ other)) member
      · cases later

/-! ### How the scan ends -/

theorem resultIn_stoppingFor (late : List Uuid) (ws : List Webhook) (d : Delivery) :
    c.resultIn (.stoppingFor late) ws d = if d.id ∈ late then .released else Worker.resultOf (c.concluded ws d) := by
  have spared : (Weather.stoppingFor late).Spares d.id := fun _ _ => rfl
  rw [resultIn, if_pos spared]
  simp [Weather.stoppingFor]

theorem weathers_of_completes (completes : c.Completes n batch s b) : c.Weathers (.stoppingFor []) n batch s b :=
  (weathers_clear (w := .stoppingFor []) fun _ => rfl).mpr completes

theorem unstarted_nodup (claims : c.Claims s batch) (stands : c.Stands s batch ts ends cut) : cut.unstarted.Nodup :=
  (stands.ids_unfinished claims).sublist (List.filter_sublist.map _)

theorem unstarted_inside (stands : c.Stands s batch ts ends cut) (waits : id ∈ cut.unstarted) :
    id ∈ batch.map (·.id) := by
  obtain ⟨k, hk, -, rfl⟩ := Bench.mem_unstarted.mp waits
  have member := stands.parts.mem_iff.mp (List.mem_append_right _ (List.mem_map_of_mem hk))
  exact List.mem_map_of_mem member

theorem waiting_of_unstarted (claims : c.Claims s batch) (stands : c.Stands s batch ts ends cut) {k : Worker}
    (hk : k ∈ cut.scan.unfinished) (waits : k.delivery.id ∈ cut.unstarted) : k.stage.isWaiting = true := by
  obtain ⟨j, hj, waiting, same⟩ := Bench.mem_unstarted.mp waits
  rwa [List.inj_on_of_nodup_map (stands.ids_unfinished claims) hj hk same] at waiting

theorem released_stoppingFor (claims : c.Claims s batch) (stands : c.Stands s batch ts ends cut)
    (weathers : c.Weathers (.stoppingFor cut.unstarted) n batch s b) :
    b.scan.report.released = cut.unstarted.length := by
  have same : ((batch.map (·.id)).filter (· ∈ cut.unstarted)).Perm cut.unstarted := by
    refine (List.perm_ext_iff_of_nodup (claims.ids.filter _) (unstarted_nodup claims stands)).mpr fun id => ?_
    simp only [List.mem_filter, decide_eq_true_eq]
    exact ⟨And.right, fun waits => ⟨unstarted_inside stands waits, waits⟩⟩
  rw [(weathers.settles claims).2.2, ← same.length_eq, ← List.countP_eq_length_filter, List.countP_map]
  change (batch.map (c.resultIn (.stoppingFor cut.unstarted) s.webhooks)).count .released = _
  rw [List.count, List.countP_map]
  refine List.countP_congr fun d _ => ?_
  have unreleased := (Worker.resultOf_ne (c.concluded s.webhooks d)).1
  by_cases waits : d.id ∈ cut.unstarted
  · simp [resultIn_stoppingFor, waits]
  · simp [resultIn_stoppingFor, waits, unreleased]

section Rows

variable {claimed : Store} (call : Scan.claim c.scheduler c.now s = .ok (batch, claimed))
  (distinct : (s.deliveries.map (·.id)).Nodup)
include call distinct

theorem row_handedBack (weathers : c.Weathers (.stoppingFor late) n batch claimed b) (hd : d ∈ s.deliveries)
    (inside : d.id ∈ batch.map (·.id)) (waits : d.id ∈ late) :
    { d with claimedBy := none, claimedUntil := none } ∈ b.store.deliveries := by
  have claims := claims_of_claim call distinct
  have member := taken_claimed call distinct hd inside
  have ended : c.resultIn (.stoppingFor late) claimed.webhooks (c.taken d) = .released := by
    rw [resultIn_stoppingFor]
    exact if_pos waits
  rw [(weathers.settles claims).2.1]
  refine List.mem_map.mpr ⟨_, (claims.stored _ member).row, ?_⟩
  unfold closedBy
  rw [ended, if_pos (List.mem_map_of_mem member)]
  rfl

theorem rows_started (weathers : c.Weathers (.stoppingFor late) n batch claimed b) {m : Nat} {clear : Bench}
    (completes : c.Completes m batch claimed clear) :
    b.store.deliveries.filter (·.id ∉ late) = clear.store.deliveries.filter (·.id ∉ late) := by
  have claims := claims_of_claim call distinct
  rw [(weathers.settles claims).2.1, ((weathers_of_completes completes).settles claims).2.1]
  refine rows_agree (p := (· ∉ late)) (closedBy_id _) (closedBy_id _) (fun d started => ?_) claimed.deliveries
  unfold closedBy
  rw [resultIn_stoppingFor, resultIn_stoppingFor, if_neg started, if_neg List.not_mem_nil]

end Rows

/-- Wherever a scan is cut, it can be brought to its end, with the scheduler stopping and without. -/
theorem CutsAt.finishes (pos : 1 ≤ n) (claims : c.Claims s batch)
    (lease : (Worker.claimEnd? c.scheduler.config c.now).isSome) (fits : ∀ d ∈ batch, c.Fits d)
    (cuts : c.CutsAt n batch s before cut) :
    (∃ after b, c.Closes n cut after b) ∧ ∃ b, c.Completes n batch s b := by
  have opens := Stands.opened (c := c) n batch s
  have filled := run_filled pos (Fleet.waiting_fill pos _) cuts
  obtain ⟨ends, stands⟩ := opens.run claims cuts
  obtain ⟨after, b, hplay, done⟩ := stands.finishes pos claims lease fits (fun k => .late k.delivery.id) (fun _ => rfl)
    filled
  obtain ⟨calm, b', hplay', done'⟩ := stands.finishes pos claims lease fits (fun k => .calm k.delivery.id)
    (fun _ => rfl) filled
  rw [play_own .late fun _ => rfl] at hplay
  rw [play_calm] at hplay'
  refine ⟨⟨after, b, hplay, done⟩, b', before ++ calm, ?_, done'⟩
  rw [List.map_append, run, List.foldlM_append]
  exact Option.bind_eq_some_iff.mpr ⟨cut, cuts, hplay'⟩

/-- Wherever in a scan the scheduler is asked to stop: the deliveries that have not started by then are never sent, and
their rows are left as they were before the scan but without a claim. All others have the rows that the scan leaves when
nobody interrupts it. -/
theorem interruption_hands_back (c : Scene) {s claimed : Store} {batch : List Delivery}
    (distinct : (s.deliveries.map (·.id)).Nodup) (call : Scan.claim c.scheduler c.now s = .ok (batch, claimed))
    {n : Nat} {before : List Uuid} {cut : Bench} (cuts : c.CutsAt n batch claimed before cut) :
    (1 ≤ n → (∀ d ∈ batch, c.Fits d) → (∃ after b, c.Closes n cut after b) ∧ ∃ clear, c.Completes n batch claimed clear) ∧
      ∀ after b, c.Closes n cut after b →
        b.store.webhooks = s.webhooks ∧ b.store.deliveries.map (·.id) = s.deliveries.map (·.id) ∧
        b.store.deliveries.filter (·.id ∉ batch.map (·.id)) = s.deliveries.filter (·.id ∉ batch.map (·.id)) ∧
        b.scan.report.released = cut.unstarted.length ∧
        (∀ d ∈ c.sent n (opened n batch claimed) (before.map .calm) ++ c.sent n cut (after.map .late),
          d.id ∉ cut.unstarted) ∧
        (∀ d ∈ s.deliveries, d.id ∈ cut.unstarted →
          { d with claimedBy := none, claimedUntil := none } ∈ b.store.deliveries) ∧
        ∀ m clear, c.Completes m batch claimed clear →
          b.store.deliveries.filter (·.id ∉ cut.unstarted) = clear.store.deliveries.filter (·.id ∉ cut.unstarted) := by
  have claims := claims_of_claim call distinct
  have opens := Stands.opened (c := c) n batch claimed
  obtain ⟨frames, till, lease, -⟩ := Store.claimDue_ok call
  obtain ⟨ends, stands⟩ := opens.run claims cuts
  refine ⟨fun pos fits => cuts.finishes pos claims (Option.isSome_iff_exists.mpr ⟨till, lease⟩) fits, ?_⟩
  intro after b closes
  have weathers := weathers_of_cut claims cuts closes
  refine ⟨?_, ?_, ?_, ?_, ?_, ?_, ?_⟩
  · exact (weathers.settles claims).1.trans frames.webhooks
  · rw [(weathers.settles claims).2.1, List.map_map, ← Store.claimDue_ids call]
    exact List.map_congr_left fun d _ => closedBy_id _ d
  · exact rows_outside call distinct weathers
  · exact released_stoppingFor claims stands weathers
  · intro d hd waits
    rcases List.mem_append.mp hd with early | later
    · obtain ⟨u, hu, same⟩ := delivery_of_sent early
      exact (run_unstarted claims opens cuts waits).2 u hu same
    · exact not_sent_late (fun k hk => waiting_of_unstarted claims stands hk) later waits
  · exact fun d hd waits => row_handedBack call distinct weathers hd (unstarted_inside stands waits) waits
  · exact fun m clear completes => rows_started call distinct weathers completes

open Sample in
/-- The parcel has started when the scheduler is asked to stop, the letter has not. -/
theorem interruption_hands_back_letter : ∃ batch claimed cut after b,
    Scan.claim scene.scheduler scene.now written = .ok (batch, claimed) ∧
      scene.CutsAt 1 batch claimed [Fleet.Sample.parcel] cut ∧ scene.Closes 1 cut after b ∧
      b.scan.report.released = 1 ∧ ∃ d ∈ b.store.deliveries, d.id = letter ∧ d.claimedBy = none := by
  obtain ⟨batch, claimed, call⟩ := claim_total (c := scene) (s := written) rfl inRange
  have opens : ((Scan.claim scene.scheduler scene.now written).toOption.bind fun r =>
      (scene.run 1 (opened 1 r.1 r.2) ([Fleet.Sample.parcel].map .calm)).map Bench.unstarted) = some [letter] := by
    unfold Scan.claim Store.claimDue
    rw [due_written]
    decide +kernel
  rw [call] at opens
  obtain ⟨cut, cuts, unstarted⟩ := Option.map_eq_some_iff.mp opens
  have distinct : (written.deliveries.map (·.id)).Nodup := by decide +kernel
  obtain ⟨closes, ends⟩ := interruption_hands_back scene distinct call cuts
  have fits : ∀ d ∈ batch, scene.Fits d := by
    intro d hd
    have stored := (claims_of_claim call distinct).stored d hd
    exact (inRange_claimed call inRange).attempts d stored.row
  obtain ⟨after, b, hb⟩ := (closes (Nat.le_refl 1) fits).1
  obtain ⟨-, -, -, released, -, rows, -⟩ := ends after b hb
  rw [unstarted] at released rows
  obtain ⟨d, hd, same⟩ : ∃ d ∈ written.deliveries, d.id = letter := by decide +kernel
  exact ⟨batch, claimed, cut, after, b, call, cuts, hb, released, _, rows d hd (by simp [same]), same, rfl⟩

end Scene

end Courier
