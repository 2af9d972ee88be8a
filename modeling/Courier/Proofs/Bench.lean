import Courier.Proofs.Reports
import Courier.Proofs.Scene
set_option autoImplicit false

/-!
# A scan with nobody else about

On a bench the workers of one scan take turns in any order in which there is room for them. However the turns are
ordered, the rows of those who came to their end are closed and all other rows are as they were claimed.
-/

namespace Courier

namespace Scene

variable {c : Scene} {ws : List Webhook} {s t : Store} {d : Delivery} {next : Worker.Stage} {stopping : Bool}

/-- Whose turn it is, and how the worker finds the scheduler and the store. -/
structure Turn where
  delivery : Uuid
  stopping : Bool
  online : Bool
  deriving DecidableEq

def Turn.calm (id : Uuid) : Turn := ⟨id, false, true⟩

structure Bench where
  scan : Scan
  store : Store

variable (c) in
def closed (ws : List Webhook) (ends : List (Delivery × Worker.Result)) (d : Delivery) : Delivery :=
  ((ends.find? (·.1.id = d.id)).map fun e => c.close ws e.1 e.2).getD d

variable (c) in
/-- One turn of a scan with so much room; none if it is nobody's turn or a date does not exist. -/
def step (n : Nat) (b : Bench) (t : Turn) : Option Bench :=
  (b.scan.turn? t.delivery).bind fun k =>
    (c.turn k t.stopping (b.store.setOnline t.online)).map fun r => ⟨b.scan.moved n k.delivery r.1, r.2⟩

variable (c) in
def run (n : Nat) (b : Bench) (ts : List Turn) : Option Bench := ts.foldlM (c.step n) b

def opened (n : Nat) (batch : List Delivery) (s : Store) : Bench := ⟨(Scan.ofBatch batch).fill n, s⟩

variable (c) in
structure Claims (s : Store) (batch : List Delivery) : Prop where
  distinct : (s.deliveries.map (·.id)).Nodup
  ids : (batch.map (·.id)).Nodup
  stored : ∀ d ∈ batch, c.Has s d

variable (c) in
/-- Where a scan stands after some turns; `ends` says which workers came to their end, and how, in this order. -/
structure Stands (s : Store) (batch : List Delivery) (ts : List Turn) (ends : List (Delivery × Worker.Result))
    (b : Bench) : Prop where
  webhooks : b.store.webhooks = s.webhooks
  rows : b.store.deliveries = s.deliveries.map (c.closed s.webhooks ends)
  parts : (ends.map (·.1) ++ b.scan.unfinished.map (·.delivery)).Perm batch
  course : ∀ k ∈ b.scan.unfinished, c.OnCourse s.webhooks k
  results : b.scan.results = ends.map (·.2)
  claimed : b.scan.claimed = batch.length
  ended : ∀ e ∈ ends, ∃ t ∈ ts, t.delivery = e.1.id ∧ c.Ends s.webhooks e.1 t.stopping t.online e.2
  online : s.online = true → (∀ t ∈ ts, t.online = true) → b.store.online = true

variable {n : Nat} {batch : List Delivery} {ts : List Turn} {ends : List (Delivery × Worker.Result)} {b b' : Bench}
  {tn : Turn}

/-- A turn moves the worker whose turn it is, and nobody else. -/
theorem step_ok (h : c.step n b tn = some b') : ∃ k next t, b.scan.turn? tn.delivery = some k ∧
    c.turn k tn.stopping (b.store.setOnline tn.online) = some (next, t) ∧ b' = ⟨b.scan.moved n k.delivery next, t⟩ := by
  obtain ⟨k, turn, hmap⟩ := Option.bind_eq_some_iff.mp h
  obtain ⟨⟨next, t⟩, hturn, rfl⟩ := Option.map_eq_some_iff.mp hmap
  exact ⟨k, next, t, turn, hturn, rfl⟩

theorem step_unfinished (h : c.step n b tn = some b') : ∃ k next t, b.scan.turn? tn.delivery = some k ∧
    c.turn k tn.stopping (b.store.setOnline tn.online) = some (next, t) ∧
    ∃ rest, b.scan.unfinished.Perm (k :: rest) ∧
      b'.scan.unfinished.Perm ((if next.isOver then [] else [⟨k.delivery, next⟩]) ++ rest) := by
  obtain ⟨k, next, t, turn, hturn, rfl⟩ := step_ok h
  exact ⟨k, next, t, turn, hturn, Scan.unfinished_moved turn n next⟩

theorem closed_id (d : Delivery) : (c.closed ws ends d).id = d.id := by
  unfold closed
  cases hfind : ends.find? (·.1.id = d.id) with
  | none => rfl
  | some e =>
    exact (close_id _ _).trans (by simpa using List.find?_some hfind)

theorem closed_open (apart : ∀ e ∈ ends, e.1.id ≠ d.id) : c.closed ws ends d = d := by
  have unfound : ends.find? (·.1.id = d.id) = none := by
    rw [List.find?_eq_none]
    intro e he
    simpa using apart e he
  simp [closed, unfound]

theorem closed_concat (apart : ∀ e ∈ ends, e.1.id ≠ d.id) (r : Worker.Result) (x : Delivery) :
    c.closed ws (ends ++ [(d, r)]) x = if x.id = d.id then c.close ws d r else c.closed ws ends x := by
  unfold closed
  rw [List.find?_append]
  by_cases same : d.id = x.id
  · have unfound : ends.find? (·.1.id = x.id) = none := by
      rw [List.find?_eq_none]
      intro e he
      simpa [same] using apart e he
    simp [unfound, same]
  · have other : ¬ x.id = d.id := fun h => same h.symm
    simp [same, other]

namespace Stands

theorem distinct (claims : c.Claims s batch) (stands : c.Stands s batch ts ends b) :
    (b.store.deliveries.map (·.id)).Nodup := by
  have ids : b.store.deliveries.map (·.id) = s.deliveries.map (·.id) := by
    rw [stands.rows, List.map_map]
    exact List.map_congr_left fun d _ => closed_id d
  rw [ids]
  exact claims.distinct

/-- Every delivery of the batch has one worker, under way or at its end. -/
theorem ids (claims : c.Claims s batch) (stands : c.Stands s batch ts ends b) :
    (ends.map (·.1.id) ++ b.scan.unfinished.map (·.delivery.id)).Nodup := by
  have ids := (stands.parts.map (·.id)).nodup_iff.mpr claims.ids
  rwa [List.map_append, List.map_map, List.map_map] at ids

theorem apart (claims : c.Claims s batch) (stands : c.Stands s batch ts ends b) {k : Worker}
    (hk : k ∈ b.scan.unfinished) : ∀ e ∈ ends, e.1.id ≠ k.delivery.id := by
  intro e he
  have ended : e.1.id ∈ ends.map (·.1.id) := List.mem_map_of_mem he
  have going : k.delivery.id ∈ b.scan.unfinished.map (·.delivery.id) := List.mem_map_of_mem hk
  exact (List.nodup_append.mp (stands.ids claims)).2.2 _ ended _ going

/-- The row of a delivery whose worker has not come to its end is as it was claimed. -/
theorem has (claims : c.Claims s batch) (stands : c.Stands s batch ts ends b) {k : Worker}
    (hk : k ∈ b.scan.unfinished) (online : Bool) : c.Has (b.store.setOnline online) k.delivery := by
  have member : k.delivery ∈ batch :=
    stands.parts.mem_iff.mp (List.mem_append_right _ (List.mem_map_of_mem hk))
  have stored := claims.stored _ member
  have row : k.delivery ∈ b.store.deliveries := by
    rw [stands.rows]
    exact List.mem_map.mpr ⟨_, stored.row, closed_open (stands.apart claims hk)⟩
  exact { stored with row }

theorem leads (claims : c.Claims s batch) (stands : c.Stands s batch ts ends b) {k : Worker}
    (hk : k ∈ b.scan.unfinished) {online : Bool}
    (h : c.turn k stopping (b.store.setOnline online) = some (next, t)) :
    c.Leads (b.store.setOnline online) k.delivery stopping next t := by
  refine turn_leads (stands.distinct claims) (stands.has claims hk online) ?_ h
  have course := stands.course k hk
  rwa [← stands.webhooks] at course

theorem opened (n : Nat) (batch : List Delivery) (s : Store) :
    c.Stands s batch [] [] (opened n batch s) where
  webhooks := rfl
  rows := (List.map_id s.deliveries).symm
  parts := by
    change (([] : List Delivery) ++ (Scan.fill (.ofBatch batch) n).unfinished.map (·.delivery)).Perm batch
    rw [Scan.unfinished_fill, Scan.unfinished_ofBatch, List.map_map]
    exact .of_eq (List.map_id batch)
  course k hk := by
    change k ∈ (Scan.fill (.ofBatch batch) n).unfinished at hk
    rw [Scan.unfinished_fill, Scan.unfinished_ofBatch] at hk
    obtain ⟨d, -, rfl⟩ := List.mem_map.mp hk
    exact trivial
  results := rfl
  claimed := rfl
  ended e he := by cases he
  online reach _ := reach

/-- Where a scan stands after the turn of a worker; it ends with the turn or goes on. -/
theorem moved (claims : c.Claims s batch) (stands : c.Stands s batch ts ends b) {k : Worker}
    (turn : b.scan.turn? tn.delivery = some k)
    (hturn : c.turn k tn.stopping (b.store.setOnline tn.online) = some (next, t)) :
    c.Stands s batch (ts ++ [tn]) (ends ++ next.result?.toList.map (k.delivery, ·))
      ⟨b.scan.moved n k.delivery next, t⟩ := by
  have hk := Scan.mem_of_turn turn
  have apart := stands.apart claims hk
  have ended : ∀ e ∈ ends, ∃ u ∈ ts ++ [tn], u.delivery = e.1.id ∧ c.Ends s.webhooks e.1 u.stopping u.online e.2 := by
    intro e he
    obtain ⟨u, hu, about⟩ := stands.ended e he
    exact ⟨u, List.mem_append_left _ hu, about⟩
  have reach : (∀ u ∈ ts ++ [tn], u.online = true) → tn.online = true := fun all =>
    all tn (List.mem_append_right _ List.mem_cons_self)
  have claimed : (b.scan.moved n k.delivery next).claimed = batch.length :=
    (Scan.claimed_moved _ _ _ _).trans stands.claimed
  have results := Scan.results_moved b.scan n k.delivery next
  obtain ⟨rest, before, after⟩ := Scan.unfinished_moved turn n next
  have parts := (((before.map (·.delivery)).append_left (ends.map (·.1))).symm.trans stands.parts)
  have others : ∀ j ∈ rest, c.OnCourse s.webhooks j := fun j hj =>
    stands.course j (before.mem_iff.mpr (List.mem_cons_of_mem _ hj))
  cases stands.leads claims hk hturn with
  | goesOn course =>
    rw [show (b.store.setOnline tn.online).webhooks = s.webhooks from stands.webhooks] at course
    have going : next.isOver = false ∧ next.result? = none := by
      cases next with
      | done => exact course.elim
      | waiting | renewed | sending | reporting => exact ⟨rfl, rfl⟩
    rw [going.1] at after
    rw [going.2] at results ⊢
    rw [show ends ++ (none : Option Worker.Result).toList.map (k.delivery, ·) = ends from List.append_nil ends]
    refine ⟨stands.webhooks, stands.rows, ?_, ?_, ?_, claimed, ended, fun _ all => reach all⟩
    · exact ((after.map (·.delivery)).append_left _).trans parts
    · intro j hj
      rcases List.mem_cons.mp (after.mem_iff.mp hj) with rfl | hj
      · exact course
      · exact others j hj
    · exact results.trans ((List.append_nil _).trans stands.results)
  | @ends r how =>
    rw [show (b.store.setOnline tn.online).webhooks = s.webhooks from stands.webhooks] at how ⊢
    change c.Stands s batch (ts ++ [tn]) (ends ++ [(k.delivery, r)]) _
    refine ⟨stands.webhooks, ?_, ?_, ?_, ?_, claimed, ?_, fun _ all => reach all⟩
    · change (b.store.deliveries.map fun x => if x.id = k.delivery.id then _ else x) = _
      rw [stands.rows, List.map_map]
      refine List.map_congr_left fun x _ => ?_
      simp only [Function.comp_apply, closed_id, closed_concat apart]
    · rw [List.map_append, List.append_assoc]
      exact ((after.map (·.delivery)).cons k.delivery).append_left _ |>.trans parts
    · intro j hj
      exact others j (after.mem_iff.mp hj)
    · rw [List.map_append, ← stands.results]
      exact results
    · intro e he
      rcases List.mem_append.mp he with old | new
      · exact ended e old
      · obtain rfl := List.mem_singleton.mp new
        exact ⟨tn, List.mem_append_right _ List.mem_cons_self, (Scan.id_of_turn turn).symm, how⟩

theorem step (claims : c.Claims s batch) (stands : c.Stands s batch ts ends b) (h : c.step n b tn = some b') :
    ∃ ends', c.Stands s batch (ts ++ [tn]) ends' b' := by
  obtain ⟨k, next, t, turn, hturn, rfl⟩ := step_ok h
  exact ⟨_, stands.moved claims turn hturn⟩

theorem run (claims : c.Claims s batch) {more : List Turn} (stands : c.Stands s batch ts ends b)
    (h : c.run n b more = some b') : ∃ ends', c.Stands s batch (ts ++ more) ends' b' := by
  induction more generalizing ts ends b with
  | nil =>
    cases h
    exact ⟨ends, (List.append_nil ts).symm ▸ stands⟩
  | cons u more ih =>
    obtain ⟨next, hstep, hrest⟩ := Option.bind_eq_some_iff.mp h
    obtain ⟨ends', stands'⟩ := stands.step claims hstep
    obtain ⟨ends'', stands''⟩ := ih stands' hrest
    rw [List.append_assoc] at stands''
    exact ⟨ends'', stands''⟩

end Stands

/-! ### Runs that come to their end -/

variable (c) in
/-- The scan of a batch with so much room comes to its end here, in some order of turns with nothing in the way. -/
def Completes (n : Nat) (batch : List Delivery) (s : Store) (b : Bench) : Prop :=
  ∃ ids : List Uuid, c.run n (opened n batch s) (ids.map .calm) = some b ∧ b.scan.isDone = true

variable (c) in
/-- All dates that deliveries of the store lead to exist. -/
structure InRange (s : Store) : Prop where
  lease : (Worker.claimEnd? c.scheduler.config c.now).isSome
  attempts : ∀ d ∈ s.deliveries, d.attempts.val < c.scheduler.config.policy.maxAttempts.val →
    ∀ o, ∃ change, Change.afterAttempt d.attempts o c.scheduler.config.policy c.now = .ok change

variable (c) in
/-- Whatever an attempt for the delivery comes to, the dates that it leads to exist. -/
def Fits (d : Delivery) : Prop :=
  d.attempts.val < c.scheduler.config.policy.maxAttempts.val →
    ∀ o, ∃ change, Change.afterAttempt d.attempts o c.scheduler.config.policy c.now = .ok change

theorem turn_total {k : Worker} (lease : (Worker.claimEnd? c.scheduler.config c.now).isSome) (fits : c.Fits k.delivery)
    (course : c.OnCourse ws k) (stopping : Bool) (t : Store) : ∃ r, c.turn k stopping t = some r := by
  obtain ⟨d, stage⟩ := k
  cases stage with
  | waiting =>
    obtain ⟨stage, u, started⟩ := Worker.start_total c.scheduler d stopping lease t
    exact ⟨_, toOption_eq_some.mpr started⟩
  | renewed => exact ⟨_, rfl⟩
  | sending w =>
    have below : d.attempts.val < c.scheduler.config.policy.maxAttempts.val := by
      rcases judge_cases c ws d with ⟨_, _, below⟩ | ⟨reason, hjudge⟩
      · exact below
      · cases course.symm.trans hjudge
    obtain ⟨change, hchange⟩ := fits below (c.receiver d w)
    refine ⟨(.reporting change, t), ?_⟩
    have answered : Worker.answer c.scheduler d (c.receiver d w) c.now = .ok (.reporting change) := by
      rw [Worker.answer, hchange]
      rfl
    simp [turn, answered, Except.toOption]
  | reporting change => exact ⟨_, rfl⟩
  | done => exact course.elim

def Bench.left (b : Bench) : Nat := (b.scan.unfinished.map (·.stage.left)).sum

theorem step_left (h : c.step n b tn = some b') : b'.left < b.left := by
  obtain ⟨k, stage, t, -, hturn, rest, before, after⟩ := step_unfinished h
  have less := turn_left hturn
  have old : b.left = k.stage.left + (rest.map (·.stage.left)).sum := (before.map _).sum_eq
  have new := (after.map (·.stage.left)).sum_eq
  rw [List.map_append, List.sum_append] at new
  have own : ((if stage.isOver then [] else [(⟨k.delivery, stage⟩ : Worker)]).map (·.stage.left)).sum ≤ stage.left := by
    split <;> simp
  unfold Bench.left at old ⊢
  omega

theorem step_filled (pos : 1 ≤ n) (h : c.step n b tn = some b') (idle : b'.scan.active = []) :
    b'.scan.waiting = [] := by
  obtain ⟨k, next, t, -, -, rfl⟩ := step_ok h
  exact Fleet.waiting_advance pos _ _ _ _ idle

variable (c) in
def prompt (n : Nat) (turn : Worker → Turn) (b : Bench) (id : Uuid) : Option Bench :=
  (b.scan.turn? id).bind fun k => c.step n b (turn k)

variable (c) in
def play (n : Nat) (turn : Worker → Turn) (b : Bench) (ids : List Uuid) : Option Bench :=
  ids.foldlM (c.prompt n turn) b

section Own

variable (turn : Uuid → Turn) (own : ∀ id, (turn id).delivery = id)
include own

theorem prompt_own (b : Bench) (id : Uuid) :
    c.prompt n (fun k => turn k.delivery.id) b id = c.step n b (turn id) := by
  unfold prompt step
  rw [own]
  cases next : b.scan.turn? id with
  | none => rfl
  | some k =>
    rw [Option.bind_some, Option.bind_some]
    dsimp only
    rw [Scan.id_of_turn next, own, next, Option.bind_some]

/-- Where turns are given by the delivery alone, a play is a run. -/
theorem play_own (b : Bench) (ids : List Uuid) :
    c.play n (fun k => turn k.delivery.id) b ids = c.run n b (ids.map turn) := by
  unfold play run
  rw [List.foldlM_map, show c.prompt n (fun k => turn k.delivery.id) = fun b id => c.step n b (turn id) from
    funext fun b => funext (prompt_own turn own b)]

end Own

theorem play_calm (b : Bench) (ids : List Uuid) :
    c.play n (fun k => .calm k.delivery.id) b ids = c.run n b (ids.map .calm) :=
  play_own .calm (fun _ => rfl) b ids

/-- While there is room for a worker the scan can be brought to its end, whatever the workers find. -/
theorem Stands.finishes (pos : 1 ≤ n) (claims : c.Claims s batch)
    (lease : (Worker.claimEnd? c.scheduler.config c.now).isSome) (fits : ∀ d ∈ batch, c.Fits d)
    (turn : Worker → Turn) (own : ∀ k, (turn k).delivery = k.delivery.id)
    (stands : c.Stands s batch ts ends b) (filled : b.scan.active = [] → b.scan.waiting = []) :
    ∃ (ids : List Uuid) (b' : Bench), c.play n turn b ids = some b' ∧ b'.scan.isDone = true := by
  induction hleft : b.left using Nat.strong_induction_on generalizing ts ends b with
  | _ m ih =>
    cases hactive : b.scan.active with
    | nil =>
      refine ⟨[], b, rfl, b.scan.isDone_iff.mpr ?_⟩
      rw [Scan.unfinished, hactive, filled hactive]
      rfl
    | cons k rest =>
      have next : b.scan.turn? k.delivery.id = some k := by
        rw [Scan.turn?, hactive]
        exact List.find?_cons_of_pos (by simp)
      have hk := Scan.mem_of_turn next
      have member : k.delivery ∈ batch :=
        stands.parts.mem_iff.mp (List.mem_append_right _ (List.mem_map_of_mem hk))
      obtain ⟨r, hr⟩ := turn_total lease (fits _ member) (stands.course k hk) (turn k).stopping
        (b.store.setOnline (turn k).online)
      have hstep : c.step n b (turn k) = some ⟨b.scan.moved n k.delivery r.1, r.2⟩ := by
        unfold Scene.step
        rw [own, next]
        exact Option.map_eq_some_iff.mpr ⟨r, hr, rfl⟩
      obtain ⟨ends', stands'⟩ := stands.step claims hstep
      have less := step_left hstep
      rw [hleft] at less
      obtain ⟨ids, b', hrun, done⟩ := ih _ less stands' (step_filled pos hstep) rfl
      refine ⟨k.delivery.id :: ids, b', ?_, done⟩
      refine Option.bind_eq_some_iff.mpr ⟨_, ?_, hrun⟩
      rw [prompt, next, Option.bind_some, hstep]

/-- The scan can be brought to its end with nothing in the way. -/
theorem Stands.completes (pos : 1 ≤ n) (claims : c.Claims s batch) (dates : c.InRange s)
    (stands : c.Stands s batch ts ends b) (filled : b.scan.active = [] → b.scan.waiting = []) :
    ∃ (ids : List Uuid) (b' : Bench), c.run n b (ids.map .calm) = some b' ∧ b'.scan.isDone = true := by
  have fits : ∀ d ∈ batch, c.Fits d := fun d hd => dates.attempts d (claims.stored d hd).row
  obtain ⟨ids, b', hplay, done⟩ := stands.finishes pos claims dates.lease fits
    (fun k => .calm k.delivery.id) (fun _ => rfl) filled
  rw [play_calm] at hplay
  exact ⟨ids, b', hplay, done⟩

end Scene

end Courier
