import Courier.Proofs.Subscriptions
set_option autoImplicit false

namespace Courier

/-- What stands in the place of a secret. It is not empty, since a new secret that is empty is refused. -/
def hidden : String := "hidden"

def Webhook.masked (w : Webhook) : Webhook := { w with secret := hidden }

def Registration.masked (r : Registration) : Registration := { r with secret := hidden }

/-- Whether there is a new secret and whether it is empty can still be seen. -/
def Amendment.masked (a : Amendment) : Amendment :=
  { a with secret := a.secret.map fun key => if key = "" then "" else hidden }

def Store.masked (s : Store) : Store := { s with webhooks := s.webhooks.map Webhook.masked }

def Worker.Stage.masked : Worker.Stage → Worker.Stage
  | .sending w => .sending w.masked
  | stage => stage

def Worker.masked (k : Worker) : Worker := { k with stage := k.stage.masked }

def Scan.masked (scan : Scan) : Scan := { scan with active := scan.active.map Worker.masked }

def Fleet.masked (f : Fleet) : Fleet := ⟨f.store.masked, fun h => (f.scans h).map Scan.masked⟩

def Act.masked : Act → Act
  | .createWebhook r id now => .createWebhook r.masked id now
  | .updateWebhook id a now => .updateWebhook id a.masked now
  | .dispatch e dueAt found ids now => .dispatch e dueAt (found.map Webhook.masked) ids now
  | a => a

/-! ### Amendments -/

namespace Amendment

theorem check_masked (a : Amendment) : a.masked.check = a.check := by
  have empty : a.masked.secret = some "" ↔ a.secret = some "" := by
    unfold masked
    cases a.secret with
    | none => simp
    | some key =>
      by_cases blank : key = ""
      · simp [blank]
      · simp [blank, hidden]
  unfold check
  simp only [empty]
  rfl

theorem isEmpty_masked (a : Amendment) : a.masked.isEmpty = a.isEmpty := by
  simp [isEmpty, masked]

theorem apply_masked {a : Amendment} (some_secret : a.secret ≠ some "") (w : Webhook) :
    (a.apply w).masked = a.masked.apply w.masked := by
  unfold apply Webhook.masked masked
  cases secret : a.secret with
  | none => simp
  | some key =>
    have full : key ≠ "" := fun blank => some_secret (by rw [secret, blank])
    simp [full]

end Amendment

/-! ### Calls to the store -/

namespace Store

variable (s : Store)

theorem whenOnline_masked {α β : Type} {x : Except Error α} {y : Except Error β} {g : α → β} (same : x.map g = y) :
    (s.whenOnline x).map g = s.masked.whenOnline y := by
  unfold whenOnline
  rw [show s.masked.online = s.online from rfl]
  split
  · exact same
  · rfl

theorem changeFirst_map {α β : Type} (g : α → β) {p : α → Bool} {q : β → Bool} {f : α → α} {k : β → β}
    (test : ∀ x, q (g x) = p x) (new : ∀ x, k (g x) = g (f x)) (xs : List α) :
    changeFirst q k (xs.map g) = (changeFirst p f xs).map (Prod.map g (List.map g)) := by
  induction xs with
  | nil => rfl
  | cons x xs ih =>
    simp only [List.map_cons, changeFirst, test, new]
    split
    · rfl
    · rw [ih]
      cases changeFirst p f xs <;> rfl

theorem createWebhook_masked (r : Registration) (id : Uuid) (now : Instant) :
    (s.createWebhook r id now).map (Prod.map Webhook.masked masked) = s.masked.createWebhook r.masked id now := by
  refine s.whenOnline_masked ?_
  have webhooks : (s.webhooks ++ [r.toWebhook id now]).map Webhook.masked =
      s.webhooks.map Webhook.masked ++ [(r.toWebhook id now).masked] := by rw [List.map_append]; rfl
  simp only [Except.map, Prod.map, masked, webhooks]
  rfl

theorem getWebhook_masked (id : Uuid) :
    (s.getWebhook id).map (Option.map Webhook.masked) = s.masked.getWebhook id := by
  refine s.whenOnline_masked ?_
  simp only [Except.map, masked, List.find?_map]
  rfl

theorem updateWebhook_masked (id : Uuid) (a : Amendment) (now : Instant) :
    (s.updateWebhook id a now).map (Prod.map Webhook.masked masked) = s.masked.updateWebhook id a.masked now := by
  unfold updateWebhook
  rw [a.check_masked]
  split
  · rfl
  · rename_i checked
    -- an amendment that passed its check gives no empty secret, which the mask would show
    have secret : a.secret ≠ some "" := (Amendment.check_ok_iff.mp checked).2.2.1
    refine s.whenOnline_masked ?_
    let new (a : Amendment) (w : Webhook) : Webhook := if a.isEmpty then w else { a.apply w with updatedAt := now }
    have amended : ∀ w, new a.masked w.masked = (new a w).masked := by
      intro w
      dsimp only [new]
      rw [a.isEmpty_masked, ← Amendment.apply_masked secret]
      split <;> rfl
    have changed :=
      changeFirst_map Webhook.masked (p := (·.id = id)) (q := (·.id = id)) (fun _ => rfl) amended s.webhooks
    dsimp only [new] at changed ⊢
    rw [show s.masked.webhooks = s.webhooks.map Webhook.masked from rfl, changed]
    cases changeFirst (·.id = id) (fun w => if a.isEmpty then w else { a.apply w with updatedAt := now }) s.webhooks with
    | none => rfl
    | some => rfl

theorem deleteWebhook_masked (id : Uuid) :
    (s.deleteWebhook id).map (Prod.map (fun b => b) masked) = s.masked.deleteWebhook id := by
  refine s.whenOnline_masked ?_
  have found : s.masked.webhooks.any (·.id = id) = s.webhooks.any (·.id = id) := List.any_map
  rw [found]
  split
  · simp only [Except.map, Prod.map, masked, List.filter_map]
    rfl
  · rfl

theorem matchingWebhooks_masked (type : String) :
    (s.matchingWebhooks type).map (List.map Webhook.masked) = s.masked.matchingWebhooks type := by
  refine s.whenOnline_masked ?_
  simp only [Except.map, masked, List.filter_map]
  rfl

theorem createDeliveries_masked (orders : List Order) (ids : Nat → Uuid) (now : Instant) :
    (s.createDeliveries orders ids now).map (Prod.map (fun ds => ds) masked) =
      s.masked.createDeliveries orders ids now := by
  refine s.whenOnline_masked ?_
  have known : ∀ id, s.masked.webhooks.any (·.id = id) = s.webhooks.any (·.id = id) := fun _ => List.any_map
  simp only [known]
  split <;> rfl

theorem claimDue_masked (now : Instant) (limit : Int) (c : Uuid) (lease : Span) :
    (s.claimDue now limit c lease).map (Prod.map (fun ds => ds) masked) = s.masked.claimDue now limit c lease := by
  refine s.whenOnline_masked ?_
  cases now.add? lease <;> rfl

theorem renewClaim_masked (id c : Uuid) (till : Instant) :
    (s.renewClaim id c till).map (Prod.map (fun b => b) masked) = s.masked.renewClaim id c till := by
  refine s.whenOnline_masked ?_
  dsimp only [masked]
  cases changeFirst (isHeld id c) (·.apply (.claim c till)) s.deliveries <;> rfl

theorem releaseClaim_masked (id c : Uuid) :
    (s.releaseClaim id c).map (Prod.map (fun b => b) masked) = s.masked.releaseClaim id c := by
  refine s.whenOnline_masked ?_
  dsimp only [masked]
  cases changeFirst (isHeld id c) (·.apply .release) s.deliveries <;> rfl

theorem completeAttempt_masked (id c : Uuid) (change : Change) :
    (s.completeAttempt id c change).map (Prod.map (fun d => d) masked) = s.masked.completeAttempt id c change := by
  refine s.whenOnline_masked ?_
  dsimp only [masked]
  cases changeFirst (fun d => isHeld id c d && d.status = .pending) (·.apply change) s.deliveries <;> rfl

theorem releaseExpired_masked (now : Instant) :
    (s.releaseExpired now).map (Prod.map (fun n => n) masked) = s.masked.releaseExpired now :=
  s.whenOnline_masked rfl

theorem retryDelivery_masked (id : Uuid) (now : Instant) :
    (s.retryDelivery id now).map (Prod.map (fun d => d) masked) = s.masked.retryDelivery id now := by
  refine s.whenOnline_masked ?_
  dsimp only [masked]
  cases s.deliveries.find? (·.id = id) with
  | none => rfl
  | some d =>
    dsimp only
    split
    · cases changeFirst (·.id = id) (·.apply (.manualRetry now)) s.deliveries <;> rfl
    · rfl

theorem cleanupOld_masked (cutoff : Instant) :
    (s.cleanupOld cutoff).map (Prod.map (fun n => n) masked) = s.masked.cleanupOld cutoff :=
  s.whenOnline_masked rfl

end Store

/-! ### Dispatches -/

namespace Dispatch

theorem orders_masked (e : Event) (dueAt : Instant) (found : List Webhook) :
    orders e dueAt (found.map Webhook.masked) = orders e dueAt found := by
  unfold orders
  dsimp only
  rw [List.mapM_map]
  rfl

theorem write_masked (s : Store) (e : Event) (dueAt : Instant) (found : List Webhook) (ids : Nat → Uuid)
    (now : Instant) : (write s e dueAt found ids now).map (Prod.map (fun ds => ds) Store.masked) =
      write s.masked e dueAt (found.map Webhook.masked) ids now := by
  unfold write
  rw [orders_masked, List.isEmpty_map]
  split
  · rfl
  · split
    · rfl
    · rename_i os _
      rw [← Store.createDeliveries_masked]
      cases s.createDeliveries os ids now <;> rfl

theorem targets_masked (s : Store) (e : Event) :
    (targets s e).map (List.map Webhook.masked) = targets s.masked e := by
  unfold targets
  split
  · rfl
  · rw [← Store.matchingWebhooks_masked]
    cases s.matchingWebhooks e.type <;> rfl

theorem run_masked (s : Store) (e : Event) (dueAt : Instant) (ids : Nat → Uuid) (now : Instant) :
    (run s e dueAt ids now).map (Prod.map (fun ds => ds) Store.masked) = run s.masked e dueAt ids now := by
  unfold run
  rw [← targets_masked]
  cases targets s e with
  | error => rfl
  | ok found => exact write_masked s e dueAt found ids now

end Dispatch

/-! ### Workers -/

namespace Worker

variable (sch : Scheduler) (d : Delivery) (s : Store)

theorem start_masked (stopping : Bool) (now : Instant) :
    (start sch d stopping now s).map (Prod.map Stage.masked Store.masked) = start sch d stopping now s.masked := by
  unfold start
  split
  · rw [← s.releaseClaim_masked]
    cases s.releaseClaim d.id sch.id <;> rfl
  · split
    · rfl
    · rename_i till _
      rw [← s.renewClaim_masked]
      rcases s.renewClaim d.id sch.id till with e | ⟨_ | _, t⟩ <;> rfl

theorem judge_masked (w : Option Webhook) : (judge sch d w).masked = judge sch d (w.map Webhook.masked) := by
  unfold judge
  cases w with
  | none => rfl
  | some w =>
    dsimp only [Option.map_some]
    rw [show w.masked.active = w.active from rfl]
    split
    · rfl
    · split <;> rfl

theorem look_masked (id : Uuid) :
    (look sch d (s.getWebhook id)).masked = look sch d (s.masked.getWebhook id) := by
  rw [← s.getWebhook_masked]
  cases s.getWebhook id with
  | error => rfl
  | ok w => exact judge_masked sch d w

theorem answer_masked {o : Outcome} {now : Instant} {stage : Stage} (ok : answer sch d o now = .ok stage) :
    stage.masked = stage := by
  unfold answer at ok
  cases hc : Change.afterAttempt d.attempts o sch.config.policy now with
  | error =>
    rw [hc] at ok
    cases ok
  | ok c =>
    rw [hc] at ok
    cases ok
    rfl

theorem report_masked (change : Change) :
    Prod.map Stage.masked Store.masked (report sch d change s) = report sch d change s.masked := by
  unfold report
  rw [← s.completeAttempt_masked]
  rcases s.completeAttempt d.id sch.id change with e | ⟨_ | d, t⟩ <;> rfl

end Worker

/-! ### Scans and fleets -/

namespace Scan

theorem fill_masked (scan : Scan) (n : Nat) : (scan.fill n).masked = scan.masked.fill n := by
  unfold fill masked
  simp only [List.map_append, List.map_map, List.length_map]
  rfl

theorem advance_masked (scan : Scan) (n : Nat) (others : List Worker) (d : Delivery) (stage : Worker.Stage) :
    (scan.advance n others d stage).masked =
      scan.masked.advance n (others.map Worker.masked) d stage.masked := by
  cases stage with
  | done => exact fill_masked _ n
  | waiting | renewed | sending | reporting =>
    unfold advance masked Worker.Stage.masked
    simp only [List.map_append]
    rfl

end Scan

namespace Fleet

variable (crew : Crew) (f : Fleet)

theorem active?_masked (h id : Uuid) : f.masked.active? h id = (f.active? h id).map Worker.masked := by
  unfold active?
  rw [show f.masked.scans h = (f.scans h).map Scan.masked from rfl]
  cases f.scans h with
  | none => rfl
  | some scan => exact List.find?_map

theorem setScan_masked (h : Uuid) (scan : Option Scan) :
    (f.setScan h scan).masked = f.masked.setScan h (scan.map Scan.masked) := by
  unfold setScan masked
  congr 1
  funext g
  by_cases same : g = h
  · subst same
    simp only [Function.update_self]
  · simp only [Function.update_of_ne same]

theorem moved_masked (h : Uuid) (d : Delivery) (stage : Worker.Stage) :
    (f.moved crew h d stage).masked = f.masked.moved crew h d stage.masked := by
  unfold moved
  rw [show f.masked.scans h = (f.scans h).map Scan.masked from rfl]
  cases f.scans h with
  | none => rfl
  | some scan =>
    have others : (scan.active.eraseP (·.delivery.id = d.id)).map Worker.masked =
        scan.masked.active.eraseP (·.delivery.id = d.id) := by
      unfold Scan.masked
      rw [List.eraseP_map]
      rfl
    dsimp only [Option.map_some]
    rw [setScan_masked, Option.map_some, Scan.advance_masked, others]

theorem wrote_masked {ε α β : Type} {x : Except ε (α × Store)} {y : Except ε (β × Store)} {g : α → β}
    (same : x.map (Prod.map g Store.masked) = y) : (f.wrote x).masked = f.masked.wrote y := by
  rw [← same]
  cases x <;> rfl

theorem start_step_masked (h id : Uuid) (stopping : Bool) (now : Instant) :
    (f.step crew (.start h id stopping now)).masked = f.masked.step crew (.start h id stopping now) := by
  dsimp only [step]
  rw [active?_masked]
  cases f.active? h id with
  | none => rfl
  | some k =>
    obtain ⟨d, stage⟩ := k
    cases stage with
    | waiting =>
      dsimp only [Option.map_some, Worker.masked, Worker.Stage.masked]
      rw [show f.masked.store = f.store.masked from rfl, ← Worker.start_masked]
      rcases Worker.start (crew.scheduler h) d stopping now f.store with e | ⟨stage, t⟩
      · exact setScan_masked f h none
      · exact moved_masked crew { f with store := t } h d stage
    | renewed | sending | reporting | done => rfl

theorem look_step_masked (h id : Uuid) :
    (f.step crew (.look h id)).masked = f.masked.step crew (.look h id) := by
  dsimp only [step]
  rw [active?_masked]
  cases f.active? h id with
  | none => rfl
  | some k =>
    obtain ⟨d, stage⟩ := k
    cases stage with
    | renewed =>
      change _ = f.masked.moved crew h d (Worker.look (crew.scheduler h) d (f.store.masked.getWebhook d.webhookId))
      rw [← Worker.look_masked]
      exact moved_masked crew f h d _
    | waiting | sending | reporting | done => rfl

theorem answer_step_masked (h id : Uuid) (o : Outcome) (now : Instant) :
    (f.step crew (.answer h id o now)).masked = f.masked.step crew (.answer h id o now) := by
  dsimp only [step]
  rw [active?_masked]
  cases f.active? h id with
  | none => rfl
  | some k =>
    obtain ⟨d, stage⟩ := k
    cases stage with
    | sending w =>
      dsimp only [Option.map_some, Worker.masked, Worker.Stage.masked]
      cases answered : Worker.answer (crew.scheduler h) d o now with
      | error => exact setScan_masked f h none
      | ok stage =>
        have moved := moved_masked crew f h d stage
        rwa [Worker.answer_masked _ _ answered] at moved
    | waiting | renewed | reporting | done => rfl

theorem report_step_masked (h id : Uuid) :
    (f.step crew (.report h id)).masked = f.masked.step crew (.report h id) := by
  dsimp only [step]
  rw [active?_masked]
  cases f.active? h id with
  | none => rfl
  | some k =>
    obtain ⟨d, stage⟩ := k
    cases stage with
    | reporting change =>
      have reported := Worker.report_masked (crew.scheduler h) d f.store change
      have moved := moved_masked crew { f with store := (Worker.report (crew.scheduler h) d change f.store).2 } h d
        (Worker.report (crew.scheduler h) d change f.store).1
      refine moved.trans ?_
      change _ = Fleet.moved crew
        { f.masked with store := (Worker.report (crew.scheduler h) d change f.store.masked).2 } h d
        (Worker.report (crew.scheduler h) d change f.store.masked).1
      rw [← reported]
      rfl
    | waiting | renewed | sending | done => rfl

theorem scan_step_masked (h : Uuid) (now : Instant) :
    (f.step crew (.scan h now)).masked = f.masked.step crew (.scan h now) := by
  have idle : (f.masked.scans h).all Scan.isDone = (f.scans h).all Scan.isDone := by
    rw [show f.masked.scans h = (f.scans h).map Scan.masked from rfl]
    cases f.scans h with
    | none => rfl
    | some scan => simp [Scan.isDone, Scan.masked]
  dsimp only [step]
  rw [idle]
  split
  · have claimed := Store.claimDue_masked f.store now (crew.scheduler h).config.batchSize.val (crew.scheduler h).id
      (crew.scheduler h).config.lease
    unfold Scan.claim
    rw [show f.masked.store = f.store.masked from rfl, ← claimed]
    rcases f.store.claimDue now (crew.scheduler h).config.batchSize.val (crew.scheduler h).id
      (crew.scheduler h).config.lease with e | ⟨batch, t⟩
    · rfl
    · refine (setScan_masked { f with store := t } h _).trans ?_
      rw [Option.map_some, Scan.fill_masked]
      rfl
  · rfl

/-- An action on a masked fleet, with its own secrets masked, comes to the same as the action masked afterwards. -/
theorem step_masked (a : Act) : (f.step crew a).masked = f.masked.step crew a.masked := by
  cases a with
  | createWebhook r id now => exact f.wrote_masked (f.store.createWebhook_masked r id now)
  | updateWebhook id a now => exact f.wrote_masked (f.store.updateWebhook_masked id a now)
  | setActive id active now => exact f.wrote_masked (f.store.updateWebhook_masked id { active := some active } now)
  | deleteWebhook id => exact f.wrote_masked (f.store.deleteWebhook_masked id)
  | dispatch e dueAt found ids now => exact f.wrote_masked (Dispatch.write_masked f.store e dueAt found ids now)
  | retry id now => exact f.wrote_masked (f.store.retryDelivery_masked id now)
  | cleanup cutoff => exact f.wrote_masked (f.store.cleanupOld_masked cutoff)
  | switch online => rfl
  | sweep now => exact f.wrote_masked (f.store.releaseExpired_masked now)
  | claimByHand now limit claimer lease => exact f.wrote_masked (f.store.claimDue_masked now limit claimer lease)
  | renewByHand id claimer till => exact f.wrote_masked (f.store.renewClaim_masked id claimer till)
  | releaseByHand id claimer => exact f.wrote_masked (f.store.releaseClaim_masked id claimer)
  | scan h now => exact scan_step_masked crew f h now
  | start h id stopping now => exact start_step_masked crew f h id stopping now
  | look h id => exact look_step_masked crew f h id
  | answer h id o now => exact answer_step_masked crew f h id o now
  | report h id => exact report_step_masked crew f h id
  | abandon h => exact setScan_masked f h none

theorem run_masked (acts : List Act) : (f.run crew acts).masked = f.masked.run crew (acts.map Act.masked) := by
  induction acts generalizing f with
  | nil => rfl
  | cons a acts ih =>
    rw [List.map_cons]
    change (run crew (f.step crew a) acts).masked = run crew (f.masked.step crew a.masked) (acts.map Act.masked)
    rw [ih, step_masked]

end Fleet

end Courier
