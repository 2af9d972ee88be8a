import Courier.Proofs.Desk
set_option autoImplicit false

/-!
# Who looks after a claim

Every delivery that a scheduler holds in the store is in the hands of somebody who is going to give it back: the loop,
or who stops the scheduler. The exceptions are those that it lost sight of, by a call that failed, by a loop that broke
down or by a claim whose answer nobody took in.
-/

namespace Courier

namespace Desk

variable {sch : Scheduler} {k : Desk} {lost more : List Uuid} {s t : Store}

/-! ### What the scheduler loses sight of -/

def fallen (k next : Desk) : List Uuid := if k.loop.isOver = false ∧ next.loop.isOver then k.held else []

/-- The deliveries that nobody looks after any more once this happened. -/
def loses (sch : Scheduler) (k : Desk) : Happening → List Uuid
  | .runClaim =>
    match k.loop with
    | .halted (some now) _ => ((Scan.claim sch now k.store).toOption.map fun r => r.1.map (·.id)).getD []
    | _ => []
  | .run id => if ((k.call? id).bind Line.handed?).isSome ∧ k.store.online = false then [id] else []
  | .hand id now => k.fallen (k.step sch (.hand id now))
  | .answer id outcome now => k.fallen (k.step sch (.answer id outcome now))
  | .breakDown => k.fallen (k.step sch .breakDown)
  | .giveUp =>
    match k.stop, k.loop with
    | .asked, .claimed (.ok batch) => batch.map (·.id)
    | _, _ => []
  | .release id => if k.store.online then [] else [id]
  | _ => []

/-- The deliveries that the scheduler lost sight of while all this happened. -/
def strays (sch : Scheduler) (k : Desk) : List Happening → List Uuid
  | [] => []
  | e :: es => k.loses sch e ++ (k.step sch e).strays sch es

/-! ### What the scheduler looks after -/

def Loop.custody (held : List Uuid) : Loop → List Uuid
  | claimed (.ok batch) => batch.map (·.id)
  | scanning _ _ => held
  | _ => []

def Stop.custody : Stop → List Uuid
  | releasing ids => ids
  | _ => []

def Line.Fits (h : Uuid) (s : Store) (lost : List Uuid) (id : Uuid) : Line → Prop
  | handed e => e.delivery.id = id ∧ e.LetsGo
  | answered stage => stage.LetsGo ∧ ∀ r, stage = .done r → id ∈ lost ∨ r ≠ .failed ∧ ¬ s.Holds h id

def Loop.Fits (h : Uuid) (s : Store) (lost held : List Uuid) : Loop → Prop
  | scanning scan calls =>
    (∀ id ∈ held, id ∈ scan.unfinished.map (·.delivery.id)) ∧ (∀ w ∈ scan.unfinished, w.stage.LetsGo) ∧
      ∀ id line, calls id = some line → line.Fits h s lost id
  | halted _ calls => ∀ id e, calls id = some e → e.LetsGo
  | _ => held = []

structure Guards (sch : Scheduler) (k : Desk) (lost : List Uuid) : Prop where
  distinct : (k.store.deliveries.map (·.id)).Nodup
  pending : ∀ d ∈ k.store.deliveries, d.claimedBy = some sch.id → d.status = .pending
  custody : ∀ id, k.store.Holds sch.id id → id ∈ k.loop.custody k.held ∨ id ∈ k.stop.custody ∨ id ∈ lost
  loop : k.loop.Fits sch.id k.store lost k.held
  stop : k.stop = .unasked ∨ k.stop = .asked ∨ k.loop.isOver = true

theorem Line.Fits.sheds {h id : Uuid} {line : Line} (fits : line.Fits h s lost id) (sheds : s.Sheds h t)
    (grows : lost ⊆ more) : line.Fits h t more id := by
  cases line with
  | handed e => exact fits
  | answered stage =>
    refine ⟨fits.1, fun r done => ?_⟩
    rcases fits.2 r done with gone | ⟨well, unheld⟩
    · exact .inl (grows gone)
    · exact .inr ⟨well, fun holds => unheld (sheds.holds holds)⟩

theorem Loop.Fits.sheds {h : Uuid} {held : List Uuid} {loop : Loop} (fits : loop.Fits h s lost held)
    (sheds : s.Sheds h t) (grows : lost ⊆ more) : loop.Fits h t more held := by
  cases loop with
  | scanning scan calls =>
    obtain ⟨known, letGo, lines⟩ := fits
    exact ⟨known, letGo, fun id line hline => (lines id line hline).sheds sheds grows⟩
  | resting | sweeping | claiming | claimed | halted => exact fits

/-- Calls that give the scheduler nothing, and a longer list of what is lost, do no harm. -/
theorem Guards.sheds (guards : Guards sch k lost) (sheds : k.store.Sheds sch.id t) (grows : lost ⊆ more) :
    Guards sch { k with store := t } more where
  distinct := sheds.distinct guards.distinct
  pending e he hby := by
    obtain ⟨d, hd, -, own, same⟩ := sheds.held e he hby
    exact same ▸ guards.pending d hd own
  custody id holds := by
    rcases guards.custody id (sheds.holds holds) with own | stop | gone
    · exact .inl own
    · exact .inr (.inl stop)
    · exact .inr (.inr (grows gone))
  loop := guards.loop.sheds sheds grows
  stop := guards.stop

/-- A change to the loop alone: what it looked after it still does, or that is lost. -/
theorem Guards.reloop (guards : Guards sch k lost) {next : Desk} (store : next.store = k.store)
    (stop : next.stop = k.stop)
    (custody : ∀ id ∈ k.loop.custody k.held, id ∈ next.loop.custody next.held ∨ id ∈ lost)
    (fits : next.loop.Fits sch.id k.store lost next.held) (halted : k.loop.isOver = true → next.loop.isOver = true) :
    Guards sch next lost where
  distinct := store ▸ guards.distinct
  pending := store ▸ guards.pending
  custody id holds := by
    rw [store] at holds
    rw [stop]
    rcases guards.custody id holds with own | stop | gone
    · exact (custody id own).imp_right .inr
    · exact .inr (.inl stop)
    · exact .inr (.inr gone)
  loop := store ▸ fits
  stop := stop ▸ guards.stop.imp_right (Or.imp_right halted)

theorem Guards.claims (guards : Guards sch k lost) {now : Instant} {batch : List Delivery}
    (call : Scan.claim sch now k.store = .ok (batch, t)) : (t.deliveries.map (·.id)).Nodup ∧
      (∀ d ∈ t.deliveries, d.claimedBy = some sch.id → d.status = .pending) ∧
      ∀ id, t.Holds sch.id id → k.store.Holds sch.id id ∨ id ∈ batch.map (·.id) := by
  obtain ⟨-, till, -, rows, -, -⟩ := Store.claimDue_ok call
  refine ⟨Store.claimDue_ids call ▸ guards.distinct, fun e he hby => ?_, fun id holds => ?_⟩
  · obtain ⟨d, hd, rfl | ⟨claimable, rfl, -⟩⟩ | added := rows.origin he
    · exact guards.pending _ hd hby
    · exact (Delivery.isClaimable_iff.mp claimable).1
    · exact added.elim
  · obtain ⟨e, he, held⟩ := holds
    obtain ⟨d, hd, rfl | ⟨-, rfl, member⟩⟩ | added := rows.origin he
    · exact .inl ⟨_, hd, held⟩
    · exact .inr (List.mem_map.mpr ⟨_, member, (Store.isHeld_iff.mp held).1⟩)
    · exact added.elim

theorem Loop.Fits.ended {h : Uuid} {held : List Uuid} {loop : Loop} (fits : loop.Fits h s lost held)
    (other : List Uuid) : loop.ended.Fits h s lost other := by
  cases loop with
  | scanning scan calls =>
    intro id e late
    obtain ⟨line, hline, handed⟩ := Option.bind_eq_some_iff.mp late
    cases line with
    | handed e' =>
      cases handed
      exact (fits.2.2 id _ hline).2
    | answered => cases handed
  | halted claim calls => exact fits
  | resting | sweeping | claiming | claimed =>
    intro id e late
    cases late

theorem Loop.ended_over (loop : Loop) : loop.ended.isOver = true := by
  cases loop <;> rfl

theorem Loop.custody_over {held : List Uuid} {loop : Loop} (halted : loop.isOver = true) : loop.custody held = [] := by
  cases loop with
  | halted => rfl
  | resting | sweeping | claiming | claimed | scanning => cases halted

theorem loses_broken {e : Happening} (breaks : e.breaks = true) (going : k.loop.isOver = false)
    (halted : (k.step sch e).loop.isOver = true) : k.loses sch e = k.held := by
  have fallen : k.fallen (k.step sch e) = k.held := if_pos ⟨going, halted⟩
  cases e with
  | hand | answer | breakDown => exact fallen
  | other | wake | begin | runClaim | unpack | run | take | finish | leave | ask | giveUp | release | depart =>
    cases breaks

/-! ### One happening -/

section Scanning

variable {scan : Scan} {calls : Uuid → Option Line} {id : Uuid} {w : Worker} {stage : Worker.Stage} {n : Nat}

theorem Guards.unpacked (guards : Guards sch k lost) {batch : List Delivery} (loop : k.loop = .claimed (.ok batch)) :
    Guards sch { k with
      held := k.held ++ batch.map (·.id)
      loop := .scanning ((Scan.ofBatch batch).fill n) fun _ => none } lost := by
  have fits := guards.loop
  rw [loop] at fits
  have unheld : k.held = [] := fits
  have workers : ((Scan.ofBatch batch).fill n).unfinished = batch.map (⟨·, .waiting⟩) :=
    (Scan.unfinished_fill _ _).trans (Scan.unfinished_ofBatch batch)
  refine guards.reloop rfl rfl (fun id own => .inl ?_) ⟨fun id own => ?_, fun w hw => ?_, fun id line hline => ?_⟩ ?_
  · rw [loop] at own
    exact List.mem_append_right _ own
  · rw [workers, List.map_map]
    simpa [unheld] using own
  · rw [workers] at hw
    obtain ⟨d, -, rfl⟩ := List.mem_map.mp hw
    intro change reporting
    cases reporting
  · cases hline
  · intro halted
    rw [loop] at halted
    cases halted

/-- A change within a scan under way. -/
theorem Guards.rescan (guards : Guards sch k lost) (loop : k.loop = .scanning scan calls) {scan' : Scan}
    {calls' : Uuid → Option Line} {held : List Uuid}
    (custody : ∀ id ∈ k.held, id ∈ held ∨ ¬ k.store.Holds sch.id id ∨ id ∈ lost)
    (fits : (Loop.scanning scan' calls').Fits sch.id k.store lost held) :
    Guards sch { k with held, loop := .scanning scan' calls' } lost where
  distinct := guards.distinct
  pending := guards.pending
  custody id holds := by
    rcases guards.custody id holds with own | stop | gone
    · rw [loop] at own
      rcases custody id own with still | unheld | gone
      · exact .inl still
      · exact absurd holds unheld
      · exact .inr (.inr gone)
    · exact .inr (.inl stop)
    · exact .inr (.inr gone)
  loop := fits
  stop := by
    have stop := guards.stop
    rw [loop] at stop
    exact stop

theorem Line.fits_update {h : Uuid} {line : Line} (lines : ∀ id line, calls id = some line → line.Fits h s lost id)
    (fits : line.Fits h s lost id) :
    ∀ other l, Function.update calls id (some line) other = some l → l.Fits h s lost other := by
  intro other l hl
  by_cases same : other = id
  · subst same
    rw [Function.update_self] at hl
    cases hl
    exact fits
  · rw [Function.update_of_ne same] at hl
    exact lines other l hl

theorem Line.fits_clear {h : Uuid} (lines : ∀ id line, calls id = some line → line.Fits h s lost id) :
    ∀ other l, Function.update calls id none other = some l → l.Fits h s lost other := by
  intro other l hl
  by_cases same : other = id
  · subst same
    rw [Function.update_self] at hl
    cases hl
  · rw [Function.update_of_ne same] at hl
    exact lines other l hl

theorem Guards.handed (guards : Guards sch k lost) (loop : k.loop = .scanning scan calls)
    (turn : scan.turn? id = some w) {stopping : Bool} {now : Instant} {e : Errand}
    (errand : w.errand sch stopping now = .ok (some e)) :
    Guards sch { k with loop := .scanning scan (Function.update calls id (some (.handed e))) } lost := by
  have fits := guards.loop
  rw [loop] at fits
  obtain ⟨known, letGo, lines⟩ := fits
  obtain ⟨about, letsGo⟩ := Errand.letsGo_of_worker (letGo w (Scan.mem_of_turn turn)) errand
  have own : e.delivery.id = id := (congrArg Delivery.id about).trans (Scan.id_of_turn turn)
  exact guards.rescan loop (fun _ hid => .inl hid) ⟨known, letGo, Line.fits_update lines ⟨own, letsGo⟩⟩

theorem Guards.ran (guards : Guards sch k lost) (loop : k.loop = .scanning scan calls) {e : Errand}
    (line : calls id = some (.handed e)) (ran : e.run sch k.store = some (stage, t))
    (strayed : k.store.online = false → id ∈ lost) :
    Guards sch { k with store := t, loop := .scanning scan (Function.update calls id (some (.answered stage))) }
      lost := by
  have fits := guards.loop
  rw [loop] at fits
  obtain ⟨own, letsGo⟩ := fits.2.2 id _ line
  obtain ⟨sheds, letsGo', ended⟩ := Errand.run_ok letsGo ran
  have later := guards.sheds sheds (List.Subset.refl lost)
  have fits' := later.loop
  rw [show ({ k with store := t } : Desk).loop = .scanning scan calls from loop] at fits'
  obtain ⟨known, letGo, lines⟩ := fits'
  have answered : (Line.answered stage).Fits sch.id t lost id := by
    refine ⟨letsGo', fun r done => ?_⟩
    rcases ended r done with offline | ⟨well, unheld⟩
    · exact .inl (strayed offline)
    · exact .inr ⟨well, own ▸ unheld guards.distinct guards.pending⟩
  exact later.rescan loop (fun _ hid => .inl hid) ⟨known, letGo, Line.fits_update lines answered⟩

theorem Guards.moved (guards : Guards sch k lost) (loop : k.loop = .scanning scan calls)
    (turn : scan.turn? id = some w) (letsGo : stage.LetsGo) {calls' : Uuid → Option Line}
    (lines : ∀ id line, calls' id = some line → line.Fits sch.id k.store lost id)
    (ended : stage.isOver = true → id ∈ lost ∨ ¬ k.store.Holds sch.id id) :
    Guards sch { k with
      held := if stage.isOver then k.held.filter (· ≠ id) else k.held
      loop := .scanning (scan.moved n w.delivery stage) calls' } lost := by
  have fits := guards.loop
  rw [loop] at fits
  obtain ⟨known, letGo, -⟩ := fits
  have own := Scan.id_of_turn turn
  obtain ⟨rest, before, after⟩ := Scan.unfinished_moved turn n stage
  refine guards.rescan loop (fun x hx => ?_) ⟨fun x hx => ?_, fun j hj => ?_, lines⟩
  · cases done : stage.isOver with
    | false => exact .inl hx
    | true =>
      by_cases same : x = id
      · subst same
        exact .inr ((ended done).symm)
      · exact .inl (List.mem_filter.mpr ⟨hx, by simpa using same⟩)
  · have old : x ∈ k.held := by
      split at hx
      · exact (List.mem_filter.mp hx).1
      · exact hx
    obtain ⟨j, hj, rfl⟩ := List.mem_map.mp (known x old)
    refine List.mem_map.mpr ?_
    rcases List.mem_cons.mp (before.mem_iff.mp hj) with rfl | hrest
    · cases done : stage.isOver with
      | false =>
        rw [done] at after
        exact ⟨⟨j.delivery, stage⟩, after.mem_iff.mpr List.mem_cons_self, rfl⟩
      | true =>
        rw [done] at hx
        have apart := (List.mem_filter.mp hx).2
        rw [own] at apart
        simp at apart
    · exact ⟨j, after.mem_iff.mpr (List.mem_append_right _ hrest), rfl⟩
  · rcases List.mem_append.mp (after.mem_iff.mp hj) with new | hrest
    · split at new
      · cases new
      · rw [List.mem_singleton.mp new]
        exact letsGo
    · exact letGo j (before.mem_iff.mpr (List.mem_cons_of_mem _ hrest))

end Scanning

theorem Guards.released (guards : Guards sch k lost) {id : Uuid} {ids : List Uuid} (stop : k.stop = .releasing ids)
    (strayed : k.store.online = false → id ∈ lost) :
    Guards sch { k with
      store := k.store.wrote (k.store.releaseClaim id sch.id)
      stop := .releasing (ids.filter (· ≠ id)) } lost := by
  have sheds : k.store.Sheds sch.id (k.store.wrote (k.store.releaseClaim id sch.id)) :=
    .wrote fun _ _ call => Store.releaseClaim_sheds call
  have later := guards.sheds sheds (List.Subset.refl lost)
  have halted : k.loop.isOver = true := by
    rcases guards.stop with unasked | asked | halted
    · cases stop.symm.trans unasked
    · cases stop.symm.trans asked
    · exact halted
  refine ⟨later.distinct, later.pending, fun x holds => ?_, later.loop, .inr (.inr halted)⟩
  rcases later.custody x holds with own | waits | gone
  · exact .inl own
  · change x ∈ k.stop.custody at waits
    rw [stop] at waits
    by_cases same : x = id
    · subst same
      cases reach : k.store.online with
      | false => exact .inr (.inr (strayed reach))
      | true =>
        obtain ⟨b, t, call⟩ := k.store.releaseClaim_total reach x sch.id
        have unheld := Store.releaseClaim_unheld guards.distinct call
        rw [call] at holds
        exact absurd holds unheld
    · exact .inr (.inl (List.mem_filter.mpr ⟨waits, by simpa using same⟩))
  · exact .inr (.inr gone)

theorem Guards.gaveUp (guards : Guards sch k lost) (stop : k.stop = .asked)
    (strayed : ∀ batch, k.loop = .claimed (.ok batch) → batch.map (·.id) ⊆ lost) :
    Guards sch { k with loop := k.loop.ended, stop := .releasing k.held, held := [] } lost where
  distinct := guards.distinct
  pending := guards.pending
  custody id holds := by
    rcases guards.custody id holds with own | waits | gone
    · cases hloop : k.loop with
      | claimed answer =>
        rw [hloop] at own
        cases answer with
        | ok batch => exact .inr (.inr (strayed batch hloop own))
        | error e => cases own
      | scanning scan calls =>
        rw [hloop] at own
        exact .inr (.inl own)
      | resting | sweeping | claiming | halted =>
        rw [hloop] at own
        cases own
    · rw [stop] at waits
      cases waits
    · exact .inr (.inr gone)
  loop := guards.loop.ended []
  stop := .inr (.inr (Loop.ended_over _))

theorem Guards.claimedLate (guards : Guards sch k lost) {now : Instant} {calls : Uuid → Option Errand}
    (loop : k.loop = .halted (some now) calls)
    (strayed : ∀ batch t, Scan.claim sch now k.store = .ok (batch, t) → batch.map (·.id) ⊆ lost) :
    Guards sch { k with store := k.store.wrote (Scan.claim sch now k.store), loop := .halted none calls } lost := by
  have fits := guards.loop
  rw [loop] at fits
  cases call : Scan.claim sch now k.store with
  | error e => exact guards.reloop rfl rfl (by simp [loop, Loop.custody]) fits fun _ => rfl
  | ok r =>
    obtain ⟨batch, t⟩ := r
    obtain ⟨distinct, pending, held⟩ := guards.claims call
    refine ⟨distinct, pending, fun id holds => ?_, fits, .inr (.inr rfl)⟩
    rcases held id holds with old | new
    · have custody := guards.custody id old
      rw [loop] at custody
      exact custody
    · exact .inr (.inr (strayed batch t call new))

/-- Whatever happens, each delivery that the scheduler holds is looked after, or it is among those lost. -/
theorem Guards.step (guards : Guards sch k lost) (e : Happening) :
    Guards sch (k.step sch e) (lost ++ k.loses sch e) := by
  have losing : k.loses sch e ⊆ lost ++ k.loses sch e := List.subset_append_right _ _
  have later : Guards sch k (lost ++ k.loses sch e) := guards.sheds (.refl k.store) (List.subset_append_left _ _)
  have fits := later.loop
  generalize hnext : k.step sch e = next
  have happens := step_happens sch k e
  rw [hnext] at happens
  cases happens with
  | nothing => exact later
  | called foreign => exact later.sheds (Store.foreign_sheds _ foreign) (List.Subset.refl _)
  | woke loop | began loop | refused loop | failed loop =>
    rw [loop] at fits
    exact later.reloop rfl rfl (by simp [loop, Loop.custody]) fits (by simp [loop, Loop.isOver])
  | claimed loop call =>
    rw [loop] at fits
    obtain ⟨distinct, pending, held⟩ := later.claims call
    have stop := later.stop
    rw [loop] at stop
    refine ⟨distinct, pending, fun id holds => ?_, fits, stop⟩
    rcases held id holds with old | new
    · have custody := later.custody id old
      rw [loop] at custody
      exact custody.imp_left fun own => by cases own
    · exact .inl new
  | claimedLate loop =>
    refine later.claimedLate loop fun batch t call id member => losing ?_
    rw [loses, loop]
    dsimp only
    rw [call]
    exact member
  | unpacked loop => exact later.unpacked loop
  | handed loop turn errand => exact later.handed loop turn errand
  | broke loop breaks =>
    have halted : (k.step sch e).loop.isOver = true := by
      rw [hnext]
      exact Loop.ended_over _
    have all := loses_broken breaks (by rw [loop]; rfl) halted
    refine later.reloop rfl rfl (fun id own => .inr (losing ?_)) (fits.ended k.held) fun _ => Loop.ended_over _
    rw [loop] at own
    rw [all]
    exact own
  | @ran id scan calls errand _ _ loop line ran =>
    refine later.ran loop line ran fun offline => losing ?_
    have handed : (k.call? id).bind Line.handed? = some errand := by
      rw [call?, loop]
      dsimp only
      rw [line]
      rfl
    simp [loses, handed, offline]
  | @ranLate id claim calls e stage store loop late ran =>
    rw [loop] at fits
    obtain ⟨sheds, -⟩ := Errand.run_ok (fits id e late) ran
    refine (later.sheds sheds (List.Subset.refl _)).reloop rfl rfl (by simp [loop, Loop.custody]) ?_ fun _ => rfl
    intro other e' late'
    by_cases same : other = id
    · subst same
      rw [Function.update_self] at late'
      cases late'
    · rw [Function.update_of_ne same] at late'
      exact fits other e' late'
  | @took id _ _ w stage loop turn line =>
    rw [loop] at fits
    obtain ⟨letsGo, ended⟩ := fits.2.2 id _ line
    refine later.moved loop turn letsGo (Line.fits_clear fits.2.2) fun done => ?_
    cases stage with
    | done r => exact (ended r rfl).imp_right And.right
    | waiting | renewed | sending | reporting => cases done
  | @answered id _ _ scan calls d hook stage loop turn answer =>
    rw [loop] at fits
    obtain ⟨change, call, rfl⟩ := Worker.answer_ok answer
    have letsGo : (Worker.Stage.reporting change).LetsGo := by
      intro c hc
      cases hc
      exact (Change.WritesBack.attempt call).drops_claim.1
    exact later.moved loop turn letsGo fits.2.2 fun done => by cases done
  | @finished scan calls loop done =>
    rw [loop] at fits
    have idle := scan.isDone_iff.mp done
    have none_held : k.held = [] := by
      refine List.eq_nil_iff_forall_not_mem.mpr fun id own => ?_
      have known := fits.1 id own
      rw [idle] at known
      cases known
    refine later.reloop rfl rfl ?_ none_held (by simp [loop, Loop.isOver])
    simp [loop, Loop.custody, none_held]
  | left loop =>
    exact later.reloop rfl rfl (by simp [loop, Loop.custody]) (fits.ended k.held) fun _ => Loop.ended_over _
  | asked stop =>
    refine ⟨later.distinct, later.pending, fun id holds => ?_, fits, .inr (.inl rfl)⟩
    have custody := later.custody id holds
    rw [stop] at custody
    exact custody
  | gaveUp stop =>
    refine later.gaveUp stop fun batch loop id member => losing ?_
    simpa [loses, stop, loop] using member
  | @released id ids stop =>
    refine later.released stop fun offline => losing ?_
    simp [loses, offline]
  | departed stop halted =>
    refine ⟨later.distinct, later.pending, fun id holds => ?_, fits, .inr (.inr halted)⟩
    have custody := later.custody id holds
    rcases stop with stop | stop
    · rw [stop] at custody
      exact custody
    · rw [stop] at custody
      exact custody

theorem Guards.run (guards : Guards sch k lost) (hs : List Happening) :
    Guards sch (k.run sch hs) (lost ++ k.strays sch hs) := by
  induction hs generalizing k lost with
  | nil => exact (List.append_nil lost).symm ▸ guards
  | cons e hs ih =>
    have rest := ih (guards.step e)
    rw [List.append_assoc] at rest
    exact rest

theorem guards_started {s : Store} (distinct : (s.deliveries.map (·.id)).Nodup)
    (unclaimed : ∀ d ∈ s.deliveries, d.claimedBy ≠ some sch.id) : Guards sch (started s) [] where
  distinct := distinct
  pending d hd hby := absurd hby (unclaimed d hd)
  custody id holds := by
    obtain ⟨d, hd, held⟩ := holds
    exact absurd (Store.isHeld_iff.mp held).2 (unclaimed d hd)
  loop := rfl
  stop := .inl rfl

end Desk

end Courier
