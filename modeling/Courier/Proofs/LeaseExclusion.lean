import Courier.Proofs.History
set_option autoImplicit false

/-!
# Leases keep attempts apart

Between the renewal of a claim and the last call of the same worker nobody else gets at the delivery, as long as no
clock that others read runs past the end that the renewal wrote. The end itself still belongs to the lease: a claim and
a sweep at this very time leave it alone.
-/

namespace Courier

def Worker.Stage.isUnderway : Worker.Stage → Bool
  | .waiting | .done _ => false
  | .renewed | .sending _ | .reporting _ => true

def Act.releasesByHand : Act → Bool
  | .releaseByHand _ _ => true
  | _ => false

namespace Fleet

variable {crew : Crew} {f : Fleet} {acts : List Act} {a : Act} {h g id : Uuid} {till : Instant}

def Underway (f : Fleet) (h id : Uuid) : Prop :=
  ∃ k ∈ f.workers h, k.delivery.id = id ∧ k.stage.isUnderway = true

def Renews (crew : Crew) (h id : Uuid) (till : Instant) (f : Fleet) (a : Act) : Prop :=
  ∃ now x t, a = .start h id false now ∧ f.active? h id = some ⟨x, .waiting⟩ ∧
    Worker.claimEnd? (crew.config h) now = some till ∧ f.store.renewClaim id h till = .ok (true, t)

/-- A scheduler is at an attempt, for which it renewed the claim until this time. -/
def Leased (crew : Crew) (acts : List Act) (h id : Uuid) (till : Instant) : Prop :=
  Since crew acts (Renews crew h id till) (·.Underway h id)

/-- During every attempt the readings of others, and of sweeps, are not past the end of its lease. -/
def Honoured (crew : Crew) (acts : List Act) : Prop :=
  ∀ run a rest, acts = run ++ a :: rest → ∀ h id till, Leased crew run h id till →
    (∀ g now, a = .scan g now → g ≠ h → now ≤ till) ∧ ∀ now, a = .sweep now → now ≤ till

/-- The webhook of the delivery was deleted during the attempt that is under way. -/
def CutOff (crew : Crew) (acts : List Act) (h id : Uuid) : Prop :=
  Since crew acts
    (fun f a => f.Underway h id ∧ ∃ d ∈ f.store.deliveries, d.id = id ∧ a = .deleteWebhook d.webhookId)
    (·.Underway h id)

/-- A regular run that honours leases and in which nobody drops claims of others. -/
structure Orderly (crew : Crew) (acts : List Act) : Prop where
  regular : Regular acts
  unreleased : ∀ a ∈ acts, a.releasesByHand = false
  honoured : Honoured crew acts

theorem Orderly.left {more : List Act} (orderly : Orderly crew (acts ++ more)) : Orderly crew acts where
  regular := orderly.regular.left
  unreleased a ha := orderly.unreleased a (List.mem_append_left _ ha)
  honoured run a rest hacts :=
    orderly.honoured run a (rest ++ more) (by rw [hacts, List.append_assoc]; rfl)

/-! ### The start and the end of an attempt -/

theorem Renews.store_eq {x : Delivery} {now : Instant} {t : Store} (turn : f.active? h id = some ⟨x, .waiting⟩)
    (lease : Worker.claimEnd? (crew.config h) now = some till) (call : f.store.renewClaim id h till = .ok (true, t)) :
    (f.step crew (.start h id false now)).store = t := by
  obtain rfl : x.id = id := id_of_active turn
  have started : Worker.start (crew.scheduler h) x false now f.store = .ok (.renewed, t) :=
    Worker.start_renewed lease call
  rw [step, turn]
  dsimp only
  rw [started]
  dsimp only
  rw [store_moved]

theorem report_ends (distinct : Distinct f) {x : Delivery} {c : Change}
    (turn : f.active? h id = some ⟨x, .reporting c⟩) : ¬ (f.step crew (.report h id)).Underway h id := by
  rintro ⟨j, hj, hid, -⟩
  obtain rfl : x.id = id := id_of_active turn
  have hover := (Worker.report_over (crew.scheduler h) x c f.store).1
  obtain ⟨rest, before, after⟩ := workers_moved crew
    (f := { f with store := (Worker.report (crew.scheduler h) x c f.store).2 }) turn
    (Worker.report (crew.scheduler h) x c f.store).1
  rw [hover] at after
  rw [step, turn] at hj
  have hrest : j ∈ rest := after.mem_iff.mp hj
  have ids : ((⟨x, .reporting c⟩ :: rest).map (·.delivery.id)).Nodup :=
    (before.map _).nodup_iff.mp (distinct.workers h)
  rw [List.map_cons, List.nodup_cons] at ids
  exact ids.1 (List.mem_map.mpr ⟨j, hrest, hid⟩)

theorem leased_of_underway (crew : Crew) (acts : List Act) (underway : (after crew acts).Underway h id) :
    ∃ till, Leased crew acts h id till := by
  induction acts using List.reverseRecOn with
  | nil =>
    obtain ⟨k, hk, -⟩ := underway
    cases hk
  | append_singleton acts a ih =>
    obtain ⟨j, hj, hid, hstage⟩ := underway
    have earlier : (after crew acts).Underway h id → ∃ till, Leased crew (acts ++ [a]) h id till := by
      intro old
      obtain ⟨till, leased⟩ := ih old
      exact ⟨till, since_concat.mpr ⟨⟨j, hj, hid, hstage⟩, .inr leased⟩⟩
    obtain old | ⟨k, hk, move⟩ | ⟨now, batch, -, -, -, -, hwaiting⟩ := worker_origin (after_concat crew acts a ▸ hj)
    · exact earlier ⟨j, old, hid, hstage⟩
    · cases move with
      | renewed turn lease call =>
        obtain rfl := hid
        exact ⟨_, since_concat.mpr ⟨⟨_, hj, rfl, hstage⟩, .inl ⟨_, _, _, rfl, turn, lease, call⟩⟩⟩
      | looked turn | answered turn => exact earlier ⟨_, mem_of_active turn, hid, rfl⟩
    · rw [hwaiting] at hstage
      cases hstage

/-! ### What a lease is worth -/

def Secures (f : Fleet) (h id : Uuid) (till : Instant) : Prop :=
  ∃ d ∈ f.store.deliveries, d.id = id ∧ d.claimedBy = some h ∧ d.claimedUntil = some till ∧ d.status = .pending

/-- No action but the last call of the attempt takes a delivery from a scheduler that is under way with it. -/
theorem Touched.secured (orderly : Orderly crew (acts ++ [a])) (leased : Leased crew acts h id till)
    (still : (after crew (acts ++ [a])).Underway h id) {d e : Delivery}
    (touched : Touched crew (after crew acts) a d e) (hid : d.id = id) (held : d.claimedBy = some h)
    (ends : d.claimedUntil = some till) (pending : d.status = .pending) : e = d := by
  obtain ⟨distinct, -⟩ := distinct_after crew orderly.regular.left
  obtain ⟨k, hk, hkid, hstage⟩ := leased.now
  have clocks := orderly.honoured acts a [] rfl h id till leased
  -- the worker is past its start, so it takes no first step
  have started : ∀ {x : Delivery}, (after crew acts).active? h d.id ≠ some ⟨x, .waiting⟩ := by
    intro x turn
    have same := distinct.worker_eq hk (mem_of_active turn) (hkid.trans (hid.symm.trans (id_of_active turn).symm))
    rw [same] at hstage
    cases hstage
  cases touched with
  | same => rfl
  | claimedByHand | renewedByHand => cases orderly.regular.last.1
  | releasedByHand => cases orderly.unreleased _ (List.mem_append_right _ List.mem_cons_self)
  | @claimed g now _ _ batch t idle call due =>
    have past := (Delivery.isClaimable_iff.mp due).2.2 till ends
    by_cases hg : g = h
    · rw [hg] at idle
      rw [idle] at hk
      cases hk
    · exact absurd past (Instant.not_lt.mpr (clocks.1 g now rfl hg))
  | renewed turn _ hby | handedBack turn hby =>
    obtain rfl := Option.some.inj (hby.symm.trans held)
    exact absurd turn started
  | @expired now _ ended =>
    unfold Store.hasExpired at ended
    rw [ends] at ended
    exact absurd (of_decide_eq_true ended) (Instant.not_lt.mpr (clocks.2 now rfl))
  | recorded turn hby =>
    obtain rfl := Option.some.inj (hby.symm.trans held)
    rw [after_concat, ← hid] at still
    exact absurd still (report_ends distinct turn)
  | retried dead => cases pending.symm.trans dead

theorem Renews.secures (renews : Renews crew h id till (after crew acts) a) :
    (after crew (acts ++ [a])).Secures h id till := by
  obtain ⟨now, x, t, rfl, turn, lease, call⟩ := renews
  rw [after_concat, Secures, Renews.store_eq turn lease call]
  obtain ⟨-, -, ⟨d, hd, held, -, hmem⟩ | ⟨-, hfalse, -⟩⟩ := Store.renewClaim_ok call
  · obtain ⟨hid, hby⟩ := Store.isHeld_iff.mp held
    have sound := (keeps_after crew.allows_max acts).rows d hd
    exact ⟨_, hmem, hid, rfl, rfl, sound.claimed (by rw [hby]; rfl)⟩
  · cases hfalse

structure Gone (crew : Crew) (acts : List Act) (h id : Uuid) : Prop where
  absent : ∀ d ∈ (after crew acts).store.deliveries, d.id ≠ id
  known : id ∈ acts.flatMap Act.issued
  cutOff : CutOff crew acts h id

theorem Gone.step (gone : Gone crew acts h id) (regular : Regular (acts ++ [a]))
    (still : (after crew (acts ++ [a])).Underway h id) : Gone crew (acts ++ [a]) h id where
  absent := by
    intro e he hid
    rw [after_concat] at he
    obtain ⟨d, hd, touched⟩ | added := (step_rows crew _ a).origin he
    · exact gone.absent d hd (touched.id_eq.symm.trans hid)
    · exact regular.last.2.2 id gone.known (hid ▸ added.issued)
  known := by
    rw [List.flatMap_append]
    exact List.mem_append_left _ gone.known
  cutOff := since_concat.mpr ⟨still, .inr gone.cutOff⟩

/-- While a scheduler is at an attempt the delivery stays its own until the end of the lease, or is deleted with its
webhook. -/
theorem secures_or_gone (orderly : Orderly crew acts) (leased : Leased crew acts h id till) :
    (after crew acts).Secures h id till ∨ Gone crew acts h id := by
  induction acts using List.reverseRecOn with
  | nil => exact absurd leased since_nil
  | append_singleton acts a ih =>
    obtain ⟨still, renews | leased⟩ := since_concat.mp leased
    · exact .inl (renews.secures)
    · obtain ⟨d, hd, hid, held, ends, pending⟩ | gone := ih orderly.left leased
      · by_cases stored : ∃ e ∈ (after crew (acts ++ [a])).store.deliveries, e.id = id
        · obtain ⟨e, he, heid⟩ := stored
          have touched := touched_of_same_id orderly.regular hd he (heid.trans hid.symm)
          obtain rfl := touched.secured orderly leased still hid held ends pending
          exact .inl ⟨e, he, hid, held, ends, pending⟩
        · obtain ⟨e, he, touched⟩ | deleted | ⟨cutoff, -, terminal, -⟩ := (step_rows crew _ a).fate hd
          · rw [after_concat] at stored
            exact absurd ⟨e, he, touched.id_eq.trans hid⟩ stored
          · have known := (distinct_after crew orderly.regular.left).2 d hd
            refine .inr ⟨fun e he heid => stored ⟨e, he, heid⟩, ?_, ?_⟩
            · rw [List.flatMap_append]
              exact List.mem_append_left _ (hid ▸ known)
            · exact since_concat.mpr ⟨still, .inl ⟨leased.now, d, hd, hid, deleted⟩⟩
          · unfold Delivery.isTerminal at terminal
            rw [pending] at terminal
            cases terminal
      · exact .inr (gone.step orderly.regular still)

theorem Renews.held (renews : Renews crew h id till f a) : f.store.Holds h id := by
  obtain ⟨now, x, t, -, -, -, call⟩ := renews
  obtain ⟨-, -, ⟨d, hd, held, -⟩ | ⟨-, hfalse, -⟩⟩ := Store.renewClaim_ok call
  · exact ⟨d, hd, held⟩
  · cases hfalse

theorem unheld_of_leased (orderly : Orderly crew acts) (leased : Leased crew acts h id till) (other : g ≠ h) :
    ¬ (after crew acts).store.Holds g id := by
  obtain ⟨d, hd, hid, held, -⟩ | gone := secures_or_gone orderly leased
  · refine Store.not_holds_of_mem (distinct_after crew orderly.regular).1.rows hd hid ?_
    rw [held]
    exact fun same => other (Option.some.inj same).symm
  · rintro ⟨d, hd, held⟩
    exact gone.absent d hd (Store.isHeld_iff.mp held).1

theorem underway_unique (orderly : Orderly crew acts) (hh : (after crew acts).Underway h id)
    (hg : (after crew acts).Underway g id) : g = h := by
  induction acts using List.reverseRecOn with
  | nil =>
    obtain ⟨k, hk, -⟩ := hh
    cases hk
  | append_singleton acts a ih =>
    obtain ⟨till, leased⟩ := leased_of_underway crew _ hh
    obtain ⟨till', leased'⟩ := leased_of_underway crew _ hg
    obtain ⟨-, renews | leased⟩ := since_concat.mp leased
    all_goals obtain ⟨-, renews' | leased'⟩ := since_concat.mp leased'
    · obtain ⟨now, x, t, rfl, -⟩ := renews
      obtain ⟨now', x', t', hact, -⟩ := renews'
      cases hact
      rfl
    · by_contra other
      exact unheld_of_leased orderly.left leased' (Ne.symm other) renews.held
    · by_contra other
      exact unheld_of_leased orderly.left leased other renews'.held
    · exact ih orderly.left leased.now leased'.now

/-- At every moment of an attempt in an orderly run: claims of others until the end of the lease do not return the
delivery, renewals of others do not succeed, its worker is the only one under way with the delivery, and what it
reports is accepted, unless the webhook was deleted meanwhile. -/
theorem attempts_never_overlap (crew : Crew) {acts : List Act} (orderly : Orderly crew acts) {h id : Uuid}
    {till : Instant} (leased : Leased crew acts h id till) :
    let s := (after crew acts).store
    (∀ g now limit lease batch t, g ≠ h → now ≤ till → s.claimDue now limit g lease = .ok (batch, t) →
      ∀ d ∈ batch, d.id ≠ id) ∧
    (∀ g ending, g ≠ h → s.renewClaim id g ending = s.whenOnline (.ok (false, s))) ∧
    (∀ g, ∀ k ∈ (after crew acts).workers g, k.delivery.id = id → k.stage.isUnderway = true →
      g = h ∧ ∀ j ∈ (after crew acts).workers h, j.delivery.id = id → j = k) ∧
    (∀ c, s.online = true → (∃ d t, s.completeAttempt id h c = .ok (some d, t)) ∨ CutOff crew acts h id) := by
  intro s
  obtain ⟨distinct, -⟩ := distinct_after crew orderly.regular
  have worth := secures_or_gone orderly leased
  refine ⟨?_, ?_, ?_, ?_⟩
  · intro g now limit lease batch t other early call x hx hid
    obtain ⟨-, end', -, -, hbatch, -⟩ := Store.claimDue_ok call
    obtain ⟨-, d, hd, due, rfl⟩ := hbatch x hx
    obtain ⟨e, he, heid, -, ends, -⟩ | gone := worth
    · obtain rfl := distinct.row_eq hd he (Eq.trans hid heid.symm)
      exact absurd ((Delivery.isClaimable_iff.mp due).2.2 till ends) (Instant.not_lt.mpr early)
    · exact gone.absent d hd hid
  · intro g ending other
    have unheld := Store.not_holds_iff.mp (unheld_of_leased orderly leased other)
    exact (Store.unheld_calls unheld ending .release).1
  · intro g k hk hid hstage
    obtain rfl := underway_unique orderly leased.now ⟨k, hk, hid, hstage⟩
    exact ⟨rfl, fun j hj same => distinct.worker_eq hj hk (same.trans hid.symm)⟩
  · intro c online
    obtain ⟨d, hd, hid, held, -, pending⟩ | gone := worth
    · exact .inl (Store.completeAttempt_some online hd (Store.isHeld_iff.mpr ⟨hid, held⟩) pending c)
    · exact .inr gone.cutOff

theorem Leased.started (leased : Leased crew acts h id till) :
    ∃ now, .start h id false now ∈ acts ∧ Worker.claimEnd? (crew.config h) now = some till := by
  obtain ⟨before, a, during, rfl, ⟨now, x, t, rfl, -, lease, -⟩, -⟩ := leased
  exact ⟨now, List.mem_append_right _ List.mem_cons_self, lease⟩

def Sample.contended : List Act :=
  Sample.sent ++ [.scan Sample.south (Sample.second 91), .sweep (Sample.second 91)]

theorem Sample.contended_honoured : Honoured Sample.crew Sample.contended := by
  intro run a rest hacts h id till leased
  obtain ⟨now, hstart, hlease⟩ := leased.started
  have hstart' : Act.start h id false now ∈ Sample.contended := hacts ▸ List.mem_append_left _ hstart
  have ha : a ∈ Sample.contended := hacts ▸ List.mem_append_right _ List.mem_cons_self
  simp only [Sample.contended, Sample.sent, Sample.claimed, List.cons_append, List.nil_append, List.mem_cons,
    List.not_mem_nil, or_false, reduceCtorEq, false_or, Act.start.injEq, true_and] at hstart' ha
  obtain ⟨rfl, rfl, rfl⟩ := hstart'
  obtain rfl : second 91 = till := Option.some.inj (.trans (by decide +kernel) hlease)
  refine ⟨?_, ?_⟩
  · rintro g now rfl -
    simp only [reduceCtorEq, false_or, or_false, Act.scan.injEq] at ha
    obtain ⟨-, rfl⟩ | ⟨-, rfl⟩ := ha <;> decide +kernel
  · rintro now rfl
    simp only [reduceCtorEq, false_or, Act.sweep.injEq] at ha
    rw [ha]
    decide +kernel

theorem attempts_never_overlap_contended :
    let s := (after Sample.crew Sample.contended).store
    (∀ ending, s.renewClaim Sample.parcel Sample.south ending = .ok (false, s)) ∧
      ∀ c, ∃ d t, s.completeAttempt Sample.parcel Sample.north c = .ok (some d, t) := by
  intro s
  have orderly : Orderly Sample.crew Sample.contended :=
    ⟨⟨by decide +kernel, by decide +kernel⟩, by decide +kernel, Sample.contended_honoured⟩
  have underway : (after Sample.crew Sample.contended).Underway Sample.north Sample.parcel := by
    unfold Underway
    decide +kernel
  have online : s.online = true := by decide +kernel
  obtain ⟨till, leased⟩ := leased_of_underway Sample.crew Sample.contended underway
  obtain ⟨-, renewals, -, writes⟩ := attempts_never_overlap Sample.crew orderly leased
  refine ⟨fun ending => ?_, fun c => (writes c online).resolve_right ?_⟩
  · rw [renewals Sample.south ending (by decide)]
    exact Store.whenOnline_eq _ online
  · rintro ⟨before, a, during, hacts, ⟨-, d, -, -, rfl⟩, -⟩
    have deleted : .deleteWebhook d.webhookId ∈ Sample.contended :=
      hacts ▸ List.mem_append_right _ List.mem_cons_self
    simp [Sample.contended, Sample.sent, Sample.claimed] at deleted

end Fleet

end Courier
