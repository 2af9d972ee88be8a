import Courier.Proofs.History
set_option autoImplicit false

namespace Courier

def Delivery.place (d : Delivery) : Status × Int := (d.status, d.attempts.val)

inductive Edge where
  | stays
  | delivered
  | retrying
  | failed
  /-- Dead without an attempt. -/
  | refused
  | retried
  deriving DecidableEq, Repr

def Edge.Joins (m : Int) (x y : Status × Int) : Edge → Prop
  | .stays => y = x
  | .delivered => x.1 = .pending ∧ y = (.delivered, x.2 + 1)
  | .retrying => x.1 = .pending ∧ y = (.pending, x.2 + 1) ∧ x.2 + 1 < m
  | .failed => x.1 = .pending ∧ y = (.dead, x.2 + 1)
  | .refused => x.1 = .pending ∧ y = (.dead, x.2)
  | .retried => x.1 = .dead ∧ y = (.pending, 0)

theorem Edge.joins_unique {m : Int} {x y : Status × Int} {k l : Edge} (hk : k.Joins m x y) (hl : l.Joins m x y) :
    k = l := by
  obtain ⟨s, n⟩ := x
  obtain ⟨t, j⟩ := y
  cases k <;> cases l <;> simp only [Edge.Joins, Prod.mk.injEq] at hk hl <;> grind

namespace Fleet

variable {crew : Crew} {m : Int} {f : Fleet} {acts : List Act} {a : Act} {h : Uuid}

/-- A request for the delivery came to this outcome, and its worker is about to report that. -/
def Concluded (crew : Crew) (acts : List Act) (h : Uuid) (d : Delivery) (o : Outcome) : Prop :=
  ∃ x c, Since crew acts
    (fun f a => ∃ now w, a = .answer h d.id o now ∧ f.active? h d.id = some ⟨x, .sending w⟩)
    (fun f => ⟨x, .reporting c⟩ ∈ f.workers h)

def FoundInactive (crew : Crew) (acts : List Act) (h : Uuid) (d : Delivery) : Prop :=
  ∃ x c, Since crew acts
    (fun f a => a = .look h d.id ∧ ∃ w, f.store.getWebhook d.webhookId = .ok (some w) ∧ w.active = false)
    (fun f => ⟨x, .reporting c⟩ ∈ f.workers h)

def Occasion (crew : Crew) (m : Int) (acts : List Act) (a : Act) (d : Delivery) : Edge → Prop
  | .stays => True
  | .delivered => ∃ h o, a = .report h d.id ∧ Concluded crew acts h d o ∧ o.verdict = .success
  | .retrying => ∃ h o, a = .report h d.id ∧ Concluded crew acts h d o ∧ o.verdict = .retryable
  | .failed => ∃ h o, a = .report h d.id ∧ Concluded crew acts h d o ∧
    (o.verdict = .permanent ∨ o.verdict = .retryable ∧ d.attempts.val + 1 = m)
  | .refused => ∃ h, a = .report h d.id ∧ FoundInactive crew acts h d
  | .retried => ∃ now, a = .retry d.id now

def Moves (crew : Crew) (m : Int) (acts : List Act) (a : Act) (d e : Delivery) (k : Edge) : Prop :=
  k.Joins m d.place e.place ∧ Occasion crew m acts a d k

/-- A worker that holds the delivery moves it along the edge of what it reports. -/
theorem reported_moves (agrees : crew.Agrees m) (regular : Regular acts) {d x : Delivery} {c : Change}
    (hd : d ∈ (after crew acts).store.deliveries)
    (turn : (after crew acts).active? h d.id = some ⟨x, .reporting c⟩) (held : d.claimedBy = some h)
    (pending : d.status = .pending) : ∃ k, Moves crew m acts (.report h d.id) d (d.apply c) k := by
  have hk := mem_of_active turn
  have hid : x.id = d.id := id_of_active turn
  have copy := fenced_after regular h _ hk d hd hid.symm held
  have hattempts : x.attempts = d.attempts := by rw [copy]
  have hwebhook : x.webhookId = d.webhookId := by rw [copy]
  have below := (((keeps_after agrees.allows acts).rows d hd).pending pending).2.1
  have grounds := grounds_of_held agrees regular hk ⟨d, hd, Store.isHeld_iff.mpr ⟨hid.symm, held⟩⟩
  rw [hid, hattempts, hwebhook] at grounds
  obtain since | ⟨rfl, since⟩ := grounds
  · obtain ⟨before, b, during, rfl, ⟨o, now, w, rfl, sending, call⟩, lasting⟩ := since
    have concluded : Concluded crew (before ++ .answer h d.id o now :: during) h d o :=
      ⟨x, c, before, _, during, rfl, ⟨now, w, rfl, sending⟩, lasting⟩
    obtain ⟨n, hn, ⟨hv, rfl⟩ | ⟨hv, hlt, due, rfl⟩ | ⟨hv, rfl⟩⟩ := Change.afterAttempt_ok call
    · exact ⟨.delivered, ⟨pending, Prod.ext rfl hn⟩, h, o, rfl, concluded, hv⟩
    · refine ⟨.retrying, ⟨pending, Prod.ext rfl hn, ?_⟩, h, o, rfl, concluded, hv⟩
      have few : n.val < crew.limit h := hlt
      rw [agrees.limit_eq] at few
      exact hn ▸ few
    · refine ⟨.failed, ⟨pending, Prod.ext rfl hn⟩, h, o, rfl, concluded, hv.imp_right ?_⟩
      rintro ⟨hretry, hle⟩
      have spent : crew.limit h ≤ n.val := hle
      rw [agrees.limit_eq] at spent
      exact ⟨hretry, by omega⟩
  · obtain ⟨before, b, during, rfl, ⟨rfl, -, found⟩, lasting⟩ := since
    exact ⟨.refused, ⟨pending, rfl⟩, h, rfl, x, _, before, _, during, rfl, ⟨rfl, found⟩, lasting⟩

theorem Touched.moves (agrees : crew.Agrees m) (regular : Regular acts) {d e : Delivery}
    (hd : d ∈ (after crew acts).store.deliveries)
    (touched : Touched crew (after crew acts) a d e) : ∃ k, Moves crew m acts a d e k := by
  cases touched with
  | same | claimedByHand | claimed | renewedByHand | renewed | releasedByHand | handedBack | expired =>
    exact ⟨.stays, rfl, trivial⟩
  | retried dead => exact ⟨.retried, ⟨dead, rfl⟩, _, rfl⟩
  | recorded turn held pending => exact reported_moves agrees regular hd turn held pending

/-- A delivery that is not pending is left alone, but for a retry by hand of one that is dead. -/
theorem Touched.settled {d e : Delivery} (sound : d.Sound m) (settled : d.status ≠ .pending)
    (touched : Touched crew f a d e) :
    e = d ∨ d.status = .dead ∧ ∃ now, a = .retry d.id now ∧ e = d.apply (.manualRetry now) := by
  have unclaimed : ∀ {c : Uuid}, d.claimedBy ≠ some c := fun held => settled (sound.claimed (by rw [held]; rfl))
  cases touched with
  | same => exact .inl rfl
  | claimedByHand due | claimed _ _ due => exact absurd (Delivery.isClaimable_iff.mp due).1 settled
  | renewedByHand held | renewed _ _ held | releasedByHand held | handedBack _ held => exact absurd held unclaimed
  | recorded _ _ pending => exact absurd pending settled
  | retried dead => exact .inr ⟨dead, _, rfl, rfl⟩
  | expired ended =>
    -- a claim that ended is a claim
    have ending : d.claimedUntil.isSome := by
      unfold Store.hasExpired at ended
      cases hc : d.claimedUntil with
      | none =>
        rw [hc] at ended
        cases ended
      | some till => rfl
    exact absurd (sound.claimed (sound.claim.mpr ending)) settled

theorem delivered_stays {more : List Act} (regular : Regular (acts ++ more)) {d : Delivery}
    (hd : d ∈ (after crew acts).store.deliveries) (delivered : d.status = .delivered) :
    ∀ e ∈ (after crew (acts ++ more)).store.deliveries, e.id = d.id → e = d := by
  induction more using List.reverseRecOn with
  | nil =>
    rw [List.append_nil] at regular ⊢
    intro e he same
    exact (distinct_after crew regular).1.row_eq he hd same
  | append_singleton more b ih =>
    rw [← List.append_assoc] at regular ⊢
    have known := (distinct_after crew regular.left.left).2 d hd
    rw [after_concat]
    intro e he same
    obtain ⟨x, hx, touched⟩ | added := (step_rows crew _ b).origin he
    · obtain rfl := ih regular.left x hx (touched.id_eq.symm.trans same)
      have sound := (keeps_after crew.allows_max (acts ++ more)).rows x hx
      obtain rfl | ⟨dead, -⟩ := touched.settled sound (by rw [delivered]; decide)
      · rfl
      · cases delivered.symm.trans dead
    · have issued : d.id ∈ (acts ++ more).flatMap Act.issued := by
        rw [List.flatMap_append]
        exact List.mem_append_left _ known
      exact absurd (same ▸ added.issued) (regular.last.2.2 _ issued)

/-- In every regular run of schedulers that allow the same number of attempts: an action moves a delivery that it leaves
in the store along exactly one edge and leaves alone who it is for and what it carries; a dead delivery is changed by a
retry by hand only, a delivered one never again, and no delivery leaves the store but by a cleanup or with its webhook. -/
theorem deliveries_follow_edges (agrees : crew.Agrees m) {acts more : List Act} {a : Act}
    (regular : Regular (acts ++ a :: more)) {d : Delivery} (hd : d ∈ (after crew acts).store.deliveries) :
    (∀ e ∈ (after crew (acts ++ [a])).store.deliveries, e.id = d.id →
      (e.webhookId = d.webhookId ∧ e.event = d.event ∧ e.payload = d.payload ∧ e.createdAt = d.createdAt) ∧
        (∃! k, Moves crew m acts a d e k) ∧
        (d.status = .dead → e = d ∨ ∃ now, a = .retry d.id now ∧ e = d.apply (.manualRetry now))) ∧
      (d.status = .delivered → ∀ e ∈ (after crew (acts ++ a :: more)).store.deliveries, e.id = d.id → e = d) ∧
      ((∃ e ∈ (after crew (acts ++ [a])).store.deliveries, e.id = d.id) ∨ Removed a d) := by
  have regular' : Regular (acts ++ [a]) := by
    rw [← List.singleton_append, ← List.append_assoc] at regular
    exact regular.left
  refine ⟨?_, fun delivered => delivered_stays regular hd delivered, ?_⟩
  · intro e he same
    have touched := touched_of_same_id regular' hd he same
    refine ⟨touched.frame, ?_, fun dead => ?_⟩
    · obtain ⟨k, moves⟩ := touched.moves agrees regular'.left hd
      exact ⟨k, moves, fun l hl => Edge.joins_unique hl.1 moves.1⟩
    · have sound := (keeps_after agrees.allows acts).rows d hd
      exact (touched.settled sound (by rw [dead]; decide)).imp_right And.right
  · rw [after_concat]
    obtain ⟨e, he, touched⟩ | removed := (step_rows crew _ a).fate hd
    · exact .inl ⟨e, he, touched.id_eq⟩
    · exact .inr removed

theorem deliveries_follow_edges_retrying :
    ∃ d ∈ (after Sample.crew Sample.answered).store.deliveries,
      ∃ e ∈ (after Sample.crew (Sample.answered ++ [.report Sample.north Sample.parcel])).store.deliveries,
        Moves Sample.crew 5 Sample.answered (.report Sample.north Sample.parcel) d e .retrying := by
  have regular : Regular (Sample.answered ++ [.report Sample.north Sample.parcel]) :=
    ⟨by decide +kernel, by decide +kernel⟩
  have reported : ∃ d ∈ (after Sample.crew Sample.answered).store.deliveries,
      ∃ e ∈ (after Sample.crew (Sample.answered ++ [.report Sample.north Sample.parcel])).store.deliveries,
        e.id = d.id ∧ d.place = (.pending, 0) ∧ e.place = (.pending, 1) := by decide +kernel
  obtain ⟨d, hd, e, he, same, hplace, hplace'⟩ := reported
  obtain ⟨-, ⟨k, moves, -⟩, -⟩ := (deliveries_follow_edges Sample.agrees regular hd).1 e he same
  have joins : Edge.retrying.Joins 5 d.place e.place := by
    rw [hplace, hplace']
    exact ⟨rfl, rfl, by decide⟩
  rw [Edge.joins_unique moves.1 joins] at moves
  exact ⟨d, hd, e, he, moves⟩

end Fleet

end Courier
