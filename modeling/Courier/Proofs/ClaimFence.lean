import Courier.Proofs.Identity
import Courier.Proofs.Records
set_option autoImplicit false

/-!
# Claims as fences

A worker counts attempts on from its copy of the delivery and never compares the two. What keeps the count right is that
the holder of a claim is the only one who can change the delivery in anything but the end of the claim, and that a claim
which is lost comes back by a scan of its own scheduler only.
-/

namespace Courier

namespace Store

variable {s t : Store} {h id : Uuid}

def Holds (s : Store) (h id : Uuid) : Prop := ∃ d ∈ s.deliveries, isHeld id h d = true

inductive EndsClaim (p : RetryPolicy) (s t : Store) (h id : Uuid) : Prop
  | released {b : Bool} (call : s.releaseClaim id h = .ok (b, t))
  | cleared {now : Instant} {n : Nat} {d : Delivery} (mem : d ∈ s.deliveries) (held : isHeld id h d = true)
    (ended : hasExpired now d = true) (call : s.releaseExpired now = .ok (n, t))
  | completed {before : Word32} {c : Change} {d : Delivery} (write : c.WritesBack p before)
    (call : s.completeAttempt id h c = .ok (some d, t))
  | takenOver {g : Uuid} {now : Instant} {limit : Int} {lease : Span} {batch : List Delivery} {d : Delivery}
    (other : g ≠ h) (call : s.claimDue now limit g lease = .ok (batch, t)) (mem : d ∈ batch) (same : d.id = id)

theorem not_holds_iff : ¬ s.Holds h id ↔ ∀ d ∈ s.deliveries, isHeld id h d = false := by
  unfold Holds
  constructor
  · intro none d hd
    exact Bool.not_eq_true _ |>.mp fun held => none ⟨d, hd, held⟩
  · rintro all ⟨d, hd, held⟩
    cases (all d hd).symm.trans held

/-- Where identifiers are distinct, a delivery that another or nobody holds is not held. -/
theorem not_holds_of_mem (rows : (s.deliveries.map (·.id)).Nodup) {d : Delivery} (hd : d ∈ s.deliveries)
    (hid : d.id = id) (other : d.claimedBy ≠ some h) : ¬ s.Holds h id := by
  rintro ⟨e, he, held⟩
  obtain ⟨heid, hby⟩ := isHeld_iff.mp held
  obtain rfl : e = d := List.inj_on_of_nodup_map rows he hd (heid.trans hid.symm)
  exact other hby

theorem EndsClaim.unheld {p : RetryPolicy} (ends : EndsClaim p s t h id) (rows : (t.deliveries.map (·.id)).Nodup) :
    ¬ t.Holds h id := by
  cases ends with
  | released call =>
    obtain ⟨-, -, ⟨d, -, held, -, hd⟩ | ⟨none, -, rfl⟩⟩ := releaseClaim_ok call
    · exact not_holds_of_mem rows hd (isHeld_iff.mp held).1 (by intro hby; cases hby)
    · exact not_holds_iff.mpr none
  | @cleared now n d hd held ended call =>
    obtain ⟨e, he, heq⟩ | gone := (releaseExpired_ok call).2.fate hd
    · rw [if_pos ended] at heq
      rw [heq] at he
      exact not_holds_of_mem rows he (isHeld_iff.mp held).1 (by intro hby; cases hby)
    · exact gone.elim
  | @completed before c _ write call =>
    obtain ⟨-, -, ⟨d, -, hp, -, hd⟩ | ⟨-, hnone, -⟩⟩ := completeAttempt_ok call
    · have held := (Bool.and_eq_true_iff.mp hp).1
      refine not_holds_of_mem rows hd (isHeld_iff.mp held).1 ?_
      unfold Delivery.apply
      rw [write.drops_claim.1]
      intro hby
      cases hby
    · cases hnone
  | @takenOver g now limit lease batch x other call hx same =>
    obtain ⟨-, till, -, -, hbatch, -⟩ := claimDue_ok call
    obtain ⟨hmem, d, -, -, rfl⟩ := hbatch x hx
    exact not_holds_of_mem rows hmem same fun hby => other (Option.some.inj hby)

end Store

namespace Fleet

variable {crew : Crew} {f : Fleet} {h id : Uuid} {a : Act}

def Returns (crew : Crew) (f : Fleet) (h id : Uuid) (a : Act) : Prop :=
  ∃ now batch t, a = .scan h now ∧ f.workers h = [] ∧ Scan.claim (crew.scheduler h) now f.store = .ok (batch, t) ∧
    ∃ d ∈ batch, d.id = id

def DropsClaims (f : Fleet) : Prop :=
  ∀ h, ∀ k ∈ f.workers h, ∀ c, k.stage = .reporting c → c.claimedBy = some none

theorem drops_after (crew : Crew) (acts : List Act) : DropsClaims (after crew acts) := fun h k hk c hc =>
  ((keeps_after crew.allows_max acts).writes h k hk c hc).drops_claim.1

/-- A claim comes to a scheduler by its own scans, and stays otherwise where it is. -/
theorem Touched.held {d e : Delivery} (drops : DropsClaims f) (byScans : a.claimsByHand = false)
    (touched : Touched crew f a d e) (held : e.claimedBy = some h) :
    Returns crew f h d.id a ∨ d.claimedBy = some h ∧ e = { d with claimedUntil := e.claimedUntil } := by
  cases touched with
  | same => exact .inr ⟨held, rfl⟩
  | claimedByHand | renewedByHand => cases byScans
  | @claimed g now till _ batch t idle call _ returned =>
    obtain rfl : g = h := Option.some.inj held
    exact .inl ⟨now, batch, t, rfl, idle, call, _, returned, rfl⟩
  | @renewed g now till _ x _ _ hby =>
    obtain rfl : g = h := Option.some.inj held
    rw [Delivery.apply_renewed hby]
    exact .inr ⟨hby, rfl⟩
  | releasedByHand | handedBack | expired | retried => cases held
  | recorded turn =>
    unfold Delivery.apply at held
    rw [drops _ _ (mem_of_active turn) _ rfl] at held
    cases held

theorem Added.unheld {d : Delivery} (added : Added f a d) : d.claimedBy = none := by
  obtain ⟨_, _, _, _, _, _, _, x, _, rfl⟩ := added
  rfl

/-- A claim that is lost stays lost under every action but a scan that returns the delivery. -/
theorem unheld_step (drops : DropsClaims f) (byScans : a.claimsByHand = false) (noReturn : ¬ Returns crew f h id a)
    (unheld : ¬ f.store.Holds h id) : ¬ (f.step crew a).store.Holds h id := by
  rintro ⟨e, he, held⟩
  obtain ⟨rfl, hby⟩ := Store.isHeld_iff.mp held
  obtain ⟨d, hd, touched⟩ | added := (step_rows crew f a).origin he
  · rw [touched.id_eq] at noReturn unheld
    obtain back | ⟨hdby, -⟩ := touched.held drops byScans hby
    · exact noReturn back
    · exact unheld ⟨d, hd, Store.isHeld_iff.mpr ⟨rfl, hdby⟩⟩
  · cases added.unheld.symm.trans hby

theorem unheld_after {before later : List Act} (regular : Regular (before ++ later))
    (unheld : ¬ (after crew before).store.Holds h id)
    (noReturn : ∀ mid b rest, later = mid ++ b :: rest → ¬ Returns crew (after crew (before ++ mid)) h id b) :
    ¬ (after crew (before ++ later)).store.Holds h id := by
  induction later using List.reverseRecOn with
  | nil =>
    rw [List.append_nil]
    exact unheld
  | append_singleton later b ih =>
    rw [← List.append_assoc] at regular ⊢
    rw [after_concat]
    have earlier := ih regular.left fun mid c rest hmid =>
      noReturn mid c (rest ++ [b]) (by rw [hmid, List.append_assoc]; rfl)
    exact unheld_step (drops_after crew _) regular.last.1 (noReturn later b [] rfl) earlier

/-! ### Copies -/

/-- A delivery that a scheduler holds is, but for the end of the claim, the copy that its worker has. -/
def Fenced (f : Fleet) : Prop :=
  ∀ h, ∀ k ∈ f.workers h, ∀ d ∈ f.store.deliveries, d.id = k.delivery.id → d.claimedBy = some h →
    d = { k.delivery with claimedUntil := d.claimedUntil }

theorem Fenced.step (fenced : Fenced f) (drops : DropsClaims f) (byScans : a.claimsByHand = false)
    (distinct : Distinct (f.step crew a)) : Fenced (f.step crew a) := by
  intro h j hj e he hid held
  -- the worker either had its copy before the action, or got it by the scan that the action is
  have copied : (∃ k ∈ f.workers h, k.delivery = j.delivery) ∨ j.delivery ∈ (f.step crew a).store.deliveries := by
    obtain old | ⟨k, hk, move⟩ | ⟨now, batch, -, -, call, hbatch, -⟩ := worker_origin hj
    · exact .inl ⟨j, old, rfl⟩
    · exact .inl ⟨k, hk, move.delivery_eq.symm⟩
    · obtain ⟨-, till, -, -, hmem, -⟩ := Store.claimDue_ok call
      exact .inr (hmem _ hbatch).1
  obtain ⟨k, hk, hkj⟩ | stored := copied
  · rw [← hkj] at hid ⊢
    obtain ⟨d, hd, touched⟩ | added := (step_rows crew f a).origin he
    · obtain ⟨now, batch, t, -, idle, -⟩ | ⟨hdby, heq⟩ := touched.held drops byScans held
      · rw [idle] at hk
        cases hk
      · have copy := fenced h k hk d hd (touched.id_eq.symm.trans hid) hdby
        rw [copy] at heq
        exact heq
    · cases added.unheld.symm.trans held
  · rw [distinct.row_eq he stored hid]

theorem fenced_after {acts : List Act} (regular : Regular acts) : Fenced (after crew acts) := by
  induction acts using List.reverseRecOn with
  | nil => intro h k hk; cases hk
  | append_singleton acts a ih =>
    have distinct := (distinct_after crew regular).1
    rw [after_concat] at distinct ⊢
    exact (ih regular.left).step (drops_after crew acts) regular.last.1 distinct

/-- In every regular run, whatever its clocks, its order of calls and the policies of its schedulers: a worker whose
write is accepted overwrites the delivery of its copy, but for the end of the claim; and from the end of a claim on until
a scan of its own returns the delivery again, every call of a scheduler for it comes to nothing. -/
theorem fenced_writes (crew : Crew) {acts : List Act} (regular : Regular acts) (h : Uuid) :
    (∀ k ∈ (after crew acts).workers h, ∀ c written t,
      (after crew acts).store.completeAttempt k.delivery.id h c = .ok (some written, t) →
        ∃ d, (after crew acts).store.getDelivery k.delivery.id = .ok (some d) ∧
          d = { k.delivery with claimedUntil := d.claimedUntil } ∧ written = d.apply c) ∧
    ∀ before a later id, acts = before ++ a :: later →
      Store.EndsClaim (crew.policy h) (after crew before).store (after crew (before ++ [a])).store h id →
      (∀ mid b rest, later = mid ++ b :: rest → ¬ Returns crew (after crew (before ++ a :: mid)) h id b) →
      let s := (after crew acts).store
      ∀ till c, s.renewClaim id h till = s.whenOnline (.ok (false, s)) ∧
        s.releaseClaim id h = s.whenOnline (.ok (false, s)) ∧
        s.completeAttempt id h c = s.whenOnline (.ok (none, s)) := by
  refine ⟨?_, ?_⟩
  · intro k hk c written t call
    obtain ⟨online, -⟩ := Store.whenOnline_ok call
    obtain ⟨-, -, ⟨d, hd, hp, hwritten, -⟩ | ⟨-, hnone, -⟩⟩ := Store.completeAttempt_ok call
    · obtain ⟨hid, hby⟩ := Store.isHeld_iff.mp (Bool.and_eq_true_iff.mp hp).1
      refine ⟨d, ?_, fenced_after regular h k hk d hd hid hby, Option.some.inj hwritten⟩
      rw [← hid]
      exact (distinct_after crew regular).1.getDelivery hd online
    · cases hnone
  · intro before a later id hacts ends noReturn s till c
    have split : acts = (before ++ [a]) ++ later := by rw [hacts, List.append_assoc]; rfl
    rw [split] at regular
    have ended := ends.unheld (distinct_after crew regular.left).1.rows
    have unheld := unheld_after regular ended fun mid b rest hmid => by
      rw [List.append_assoc]
      exact noReturn mid b rest hmid
    rw [← split] at unheld
    exact Store.unheld_calls (Store.not_holds_iff.mp unheld) till c

/-- The first scheduler is slow, its lease ends, and another takes the delivery over. -/
def Sample.takenOver : List Act := Sample.claimed ++ [.scan Sample.south (Sample.second 100)]

theorem fenced_writes_takenOver :
    let s := (after Sample.crew Sample.takenOver).store
    (∃ k ∈ (after Sample.crew Sample.takenOver).workers Sample.south, ∃ d,
      s.getDelivery k.delivery.id = .ok (some d) ∧ d = { k.delivery with claimedUntil := d.claimedUntil }) ∧
    ∀ c, s.completeAttempt Sample.parcel Sample.north c = s.whenOnline (.ok (none, s)) := by
  intro s
  have regular : Regular Sample.takenOver := ⟨by decide +kernel, by decide +kernel⟩
  have taken : ∃ k ∈ (after Sample.crew Sample.takenOver).workers Sample.south, k.delivery.id = Sample.parcel := by
    decide +kernel
  obtain ⟨k, hk, hid⟩ := taken
  refine ⟨⟨k, hk, ?_⟩, fun c => ?_⟩
  · have writes : ((s.completeAttempt Sample.parcel Sample.south .release).toOption.bind (·.1)).isSome = true := by
      decide +kernel
    cases call : s.completeAttempt Sample.parcel Sample.south .release with
    | error e =>
      rw [call] at writes
      cases writes
    | ok r =>
      obtain ⟨_ | written, t⟩ := r
      · rw [call] at writes
        cases writes
      · rw [← hid] at call
        obtain ⟨d, stored, copy, -⟩ := (fenced_writes Sample.crew regular Sample.south).1 k hk .release written t call
        exact ⟨d, stored, copy⟩
  · have idle : (after Sample.crew Sample.claimed).workers Sample.south = [] := by decide +kernel
    have ends : Store.EndsClaim (Sample.crew.policy Sample.north) (after Sample.crew Sample.claimed).store s
        Sample.north Sample.parcel := by
      obtain old | ⟨j, old, -⟩ | ⟨now, batch, -, -, call, hbatch, -⟩ := worker_origin (after_concat .. ▸ hk)
      · rw [idle] at old
        cases old
      · rw [idle] at old
        cases old
      · rw [← after_concat] at call
        exact .takenOver (by decide) call hbatch hid
    exact ((fenced_writes Sample.crew regular Sample.north).2 Sample.claimed _ [] Sample.parcel rfl ends
      (fun mid b rest h => by simp at h) (Sample.second 101) c).2.2

end Fleet

end Courier
