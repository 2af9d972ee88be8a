import Courier.Proofs.Ledger
import Courier.Proofs.RequestHeaders
set_option autoImplicit false

namespace Courier

theorem Worker.look_ne_renewed (sch : Scheduler) (d : Delivery) (found : Except Store.Error (Option Webhook)) :
    look sch d found ≠ .renewed := by
  unfold look judge
  intro looked
  repeat' split at looked
  all_goals cases looked

namespace Ledger

open Fleet

variable {crew : Crew} {l : Ledger} {issued : List Uuid} {acts : List Act} {h id : Uuid} {d : Delivery}
  {w : Webhook}

/-- What the deliverer is called for if the worker of a scheduler on a delivery looks the webhook up now. -/
def sends? (crew : Crew) (l : Ledger) (h id : Uuid) : Option (Delivery × Webhook) :=
  match l.fleet.active? h id with
  | some ⟨d, .renewed⟩ =>
    match Worker.look (crew.scheduler h) d (l.fleet.store.getWebhook d.webhookId) with
    | .sending w => some (d, w)
    | _ => none
  | _ => none

theorem sends?_eq_some (sends : l.sends? crew h id = some (d, w)) :
    l.fleet.active? h id = some ⟨d, .renewed⟩ ∧
      Worker.look (crew.scheduler h) d (l.fleet.store.getWebhook d.webhookId) = .sending w := by
  unfold sends? at sends
  split at sends
  · rename_i x turn
    split at sends
    · rename_i v looked
      cases sends
      exact ⟨turn, looked⟩
    · cases sends
  · cases sends

/-! ### Renewals -/

/-- The worker renewed its claim on the delivery at an earlier action and has stood there since. -/
def Renewed (crew : Crew) (acts : List Act) (h : Uuid) (d : Delivery) : Prop :=
  ∃ before now till t later, acts = before ++ .start h d.id false now :: later ∧
    (after crew before).fleet.active? h d.id = some ⟨d, .waiting⟩ ∧
    Worker.claimEnd? (crew.config h) now = some till ∧
    (after crew before).fleet.store.renewClaim d.id h till = .ok (true, t) ∧
    (after crew before).recorded d.id = d.attempts.val ∧
    ∀ mid rest, later = mid ++ rest →
      ⟨d, .renewed⟩ ∈ (after crew (before ++ .start h d.id false now :: mid)).fleet.workers h

/-- While a scheduler holds a delivery the count of its copy is right. -/
theorem Kept.counted_copy (kept : Kept crew issued l) {k : Worker} (hk : k ∈ l.fleet.workers h)
    (holds : l.fleet.store.Holds h k.delivery.id) : l.recorded k.delivery.id = k.delivery.attempts.val := by
  obtain ⟨d, hd, held⟩ := holds
  obtain ⟨hid, hby⟩ := Store.isHeld_iff.mp held
  have copied : d.attempts = k.delivery.attempts := by
    rw [kept.fenced h k hk d hd hid hby]
  rw [← hid, ← copied]
  exact (kept.counted d hd).symm

theorem renewed_after (regular : Regular acts) (ready : ⟨d, .renewed⟩ ∈ (after crew acts).fleet.workers h) :
    Renewed crew acts h d := by
  induction acts using List.reverseRecOn with
  | nil => cases ready
  | append_singleton acts a ih =>
    have stepped := ready
    rw [after_concat] at stepped
    obtain old | ⟨k, -, move⟩ | ⟨now, batch, -, -, -, -, waits⟩ := worker_origin stepped
    · obtain ⟨before, now, till, t, later, rfl, turn, lease, call, counted, stands⟩ := ih regular.left old
      refine ⟨before, now, till, t, later ++ [a], by simp, turn, lease, call, counted, fun mid rest split => ?_⟩
      obtain rfl | ⟨rest, b, rfl⟩ := rest.eq_nil_or_concat
      · rw [List.append_nil] at split
        subst split
        simpa using ready
      · rw [List.concat_eq_append, ← List.append_assoc] at split
        exact stands mid rest (List.append_inj_left' split rfl)
    · generalize hj : (⟨d, .renewed⟩ : Worker) = j at move
      cases move with
      | renewed turn lease call =>
        obtain ⟨rfl, -⟩ := Worker.mk.inj hj
        have kept := kept_after crew regular.left
        obtain ⟨-, -, ⟨x, hx, held, -⟩ | ⟨-, unheld, -⟩⟩ := Store.renewClaim_ok call
        · refine ⟨acts, _, _, _, [], rfl, turn, lease, call, kept.counted_copy (mem_of_active turn) ⟨x, hx, held⟩,
            fun mid rest split => ?_⟩
          obtain ⟨rfl, -⟩ := List.append_eq_nil_iff.mp split.symm
          exact ready
        · cases unheld
      | looked => exact absurd (Worker.mk.inj hj).2.symm (Worker.look_ne_renewed _ _ _)
      | answered _ call =>
        obtain ⟨c, -, rfl⟩ := Worker.answer_ok call
        cases hj
    · cases waits

/-! ### What was created -/

theorem created_subset (crew : Crew) (before later : List Act) :
    (after crew before).created ⊆ (after crew (before ++ later)).created := by
  induction later using List.reverseRecOn with
  | nil => rw [List.append_nil]; exact List.Subset.refl _
  | append_singleton later a ih =>
    rw [← List.append_assoc, after_concat]
    exact fun x hx => List.mem_append_left _ (ih hx)

/-- Two copies of one delivery, at whatever times, carry the same. -/
theorem copies_agree (regular : Regular acts) {before later : List Act} (split : acts = before ++ later) {g : Uuid}
    {j k : Worker} (hj : j ∈ (after crew before).fleet.workers g) (hk : k ∈ (after crew acts).fleet.workers h)
    (same : j.delivery.id = k.delivery.id) : j.delivery.payload = k.delivery.payload := by
  subst split
  have kept := kept_after crew regular
  obtain ⟨y, hy, early⟩ := (kept_after crew regular.left).copies g j hj
  obtain ⟨x, hx, late⟩ := kept.copies h k hk
  obtain rfl : y = x := List.inj_on_of_nodup_map kept.ids (created_subset crew before later hy) hx
    (early.id.symm.trans (same.trans late.id))
  exact early.payload.trans late.payload.symm

/-- In every regular run, whenever a worker calls the deliverer: the webhook is the stored one and active, the attempts
are below the limit of the scheduler, and the worker has renewed its claim. The count of attempts is the number of the
outcomes recorded as of the renewal, and from then on for as long as the worker is at work and the claim is not lost.
The delivery carries what it was created with, and the number of the attempt is sent. What any two requests for the
delivery carry under one secret is the same, the signature too unless its header is set again. -/
theorem sent_as_stored (crew : Crew) (regular : Regular acts)
    (sends : (after crew acts).sends? crew h id = some (d, w)) :
    let l := after crew acts
    d.id = id ∧ l.fleet.store.getWebhook d.webhookId = .ok (some w) ∧ w.active = true ∧
      d.attempts.val < crew.limit h ∧ Renewed crew acts h d ∧
      (∀ present stage, acts <+: present → Regular present → ⟨d, stage⟩ ∈ (after crew present).fleet.workers h →
        (after crew present).fleet.store.Holds h d.id → (after crew present).recorded d.id = d.attempts.val) ∧
      (∃ x ∈ l.created, x.StemsFrom d) ∧
      (∀ s : Sender, ∃ hs, s.headers d w = .ok hs ∧
        hs.get? attemptHeader = some (String.ofList (Decimal.ofInt (d.attempts.val + 1)))) ∧
      ∀ before later g e v, acts = before ++ later → (after crew before).sends? crew g id = some (e, v) →
        v.secret = w.secret → ∀ (s t : Sender) (r q : Request),
          s.request e v = .ok (.ok r) → t.request d w = .ok (.ok q) → r.body = q.body ∧
            (s.signatureHeader ∉ Sender.laterHeaders → t.signatureHeader ∉ Sender.laterHeaders →
              ∃ signature, r.headers.get? s.signatureHeader = some signature ∧
                q.headers.get? t.signatureHeader = some signature) := by
  intro l
  have kept := kept_after crew regular
  obtain ⟨turn, looked⟩ := sends?_eq_some sends
  have hid := id_of_active turn
  have ready := mem_of_active turn
  obtain ⟨found, active, below⟩ := Worker.look_sending looked
  refine ⟨hid, found, active, below, renewed_after regular ready,
    fun present stage _ regular' at_work => (kept_after crew regular').counted_copy at_work, kept.copies h _ ready,
    fun s => ?_, ?_⟩
  · have fits : d.attempts.val < 2147483647 := Int.lt_of_lt_of_le below (crew.policy h).maxAttempts.le_hi
    obtain ⟨hs, ok⟩ := s.headers_total w fits
    exact ⟨hs, ok, Sender.attempt_sent ok⟩
  · intro before later g e v split earlier secret s t r q first second
    obtain ⟨turn', -⟩ := sends?_eq_some earlier
    have payload : e.payload = d.payload :=
      copies_agree regular split (mem_of_active turn') ready ((id_of_active turn').trans hid.symm)
    obtain ⟨headers, body⟩ := Sender.request_ok first
    obtain ⟨headers', body'⟩ := Sender.request_ok second
    refine ⟨body.trans (payload.trans body'.symm), fun apart apart' => ?_⟩
    refine ⟨_, Sender.signature_sent headers apart, ?_⟩
    rw [secret, payload]
    exact Sender.signature_sent headers' apart'

namespace Sample

open Fleet.Sample

def ledger (acts : List Act) : Ledger := after Fleet.Sample.crew acts

def renewed : List Act := claimed ++ [.start north parcel false (second 1)]

def retrying : List Act := renewed ++ [.look north parcel, .answer north parcel unavailable (second 2),
  .report north parcel, .scan north (second 100), .start north parcel false (second 100)]

/-- Between the renewal of one scheduler and its request the lease ends, and another scheduler makes an attempt. -/
def overtaken : List Act := renewed ++ [.scan south (second 100), .start south parcel false (second 100),
  .look south parcel, .answer south parcel unavailable (second 101), .report south parcel]

end Sample

open Sample Fleet.Sample

theorem sent_as_stored_retried :
    ∃ d w e v, (ledger retrying).sends? Fleet.Sample.crew north parcel = some (d, w) ∧
      (ledger renewed).sends? Fleet.Sample.crew north parcel = some (e, v) ∧
      d.attempts.val = 1 ∧ (ledger retrying).recorded d.id = 1 ∧
      ∀ s t : Sender, (∃ hs, t.headers d w = .ok hs ∧ hs.get? attemptHeader = some "2") ∧
        ∀ r q : Request, s.request e v = .ok (.ok r) → t.request d w = .ok (.ok q) → r.body = q.body := by
  have regular : Regular retrying := ⟨by decide +kernel, by decide +kernel⟩
  have second : ((ledger retrying).sends? Fleet.Sample.crew north parcel).map
      (fun x => (x.1.attempts.val, x.1.id, x.2.secret)) = some (1, parcel, "s3cret") := by decide +kernel
  have first : ((ledger renewed).sends? Fleet.Sample.crew north parcel).map (·.2.secret) = some "s3cret" := by
    decide +kernel
  have held : ∃ d ∈ (ledger retrying).fleet.store.deliveries, Store.isHeld parcel north d = true := by decide +kernel
  obtain ⟨⟨d, w⟩, sends, told⟩ := Option.map_eq_some_iff.mp second
  obtain ⟨⟨e, v⟩, earlier, secret⟩ := Option.map_eq_some_iff.mp first
  simp only [Prod.mk.injEq] at told
  obtain ⟨once, hid, secret'⟩ := told
  obtain ⟨-, -, -, -, -, counted, -, numbered, agree⟩ := sent_as_stored Fleet.Sample.crew regular sends
  refine ⟨d, w, e, v, sends, earlier, once, ?_, fun s t => ⟨?_, fun r q asked again => ?_⟩⟩
  · have at_work := mem_of_active (sends?_eq_some sends).1
    have recorded := counted retrying _ List.prefix_rfl regular at_work (hid ▸ held)
    change ((ledger retrying).recorded d.id : Int) = _ at recorded
    rw [once] at recorded
    exact Int.ofNat.inj recorded
  · obtain ⟨hs, ok, sent⟩ := numbered t
    refine ⟨hs, ok, ?_⟩
    rw [sent, once]
    decide +kernel
  · exact (agree renewed _ north e v rfl earlier (secret.trans secret'.symm) s t r q asked again).1

/-- A worker may send from a copy that counts less than is recorded: one outcome here, and the request counts none. -/
theorem takeover_outdates_count : Regular overtaken ∧ ∃ d w,
    (ledger overtaken).sends? Fleet.Sample.crew north parcel = some (d, w) ∧ d.attempts.val = 0 ∧
      (ledger overtaken).recorded d.id = 1 := by
  have counts : ((ledger overtaken).sends? Fleet.Sample.crew north parcel).map
      (fun x => (x.1.attempts.val, (ledger overtaken).recorded x.1.id)) = some (0, 1) := by decide +kernel
  obtain ⟨⟨d, w⟩, sends, told⟩ := Option.map_eq_some_iff.mp counts
  obtain ⟨unmade, recorded⟩ := Prod.mk.inj told
  exact ⟨⟨by decide +kernel, by decide +kernel⟩, d, w, sends, unmade, recorded⟩

end Ledger

end Courier
