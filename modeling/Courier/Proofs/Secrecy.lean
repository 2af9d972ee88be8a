import Courier.Proofs.Masks
import Courier.Request
set_option autoImplicit false

namespace Courier

namespace Headers

variable (name : String)

def maskedEntry (e : String × String) : String × String := (e.1, if e.1 = name then hidden else e.2)

def masked (h : Headers) : Headers := h.map (maskedEntry name)

theorem putMember_masked (n v : String) (h : Headers) :
    (Json.putMember n v h).map (maskedEntry name) =
      Json.putMember n (maskedEntry name (n, v)).2 (h.map (maskedEntry name)) := by
  induction h with
  | nil => rfl
  | cons e h ih =>
    obtain ⟨k, u⟩ := e
    simp only [List.map_cons, Json.putMember, maskedEntry]
    split
    · rfl
    · split
      · rfl
      · exact congrArg (_ :: ·) ih

theorem foldl_set_masked (entries : List (String × String)) (h : Headers) :
    (entries.foldl (fun h e => h.set e.1 e.2) h).masked name =
      (entries.map (maskedEntry name)).foldl (fun h e => h.set e.1 e.2) (h.masked name) := by
  induction entries generalizing h with
  | nil => rfl
  | cons e entries ih =>
    rw [List.map_cons, List.foldl_cons, List.foldl_cons, ih]
    have first : (h.set e.1 e.2).masked name = (h.masked name).set (maskedEntry name e).1 (maskedEntry name e).2 :=
      putMember_masked name e.1 e.2 h
    rw [first]

end Headers

def Request.masked (name : String) (r : Request) : Request := { r with headers := r.headers.masked name }

namespace Sender

variable (s : Sender) (d : Delivery) (w : Webhook)

theorem reservedHeaders_masked (n : Word32) :
    (s.reservedHeaders d w.masked n).map (Headers.maskedEntry s.signatureHeader) =
      (s.reservedHeaders d w n).map (Headers.maskedEntry s.signatureHeader) := by
  simp [reservedHeaders, Headers.maskedEntry]

theorem headers_masked : (s.headers d w.masked).map (Headers.masked s.signatureHeader) =
    (s.headers d w).map (Headers.masked s.signatureHeader) := by
  unfold headers
  cases d.attempts.add? 1 with
  | none => rfl
  | some n =>
    have own : ownHeaders w.masked = ownHeaders w := rfl
    have set := (Headers.foldl_set_masked s.signatureHeader (s.reservedHeaders d w.masked n) (ownHeaders w)).trans
      ((congrArg _ (s.reservedHeaders_masked d w n)).trans
        (Headers.foldl_set_masked s.signatureHeader (s.reservedHeaders d w n) (ownHeaders w)).symm)
    simp only [Except.map, own]
    rw [set]

/-- The request but for a value under one header follows from the headers but for this value. -/
theorem request_of_headers (name : String) : (s.request d w).map (Except.map (Request.masked name)) =
    ((s.headers d w).map (Headers.masked name)).map fun headers =>
      match Url.parse w.url with
      | .error f => .error (.url f)
      | .ok url =>
        if String.ofList url.scheme = "http" ∨ String.ofList url.scheme = "https" then
          .ok { url, headers, body := d.payload }
        else .error (.scheme url) := by
  unfold request
  cases s.headers d w with
  | error => rfl
  | ok h =>
    dsimp only
    cases Url.parse w.url with
    | error => rfl
    | ok url =>
      dsimp only
      by_cases web : String.ofList url.scheme = "http" ∨ String.ofList url.scheme = "https"
      · simp only [if_pos web]
        rfl
      · simp only [if_neg web]
        rfl

theorem request_masked : (s.request d w.masked).map (Except.map (Request.masked s.signatureHeader)) =
    (s.request d w).map (Except.map (Request.masked s.signatureHeader)) := by
  rw [request_of_headers, request_of_headers, headers_masked]
  rfl

end Sender

/-! ### What is written out and what is stored -/

namespace Webhook

theorem masked_rekeyed (w : Webhook) (key : String) : ({ w with secret := key } : Webhook).masked = w.masked := rfl

end Webhook

theorem Dispatch.created_masked {s t : Store} (alike : s.masked = t.masked) (e : Event) (dueAt : Instant)
    (ids : Nat → Uuid) (now : Instant) :
    (Dispatch.run s e dueAt ids now).map Prod.fst = (Dispatch.run t e dueAt ids now).map Prod.fst := by
  have created : ∀ u : Store, (Dispatch.run u e dueAt ids now).map Prod.fst =
      (Dispatch.run u.masked e dueAt ids now).map Prod.fst := by
    intro u
    rw [← Dispatch.run_masked]
    cases Dispatch.run u e dueAt ids now <;> rfl
  rw [created s, created t, alike]

namespace Fleet

variable {crew : Crew} {f g : Fleet}

theorem deliveries_masked (alike : f.masked = g.masked) : f.store.deliveries = g.store.deliveries :=
  congrArg (·.store.deliveries) alike

theorem reporting_masked (h id : Uuid) (d : Delivery) (change : Change) :
    f.active? h id = some ⟨d, .reporting change⟩ ↔ f.masked.active? h id = some ⟨d, .reporting change⟩ := by
  rw [active?_masked]
  cases f.active? h id with
  | none => simp
  | some k =>
    obtain ⟨x, stage⟩ := k
    cases stage <;> simp [Worker.masked, Worker.Stage.masked]

/-- Whatever the secret of a webhook is, its record is written out the same and its requests are the same but for the
value under the signature header. Whatever the secrets in a store are, an event is dispatched to the same webhooks as
the same deliveries, and runs with the same outcomes store the same deliveries and write back the same changes. -/
theorem secrets_only_sign :
    (∀ (w : Webhook) (key : String),
      Webhook.schema.print { w with secret := key } = Webhook.schema.print w ∧
        Webhook.customHeaders { w with secret := key } = w.customHeaders ∧
        ∀ (s : Sender) (d : Delivery),
          (s.headers d { w with secret := key }).map (Headers.masked s.signatureHeader) =
            (s.headers d w).map (Headers.masked s.signatureHeader) ∧
          (s.request d { w with secret := key }).map (Except.map (Request.masked s.signatureHeader)) =
            (s.request d w).map (Except.map (Request.masked s.signatureHeader))) ∧
      (∀ s t : Store, s.masked = t.masked → ∀ e : Event,
        (Dispatch.targets s e).map (List.map Webhook.masked) = (Dispatch.targets t e).map (List.map Webhook.masked) ∧
          ∀ dueAt ids now,
            (Dispatch.run s e dueAt ids now).map Prod.fst = (Dispatch.run t e dueAt ids now).map Prod.fst) ∧
      ∀ (crew : Crew) (f g : Fleet) (acts others : List Act), f.masked = g.masked →
        acts.map Act.masked = others.map Act.masked →
          (f.run crew acts).store.deliveries = (g.run crew others).store.deliveries ∧
            ∀ h id d change, (f.run crew acts).active? h id = some ⟨d, .reporting change⟩ ↔
              (g.run crew others).active? h id = some ⟨d, .reporting change⟩ := by
  refine ⟨fun w key => ⟨rfl, rfl, fun s d => ?_⟩, fun s t alike e => ⟨?_, fun dueAt ids now => ?_⟩,
    fun crew f g acts others alike same => ?_⟩
  · have headers := s.headers_masked d { w with secret := key }
    have request := s.request_masked d { w with secret := key }
    rw [Webhook.masked_rekeyed] at headers request
    exact ⟨headers.symm.trans (s.headers_masked d w), request.symm.trans (s.request_masked d w)⟩
  · rw [Dispatch.targets_masked, Dispatch.targets_masked, alike]
  · exact Dispatch.created_masked alike e dueAt ids now
  · have ends : (f.run crew acts).masked = (g.run crew others).masked := by
      rw [run_masked, run_masked, alike, same]
    refine ⟨deliveries_masked ends, fun h id d change => ?_⟩
    rw [reporting_masked, ends, ← reporting_masked]

namespace Sample

def rekeyed : Registration := { registration with secret := "0ther" }

def answeredFor (r : Registration) : List Act :=
  [.createWebhook r hook (second 0),
    .dispatch ⟨"page.published", second 0, .null⟩ (second 0) [r.toWebhook hook (second 0)] (fun _ => parcel) (second 0),
    .scan north (second 1), .start north parcel false (second 1), .look north parcel,
    .answer north parcel unavailable (second 2)]

end Sample

open Sample in
theorem secrets_only_sign_rekeyed :
    ((initial.run Sample.crew (answeredFor registration)).store.webhooks.map (·.secret) = ["s3cret"] ∧
      (initial.run Sample.crew (answeredFor rekeyed)).store.webhooks.map (·.secret) = ["0ther"]) ∧
      (initial.run Sample.crew (answeredFor registration)).store.deliveries =
        (initial.run Sample.crew (answeredFor rekeyed)).store.deliveries := by
  have same :=
    secrets_only_sign.2.2 Sample.crew initial initial (answeredFor registration) (answeredFor rekeyed) rfl rfl
  exact ⟨⟨by decide +kernel, by decide +kernel⟩, same.1⟩

end Fleet

end Courier
