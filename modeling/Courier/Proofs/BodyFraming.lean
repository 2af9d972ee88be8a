import Courier.Proofs.SignedRequests
import Courier.Proofs.Subscriptions
import Mathlib.Data.List.TakeDrop
set_option autoImplicit false

namespace Courier

def Header.length? (value : String) : Option Nat :=
  if value ≠ "" ∧ value.toList.all Decimal.isDigit then some (Decimal.value value.toList) else none

namespace Headers

def codingHeader : String := "transfer-encoding"

def lengthHeader : String := "content-length"

/-- No transfer coding is named, and no length but that of the body. -/
def Frames (h : Headers) (body : List UInt8) : Prop :=
  h.get? codingHeader = none ∧ ∀ v, h.get? lengthHeader = some v → Header.length? v = some body.length

/-- What the receiver reads of a body: a coding that is named is undone, a length that is named cuts the body off or
leaves it incomplete. Where neither is named, the client names the length of the body. -/
def received (decode : String → List UInt8 → Option (List UInt8)) (h : Headers) (body : List UInt8) :
    Option (List UInt8) :=
  match h.get? codingHeader with
  | some coding => decode coding body
  | none =>
    match h.get? lengthHeader with
    | none => some body
    | some v => (Header.length? v).bind fun n => if n ≤ body.length then some (body.take n) else none

variable {h : Headers} {body : List UInt8}

theorem received_of_frames (frames : h.Frames body) (decode : String → List UInt8 → Option (List UInt8)) :
    h.received decode body = some body := by
  obtain ⟨uncoded, length⟩ := frames
  unfold received
  rw [uncoded]
  cases hlength : h.get? lengthHeader with
  | none => rfl
  | some v => simp [length v hlength]

theorem frames_of_received {decode : String → List UInt8 → Option (List UInt8)} (uncoded : h.get? codingHeader = none)
    (whole : h.received decode body = some body) : h.Frames body := by
  refine ⟨uncoded, fun v hv => ?_⟩
  unfold received at whole
  rw [uncoded, hv] at whole
  obtain ⟨n, hn, cut⟩ := Option.bind_eq_some_iff.mp whole
  split at cut
  · have least := (List.take_eq_self_iff body).mp (Option.some.inj cut)
    rw [hn, show n = body.length by omega]
  · cases cut

theorem received_iff_frames : (∀ decode, h.received decode body = some body) ↔ h.Frames body := by
  refine ⟨fun whole => ?_, received_of_frames⟩
  -- under a coding nothing need be read, so that there is none
  have uncoded : h.get? codingHeader = none := by
    cases coded : h.get? codingHeader with
    | none => rfl
    | some coding =>
      have unread := whole fun _ _ => none
      simp [received, coded] at unread
  exact frames_of_received uncoded (whole fun _ _ => none)

theorem get?_setIfValid (h : Headers) (e : String × String) (n : String) : (h.setIfValid e).get? n =
    if Header.name? e.1 = some n ∧ Header.isValue e.2 = true then some e.2 else h.get? n := by
  unfold setIfValid
  cases hname : Header.name? e.1 with
  | none => simp
  | some k =>
    by_cases value : Header.isValue e.2 = true
    · simp only [value, if_true, get?_set, Option.some.injEq, and_true, eq_comm]
    · simp [value]

theorem get?_foldl_set {entries : List (String × String)} {n : String} (apart : n ∉ entries.map (·.1)) (h : Headers) :
    (entries.foldl (fun h e => h.set e.1 e.2) h).get? n = h.get? n := by
  induction entries generalizing h with
  | nil => rfl
  | cons e entries ih =>
    simp only [List.map_cons, List.mem_cons, not_or] at apart
    rw [List.foldl_cons, ih apart.2, get?_set, if_neg apart.1]

end Headers

open Headers

theorem Json.mem_of_mem_texts {own : List (String × String)} {e : String × String} (he : e ∈ (Json.ofTexts own).texts) :
    e ∈ own := by
  have kept : ∀ m ∈ Json.sortMembers (own.map fun o => (o.1, Json.string o.2)), ∃ o ∈ own, m = (o.1, Json.string o.2) := by
    refine List.foldlRecOn _ _ (motive := fun ms => ∀ m ∈ ms, ∃ o ∈ own, m = (o.1, Json.string o.2)) (by simp) ?_
    intro ms kept m hm x hx
    rcases mem_putMember hx with rfl | old
    · obtain ⟨o, ho, rfl⟩ := List.mem_map.mp hm
      exact ⟨o, ho, rfl⟩
    · exact kept x old
  obtain ⟨m, hm, told⟩ := List.mem_filterMap.mp he
  obtain ⟨o, ho, rfl⟩ := kept m hm
  cases told
  exact ho

/-- The value that a webhook's own headers have for a name: that of the last entry whose name it is in small letters. -/
def Webhook.header? (w : Webhook) (name : String) : Option String :=
  ((w.customHeaders.filter fun e => Header.name? e.1 = some name ∧ Header.isValue e.2 = true).getLast?).map (·.2)

def Webhook.LeavesFraming (w : Webhook) (body : List UInt8) : Prop :=
  w.header? codingHeader = none ∧ ∀ v, w.header? lengthHeader = some v → Header.length? v = some body.length

def Header.Framing (name : String) : Prop := Header.name? name = some codingHeader ∨ Header.name? name = some lengthHeader

theorem Webhook.leavesFraming_of_apart {w : Webhook} {own : List (String × String)} (given : w.headers = .ofTexts own)
    (apart : ∀ e ∈ own, ¬ Header.Framing e.1) (body : List UInt8) : w.LeavesFraming body := by
  have none_named : ∀ name, (∀ e : String × String, Header.name? e.1 = some name → Header.Framing e.1) →
      w.header? name = none := by
    intro name framing
    have empty : (w.customHeaders.filter fun e => Header.name? e.1 = some name ∧ Header.isValue e.2 = true) = [] := by
      rw [List.filter_eq_nil_iff]
      intro e he named
      rw [Webhook.customHeaders, given] at he
      exact apart e (Json.mem_of_mem_texts he) (framing e (decide_eq_true_iff.mp named).1)
    rw [Webhook.header?, empty]
    rfl
  refine ⟨none_named _ fun e => .inl, fun v hv => ?_⟩
  rw [none_named _ fun e => .inr] at hv
  cases hv

def Request.received (decode : String → List UInt8 → Option (List UInt8)) (r : Request) : Option (List UInt8) :=
  r.headers.received decode (Text.bytes r.body)

namespace Sender

variable {s : Sender} {d : Delivery} {w : Webhook} {h : Headers}

theorem get?_ownHeaders (w : Webhook) (n : String) : (ownHeaders w).get? n = w.header? n := by
  unfold ownHeaders Webhook.header?
  induction w.customHeaders using List.reverseRecOn with
  | nil => rfl
  | append_singleton es e ih =>
    rw [List.foldl_append, List.foldl_cons, List.foldl_nil, get?_setIfValid, List.filter_append, ih]
    by_cases legal : Header.name? e.1 = some n ∧ Header.isValue e.2 = true
    · simp [legal]
    · rw [if_neg legal, List.filter_cons_of_neg (by simpa using legal), List.filter_nil, List.append_nil]

/-- Under a name that is not reserved a request carries what the webhook's own headers say. -/
theorem get?_unreserved (ok : s.headers d w = .ok h) {n : String} (apart : n ≠ s.signatureHeader)
    (free : n ∉ fixedHeaders) : h.get? n = w.header? n := by
  obtain ⟨k, -, rfl⟩ := headers_ok ok
  rw [get?_foldl_set, get?_ownHeaders]
  simp only [fixedHeaders, laterHeaders, List.mem_cons, List.not_mem_nil, or_false, not_or] at free
  simp [reservedHeaders, apart, free]

theorem request_of_addressed (s : Sender) (addressed : Webhook.checkUrl w.url = .ok ())
    (below : d.attempts.val < 2147483647) : ∃ r, s.request d w = .ok (.ok r) := by
  obtain ⟨h, ok⟩ := s.headers_total w below
  unfold Webhook.checkUrl at addressed
  unfold request
  rw [ok]
  cases parsed : Url.parse w.url with
  | error f => simp [parsed] at addressed
  | ok u =>
    have served : String.ofList u.scheme = "http" ∨ String.ofList u.scheme = "https" := by
      simp only [parsed] at addressed
      split at addressed
      · assumption
      · cases addressed
    exact ⟨⟨u, h, d.payload⟩, if_pos served⟩

theorem frames_iff_leavesFraming (ok : s.headers d w = .ok h) (apart : s.signatureHeader ∉ [codingHeader, lengthHeader])
    (body : List UInt8) : h.Frames body ↔ w.LeavesFraming body := by
  simp only [List.mem_cons, List.not_mem_nil, or_false, not_or] at apart
  unfold Frames Webhook.LeavesFraming
  rw [get?_unreserved ok (Ne.symm apart.1) (by decide), get?_unreserved ok (Ne.symm apart.2) (by decide)]

/-- A request has the stored payload for its body, and the signature is for it. How the body is framed is left to the
webhook's own headers: the receiver reads the payload, however it undoes codings, exactly if they name neither a coding
nor another length. -/
structure FramedBy (s : Sender) (d : Delivery) (w : Webhook) (r : Request) : Prop where
  body : r.body = d.payload
  signature : r.headers.get? s.signatureHeader = some (Signature.sign w.secret (Text.bytes r.body))
  frames_iff : r.headers.Frames (Text.bytes r.body) ↔ w.LeavesFraming (Text.bytes r.body)
  received_iff : (∀ decode, r.received decode = some (Text.bytes r.body)) ↔ w.LeavesFraming (Text.bytes r.body)

theorem framedBy_of_request {r : Request} (ok : s.request d w = .ok (.ok r))
    (apart : s.signatureHeader ∉ codingHeader :: lengthHeader :: laterHeaders) : FramedBy s d w r := by
  obtain ⟨made, body⟩ := request_ok ok
  simp only [List.mem_cons, not_or] at apart
  obtain ⟨uncoded, unmeasured, unlater⟩ := apart
  have left := frames_iff_leavesFraming made (by simp [uncoded, unmeasured]) (Text.bytes r.body)
  have signature := signature_sent made unlater
  rw [← body] at signature
  exact ⟨body, signature, left, received_iff_frames.trans left⟩

/-- Whatever headers come with a registration that is accepted with some headers, it is accepted, and all its requests
are made and framed by these headers. If none of them has a name that frames, the receiver reads the payload. -/
theorem framing_left_to_webhook {name url secret : String} {events : List String}
    (accepted : ∃ own reg, Registration.make name url secret events own = .ok reg)
    (apart : s.signatureHeader ∉ codingHeader :: lengthHeader :: laterHeaders) (below : d.attempts.val < 2147483647)
    (own : List (String × String)) (id : Uuid) (now : Instant) :
    ∃ reg, Registration.make name url secret events own = .ok reg ∧
      ∃ r, s.request d (reg.toWebhook id now) = .ok (.ok r) ∧ FramedBy s d (reg.toWebhook id now) r ∧
        ((∀ e ∈ own, ¬ Header.Framing e.1) → ∀ decode, r.received decode = some (Text.bytes d.payload)) := by
  obtain ⟨other, reg, made⟩ := accepted
  obtain ⟨-, checked, limited⟩ := Registration.make_ok_iff.mp made
  refine ⟨_, Registration.make_ok_iff.mpr ⟨rfl, checked, limited⟩, ?_⟩
  obtain ⟨r, ok⟩ := s.request_of_addressed (w := Registration.toWebhook ⟨name, url, secret, _, _, true⟩ id now)
    checked.addressed below
  have framed := framedBy_of_request ok apart
  refine ⟨r, ok, framed, fun unframing => ?_⟩
  rw [← framed.body]
  exact framed.received_iff.mpr (Webhook.leavesFraming_of_apart rfl unframing _)

namespace Sample

theorem make_site (own : List (String × String)) : Registration.make "site" "http://[::1]/" "s3cret" ["*"] own =
    .ok ⟨"site", "http://[::1]/", "s3cret", [some "*"], .ofTexts own, true⟩ := by
  refine Registration.make_ok_iff.mpr ⟨rfl, ⟨by decide, by decide +kernel, by decide, by decide⟩, ?_⟩
  exact ⟨by decide +kernel, fun e he => ⟨"*", List.mem_singleton.mp he, by decide⟩⟩

def headed (own : List (String × String)) : Webhook :=
  Registration.toWebhook ⟨"site", "http://[::1]/", "s3cret", [some "*"], .ofTexts own, true⟩ (.ofNat 1) .first

end Sample

open Sample

theorem framing_left_to_webhook_measured : ∃ r,
    (named "x-site").request page (headed [("X-Blog", "b"), ("Content-Length", "4")]) = .ok (.ok r) ∧
      r.body = "[42]" ∧ ∀ decode, r.received decode = some (Text.bytes r.body) := by
  obtain ⟨reg, made, r, hr, framed, -⟩ := framing_left_to_webhook (s := named "x-site") (d := page)
    ⟨_, _, make_site []⟩ (by decide) (by decide) [("X-Blog", "b"), ("Content-Length", "4")] (.ofNat 1) .first
  obtain rfl := Except.ok.inj ((make_site _).symm.trans made)
  have uncoded : (headed [("X-Blog", "b"), ("Content-Length", "4")]).header? codingHeader = none := by decide +kernel
  have measured : (headed [("X-Blog", "b"), ("Content-Length", "4")]).header? lengthHeader = some "4" := by
    decide +kernel
  have length : Header.length? "4" = some (Text.bytes r.body).length := by
    rw [framed.body]
    decide +kernel
  refine ⟨r, hr, framed.body, framed.received_iff.mpr ⟨uncoded, fun v hv => ?_⟩⟩
  rwa [← Option.some.inj (measured.symm.trans hv)]

/-- A registration that names a coding is accepted, and so is one whose length cuts the payload off; both headers go
with the request. -/
theorem framing_taken_over :
    (∃ reg r, Registration.make "site" "http://[::1]/" "s3cret" ["*"] [("Transfer-Encoding", "chunked")] = .ok reg ∧
      (named "x-site").request page (reg.toWebhook (.ofNat 1) .first) = .ok (.ok r) ∧
      r.headers.get? "transfer-encoding" = some "chunked") ∧
    ∃ reg r, Registration.make "site" "http://[::1]/" "s3cret" ["*"] [("Content-LENGTH", "1")] = .ok reg ∧
      (named "x-site").request page (reg.toWebhook (.ofNat 1) .first) = .ok (.ok r) ∧ r.body = "[42]" ∧
      ∀ decode, r.received decode = some (Text.bytes "[") := by
  have sent : ∀ own, ∃ r, (named "x-site").request page (headed own) = .ok (.ok r) ∧ r.body = "[42]" ∧
      ∀ n, n ≠ "x-site" → n ∉ fixedHeaders → r.headers.get? n = (headed own).header? n := by
    intro own
    have addressed : Webhook.checkUrl "http://[::1]/" = .ok () := by decide +kernel
    obtain ⟨r, hr⟩ := (named "x-site").request_of_addressed (d := page) (w := headed own) addressed (by decide)
    obtain ⟨ok, body⟩ := request_ok hr
    exact ⟨r, hr, body, fun n apart free => get?_unreserved ok apart free⟩
  constructor
  · obtain ⟨r, hr, -, carried⟩ := sent [("Transfer-Encoding", "chunked")]
    refine ⟨_, r, make_site _, hr, ?_⟩
    rw [carried _ (by decide) (by decide)]
    decide +kernel
  · obtain ⟨r, hr, body, carried⟩ := sent [("Content-LENGTH", "1")]
    refine ⟨_, r, make_site _, hr, body, fun decode => ?_⟩
    have uncoded : r.headers.get? codingHeader = none := by
      rw [carried _ (by decide) (by decide)]
      decide +kernel
    have measured : r.headers.get? lengthHeader = some "1" := by
      rw [carried _ (by decide) (by decide)]
      decide +kernel
    have first : (Header.length? "1").bind (fun n => if n ≤ (Text.bytes "[42]").length then
        some ((Text.bytes "[42]").take n) else none) = some (Text.bytes "[") := by decide +kernel
    unfold Request.received Headers.received
    rw [uncoded, measured, body]
    exact first

end Sender

end Courier
