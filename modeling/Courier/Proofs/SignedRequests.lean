import Courier.Proofs.FieldTexts
import Courier.Proofs.RequestHeaders
set_option autoImplicit false

namespace Courier

theorem Text.trim_of_not_space {cs : List Char} (ink : ∀ c ∈ cs, isSpace c = false) : trim cs = cs := by
  have kept : ∀ {xs : List Char}, (∀ c ∈ xs, isSpace c = false) → xs.dropWhile isSpace = xs := by
    intro xs ink
    cases xs with
    | nil => rfl
    | cons x xs => exact Instant.trimStart_of_not_space xs (ink x List.mem_cons_self)
  unfold trim trimEnd trimStart
  rw [kept ink, kept (by simpa using ink), List.reverse_reverse]

namespace Signature

theorem isSpace_hexDigit : ∀ n : Fin 16, Text.isSpace (Text.hexDigit n.val) = false := by decide

theorem length_sign (secret : String) (payload : List UInt8) : (sign secret payload).length = 64 := by
  rw [sign, String.length_ofList, Text.length_hexEncode, length_mac]

theorem verify_sign (secret : String) (payload : List UInt8) : verify secret payload (sign secret payload) = true := by
  have ink : ∀ c ∈ Text.hexEncode (mac (Text.bytes secret) payload), Text.isSpace c = false := by
    intro c hc
    obtain ⟨n, rfl⟩ := Text.mem_hexEncode hc
    exact isSpace_hexDigit n
  simp [verify, sign, Text.trim_of_not_space ink, Text.hexDecode?_hexEncode]

end Signature

namespace Headers

def values (h : Headers) (name : String) : List String := (h.filter (·.1 = name)).map (·.2)

def Ordered (h : Headers) : Prop := h.Pairwise (·.1 < ·.1)

theorem mem_putMember {α : Type} {name : String} {value : α} {h : List (String × α)} {e : String × α}
    (he : e ∈ Json.putMember name value h) : e = (name, value) ∨ e ∈ h := by
  induction h with
  | nil => exact .inl (List.mem_singleton.mp he)
  | cons x r ih =>
    obtain ⟨k, v⟩ := x
    unfold Json.putMember at he
    split at he
    · exact (List.mem_cons.mp he).imp_right id
    · split at he
      · exact (List.mem_cons.mp he).imp_right (List.mem_cons_of_mem _)
      · rcases List.mem_cons.mp he with rfl | he
        · exact .inr List.mem_cons_self
        · exact (ih he).imp_right (List.mem_cons_of_mem _)

theorem ordered_putMember {α : Type} {h : List (String × α)} (ordered : h.Pairwise (·.1 < ·.1)) (name : String)
    (value : α) : (Json.putMember name value h).Pairwise (·.1 < ·.1) := by
  induction h with
  | nil => exact List.pairwise_singleton _ _
  | cons x r ih =>
    obtain ⟨k, v⟩ := x
    obtain ⟨first, rest⟩ := List.pairwise_cons.mp ordered
    unfold Json.putMember
    split
    · next before =>
      refine List.pairwise_cons.mpr ⟨fun e he => ?_, ordered⟩
      rcases List.mem_cons.mp he with rfl | he
      · exact before
      · exact String.lt_trans before (first e he)
    · next unbefore =>
      split
      · next same =>
        subst same
        exact List.pairwise_cons.mpr ⟨first, rest⟩
      · next other =>
        refine List.pairwise_cons.mpr ⟨fun e he => ?_, ih rest⟩
        rcases mem_putMember he with rfl | he
        · exact Decidable.byContradiction fun unafter => other (String.le_antisymm unafter unbefore)
        · exact first e he

theorem length_putMember_le {α : Type} (name : String) (value : α) (h : List (String × α)) :
    (Json.putMember name value h).length ≤ h.length + 1 := by
  induction h with
  | nil => exact Nat.le_refl _
  | cons x r ih =>
    unfold Json.putMember
    split
    · exact Nat.le_refl _
    · split
      · exact Nat.le_succ _
      · exact Nat.succ_le_succ ih

theorem length_set_le (h : Headers) (name value : String) : (h.set name value).length ≤ h.length + 1 :=
  length_putMember_le name value h

theorem length_foldl_le {α : Type} {f : Headers → α → Headers} (step : ∀ h e, (f h e).length ≤ h.length + 1)
    (es : List α) (h : Headers) : (es.foldl f h).length ≤ h.length + es.length := by
  induction es generalizing h with
  | nil => exact Nat.le_refl _
  | cons e es ih =>
    have first := step h e
    have rest := ih (f h e)
    rw [List.foldl_cons, List.length_cons]
    omega

theorem ordered_set {h : Headers} (ordered : h.Ordered) (name value : String) : (h.set name value).Ordered :=
  ordered_putMember ordered name value

/-- Under a name there is the value that is found, and no other. -/
theorem values_eq {h : Headers} (ordered : h.Ordered) (name : String) : h.values name = (h.get? name).toList := by
  induction h with
  | nil => rfl
  | cons x r ih =>
    obtain ⟨k, v⟩ := x
    obtain ⟨first, rest⟩ := List.pairwise_cons.mp ordered
    have rest_eq := ih rest
    unfold values get? at rest_eq ⊢
    rw [lookup_cons_ite]
    by_cases here : name = k
    · subst here
      have none_after : r.filter (·.1 = name) = [] := by
        rw [List.filter_eq_nil_iff]
        intro e he
        simpa using (String.ne_of_lt (first e he)).symm
      simp [none_after]
    · have apart : ¬ k = name := fun same => here same.symm
      simp [here, apart, rest_eq]

end Headers

theorem Header.valueOr_text (id : Uuid) : valueOr id.text = id.text := by
  have digits : ∀ d : Fin 16, isValueChar (Nat.digitChar d.val) = true := by decide
  refine valueOr_ofList fun c hc => ?_
  rcases Json.mem_uuid hc with rfl | ⟨d, rfl⟩
  · rfl
  · exact digits d

namespace Sender

def fixedHeaders : List String := "content-type" :: "user-agent" :: laterHeaders

variable {c : SenderConfig} {s : Sender} {d : Delivery} {w : Webhook} {h : Headers}

theorem make_ok (made : make c = .ok s) :
    Header.name? c.signatureHeader = some s.signatureHeader ∧ s.userAgent = c.userAgent := by
  unfold make at made
  split at made
  · cases made
  · next name named =>
    split at made
    · cases made
      exact ⟨named, rfl⟩
    · cases made

theorem headers_ok_iff : (∃ h, s.headers d w = .ok h) ↔ d.attempts.val < 2147483647 := by
  refine ⟨fun ⟨h, ok⟩ => ?_, fun below => s.headers_total w below⟩
  obtain ⟨n, hn, -⟩ := headers_ok ok
  have le_max := n.le_hi
  omega

theorem length_headers_le (ok : s.headers d w = .ok h) : h.length ≤ w.customHeaders.length + 6 := by
  obtain ⟨n, -, rfl⟩ := headers_ok ok
  have own : (ownHeaders w).length ≤ 0 + w.customHeaders.length := by
    refine Headers.length_foldl_le (fun h e => ?_) w.customHeaders []
    unfold Headers.setIfValid
    split
    · split
      · exact h.length_set_le _ _
      · exact Nat.le_succ _
    · exact Nat.le_succ _
  have whole := Headers.length_foldl_le (fun h e => h.length_set_le e.1 e.2) (s.reservedHeaders d w n) (ownHeaders w)
  have six : (s.reservedHeaders d w n).length = 6 := rfl
  omega

theorem ownHeaders_ordered (w : Webhook) : (ownHeaders w).Ordered := by
  refine List.foldlRecOn _ _ (motive := Headers.Ordered) List.Pairwise.nil fun h ordered e _ => ?_
  unfold Headers.setIfValid
  split
  · split
    · exact Headers.ordered_set ordered _ _
    · exact ordered
  · exact ordered

theorem headers_ordered (ok : s.headers d w = .ok h) : h.Ordered := by
  obtain ⟨n, -, rfl⟩ := headers_ok ok
  exact List.foldlRecOn _ _ (motive := Headers.Ordered) (ownHeaders_ordered w) fun h ordered e _ =>
    Headers.ordered_set ordered e.1 e.2

theorem values_of (ok : s.headers d w = .ok h) {name value : String} (found : h.get? name = some value) :
    h.values name = [value] := by
  rw [Headers.values_eq (headers_ordered ok), found]
  rfl

section Sent

variable (ok : s.headers d w = .ok h)
include ok

theorem contentType_sent (apart : s.signatureHeader ≠ "content-type") :
    h.get? "content-type" = some "application/json" := by
  obtain ⟨n, -, rfl⟩ := headers_ok ok
  simp [reservedHeaders, Headers.get?_set, apart.symm, eventHeader, deliveryHeader, attemptHeader]

theorem userAgent_sent (apart : s.signatureHeader ≠ "user-agent") : h.get? "user-agent" = some s.userAgent := by
  obtain ⟨n, -, rfl⟩ := headers_ok ok
  simp [reservedHeaders, Headers.get?_set, apart.symm, eventHeader, deliveryHeader, attemptHeader]

theorem event_sent : h.get? eventHeader = some (Header.valueOr d.event) := by
  obtain ⟨n, -, rfl⟩ := headers_ok ok
  simp [reservedHeaders, Headers.get?_set, eventHeader, deliveryHeader, attemptHeader]

theorem delivery_sent : h.get? deliveryHeader = some d.id.text := by
  obtain ⟨n, -, rfl⟩ := headers_ok ok
  simp [reservedHeaders, Headers.get?_set, deliveryHeader, attemptHeader, Header.valueOr_text]

end Sent

structure Labelled (d : Delivery) (h : Headers) : Prop where
  event : Header.isValue d.event = true → h.values eventHeader = [d.event]
  delivery : h.values deliveryHeader = [d.id.text]
  attempt : h.values attemptHeader = [String.ofList (Decimal.ofInt (d.attempts.val + 1))]

/-- The header that is configured for it has one value, which verifies for the payload; the type of the content and the
user agent have one value each. -/
structure Signed (c : SenderConfig) (d : Delivery) (w : Webhook) (h : Headers) : Prop where
  signature : ∃ name value, Header.name? c.signatureHeader = some name ∧ h.values name = [value] ∧
    Signature.verify w.secret (Text.bytes d.payload) value = true
  contentType : h.values "content-type" = ["application/json"]
  userAgent : h.values "user-agent" = [c.userAgent]

theorem labelled_of_ok (ok : s.headers d w = .ok h) : Labelled d h where
  event value := by
    have sent := event_sent ok
    rw [Header.valueOr, if_pos value] at sent
    exact values_of ok sent
  delivery := values_of ok (delivery_sent ok)
  attempt := values_of ok (attempt_sent ok)

theorem signed_of_apart (made : make c = .ok s) (apart : s.signatureHeader ∉ fixedHeaders) (ok : s.headers d w = .ok h) :
    Signed c d w h := by
  obtain ⟨named, agent⟩ := make_ok made
  simp only [fixedHeaders, List.mem_cons, not_or] at apart
  obtain ⟨unlike_type, unlike_agent, unlike_later⟩ := apart
  refine ⟨⟨_, _, named, values_of ok (signature_sent ok unlike_later), Signature.verify_sign _ _⟩, ?_, ?_⟩
  · exact values_of ok (contentType_sent ok unlike_type)
  · rw [← agent]
    exact values_of ok (userAgent_sent ok unlike_agent)

namespace Sample

def site (secret : String) (own : List (String × String)) : Webhook where
  id := .ofNat 1
  name := "site"
  url := "https://example.com/hook"
  secret
  events := [some "*"]
  headers := .ofTexts own
  active := true
  createdAt := .first
  updatedAt := .first

def page : Delivery :=
  Order.toDelivery ⟨.ofNat 1, "page.published", "[42]", .pending, some .first⟩ (.ofNat 2) .first

def naming (header : String) : SenderConfig := { SenderConfig.standard with signatureHeader := header }

def named (name : String) : Sender where
  requestTimeout := .halfMinute
  userAgent := "Hookline-Webhook/1.0"
  signatureHeader := name
  responseBodyLimit := 10240
  isValue_userAgent := by decide +kernel

end Sample

open Sample

theorem make_naming {header name : String} (hname : Header.name? header = some name) :
    make (naming header) = .ok (named name) := by
  have agent : Header.isValue (naming header).userAgent = true := (named name).isValue_userAgent
  unfold make
  rw [show Header.name? (naming header).signatureHeader = some name from hname]
  exact dif_pos agent

theorem labels_unverified : ∀ v ∈ [page.event, page.id.text, String.ofList (Decimal.ofInt (page.attempts.val + 1))],
    Signature.verify "a" (Text.bytes page.payload) v = false := by
  decide +kernel

theorem label_of_later (told : Labelled page h) {name value : String} (later : name ∈ laterHeaders)
    (single : h.values name = [value]) :
    value ∈ [page.event, page.id.text, String.ofList (Decimal.ofInt (page.attempts.val + 1))] := by
  have event := told.event (by decide)
  have delivery := told.delivery
  have attempt := told.attempt
  simp only [laterHeaders, List.mem_cons, List.not_mem_nil, or_false] at later
  rcases later with rfl | rfl | rfl
  · simp_all
  · simp_all
  · simp_all

/-- Under the name of another reserved header the request for a page is not signed as it should be. -/
theorem unsigned_page {header name : String} (clash : name ∈ fixedHeaders) (hname : Header.name? header = some name)
    (ok : (named name).headers page (site "a" []) = .ok h) : ¬ Signed (naming header) page (site "a" []) h := by
  intro sent
  obtain ⟨name', value, hname', single, verified⟩ := sent.signature
  obtain rfl : name' = name := Option.some.inj (hname'.symm.trans hname)
  by_cases later : name' ∈ laterHeaders
  · -- what is set later stands in place of the signature
    have unverified := labels_unverified value (label_of_later (labelled_of_ok ok) later single)
    exact Bool.false_ne_true (unverified.symm.trans verified)
  · -- the signature stands in place of what is set earlier, and is longer
    have signature := values_of ok (signature_sent ok later)
    have long := Signature.length_sign (site "a" []).secret (Text.bytes page.payload)
    simp only [fixedHeaders, List.mem_cons, later, or_false] at clash
    rcases clash with rfl | rfl
    · rw [List.singleton_inj.mp (signature.symm.trans sent.contentType)] at long
      exact absurd long (by decide)
    · rw [List.singleton_inj.mp (signature.symm.trans sent.userAgent)] at long
      exact absurd long (show ¬ "Hookline-Webhook/1.0".length = 64 by decide)

/-- Event, delivery and attempt are told in every request under every configuration that is accepted. All requests are
signed, with the type of the content and the user agent as they should be, exactly under those names of the signature's
header that are no names of other reserved headers. The client is assumed to take as many headers as there are, which are
at most six more than the webhook has of its own. -/
theorem signed_iff_apart {header name : String} (hname : Header.name? header = some name) :
    (∀ c s, c.signatureHeader = header → make c = .ok s → ∀ d w,
      ((∃ h, s.headers d w = .ok h) ↔ d.attempts.val < 2147483647) ∧
        ∀ h, s.headers d w = .ok h → Labelled d h ∧ h.length ≤ w.customHeaders.length + 6) ∧
    ((∀ c s, c.signatureHeader = header → make c = .ok s → ∀ d w h, s.headers d w = .ok h → Signed c d w h) ↔
      name ∉ fixedHeaders) := by
  refine ⟨fun c s _ _ d w => ⟨headers_ok_iff, fun h ok => ⟨labelled_of_ok ok, length_headers_le ok⟩⟩,
    fun signed clash => ?_, ?_⟩
  · obtain ⟨h, ok⟩ := (named name).headers_total (d := page) (site "a" []) (by decide)
    exact unsigned_page clash hname ok (signed (naming header) (named name) rfl (make_naming hname) _ _ h ok)
  · rintro apart c s rfl made d w h ok
    rw [← Option.some.inj ((make_ok made).1.symm.trans hname)] at apart
    exact signed_of_apart made apart ok

theorem signed_iff_apart_forged : Header.name? "X-Site" = some "x-site" ∧ make (naming "X-Site") = .ok (named "x-site") ∧
    ∃ h v, (named "x-site").headers page (site "a" [("x-site", "forged"), ("Content-Type", "text/plain")]) = .ok h ∧
      h.values "x-site" = [v] ∧ Signature.verify "a" (Text.bytes page.payload) v = true ∧
      h.values "content-type" = ["application/json"] := by
  have hname : Header.name? "X-Site" = some "x-site" := by decide +kernel
  obtain ⟨told, signed⟩ := signed_iff_apart hname
  obtain ⟨h, ok⟩ := (told _ _ rfl (make_naming hname) page
    (site "a" [("x-site", "forged"), ("Content-Type", "text/plain")])).1.mpr (by decide)
  have sent := signed.mpr (by decide) _ _ rfl (make_naming hname) page _ h ok
  obtain ⟨name, v, hname', single, verified⟩ := sent.signature
  obtain rfl : "x-site" = name := Option.some.inj (hname.symm.trans hname')
  exact ⟨hname, make_naming hname, h, v, ok, single, verified, sent.contentType⟩

/-- Under an accepted configuration the number of the attempt stands where the receiver looks for the signature. -/
theorem attempt_hides_signature : make (naming "X-Webhook-Attempt") = .ok (named "x-webhook-attempt") ∧
    ∃ h, (named "x-webhook-attempt").headers page (site "a" []) = .ok h ∧ h.values "x-webhook-attempt" = ["1"] ∧
      Signature.verify "a" (Text.bytes page.payload) "1" = false := by
  obtain ⟨h, ok⟩ := (named "x-webhook-attempt").headers_total (d := page) (site "a" []) (by decide)
  exact ⟨make_naming (by decide +kernel), h, ok, (labelled_of_ok ok).attempt, by decide +kernel⟩

end Sender

end Courier
