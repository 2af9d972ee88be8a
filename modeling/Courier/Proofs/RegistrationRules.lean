import Courier.Proofs.HeaderContents
import Mathlib.Data.List.Perm.Basic
import Mathlib.Order.WellFounded
set_option autoImplicit false

namespace Courier.Registration

inductive Rule where
  | named
  | short
  | addressed
  | signed
  | subscribed
  deriving DecidableEq, Repr

namespace Rule

def place : Rule → Nat
  | named => 0
  | short => 1
  | addressed => 2
  | signed => 3
  | subscribed => 4

/-- What the rule asks for, where `size` counts the length of a name. -/
def Met (r : Rule) (size : String → Nat) (name url secret : String) (events : List String) : Prop :=
  match r with
  | named => ∃ c ∈ name.toList, Text.isSpace c = false
  | short => size name ≤ 255
  | addressed => ∃ u, Url.parse url = .ok u ∧ (String.ofList u.scheme = "http" ∨ String.ofList u.scheme = "https")
  | signed => secret ≠ ""
  | subscribed => events ≠ [] ∧ ∀ e ∈ events, ∃ c ∈ e.toList, Text.isSpace c = false

structure FirstBroken (r : Rule) (size : String → Nat) (name url secret : String) (events : List String) : Prop where
  broken : ¬ r.Met size name url secret events
  earlier : ∀ q : Rule, q.place < r.place → q.Met size name url secret events

def fault (r : Rule) (url : String) : Webhook.Fault :=
  match r with
  | named => .blankName
  | short => .longName
  | addressed =>
    match Url.parse url with
    | .error f => .url f
    | .ok u => .scheme (String.ofList u.scheme)
  | signed => .emptySecret
  | subscribed => .blankEvent

def openings : Rule → List String
  | named => ["Name cannot b"]
  | short => ["Name cannot e"]
  | addressed => ["Invalid URL: ", "Unsupported U"]
  | signed => ["Secret cannot"]
  | subscribed => ["At least one "]

variable {size : String → Nat} {name url secret : String} {events : List String} {q r : Rule}

theorem opening_mem (r : Rule) (url : String) :
    String.ofList ((r.fault url).message.toList.take 13) ∈ r.openings := by
  cases r with
  | named =>
    change String.ofList (Webhook.Fault.blankName.message.toList.take 13) ∈ _
    decide +kernel
  | short =>
    change String.ofList (Webhook.Fault.longName.message.toList.take 13) ∈ _
    decide +kernel
  | addressed =>
    unfold fault
    dsimp only
    split
    · next f _ =>
      have text : (Webhook.Fault.url f).message = "Invalid URL: " ++ f.message := rfl
      rw [text, String.toList_append]
      exact .head _
    · next u _ =>
      have text : (Webhook.Fault.scheme (String.ofList u.scheme)).message =
        "Unsupported URL scheme: " ++ String.ofList u.scheme := rfl
      rw [text, String.toList_append]
      exact .tail _ (.head _)
  | signed =>
    change String.ofList (Webhook.Fault.emptySecret.message.toList.take 13) ∈ _
    decide +kernel
  | subscribed =>
    change String.ofList (Webhook.Fault.blankEvent.message.toList.take 13) ∈ _
    decide +kernel

/-- The text of a refusal tells which rule is meant. -/
theorem message_inj {url' : String} (same : (q.fault url).message = (r.fault url').message) : q = r := by
  have mine := opening_mem q url
  have other := opening_mem r url'
  rw [same] at mine
  have apart : ∀ o ∈ q.openings, o ∈ r.openings → q = r := by cases q <;> cases r <;> decide
  exact apart _ mine other

theorem exists_firstBroken (broken : ¬ r.Met size name url secret events) :
    ∃ q, FirstBroken q size name url secret events := by
  obtain ⟨q, hq, least⟩ :=
    WellFounded.has_min (measure Rule.place).wf { q | ¬ q.Met size name url secret events } ⟨r, broken⟩
  exact ⟨q, hq, fun p before => not_not.mp fun hp => least p hp before⟩

end Rule

/-! ### The checks -/

variable {name url secret : String} {events : List String} {headers : List (String × String)} {r : Registration}

/-- How the length of a name is counted by the checks. -/
def byteCount (name : String) : Nat := (Text.bytes name).length

theorem isBlank_eq_false_iff {s : String} : Text.isBlank s = false ↔ ∃ c ∈ s.toList, Text.isSpace c = false := by
  unfold Text.isBlank
  rw [List.all_eq_false]
  simp only [Bool.not_eq_true]

theorem checkUrl_eq (size : String → Nat) (name url secret : String) (events : List String) :
    (Rule.addressed.Met size name url secret events → Webhook.checkUrl url = .ok ()) ∧
      (¬ Rule.addressed.Met size name url secret events →
        Webhook.checkUrl url = .error (Rule.addressed.fault url)) := by
  unfold Webhook.checkUrl Rule.Met Rule.fault
  dsimp only
  cases parsed : Url.parse url with
  | error f => exact ⟨fun ⟨u, hu, _⟩ => (by cases hu), fun _ => rfl⟩
  | ok u =>
    dsimp only
    constructor
    · rintro ⟨v, same, web⟩
      cases same
      rw [if_pos web]
    · intro broken
      rw [if_neg fun web => broken ⟨u, rfl, web⟩]

theorem rules_met_iff : (∀ rule : Rule, rule.Met byteCount name url secret events) ↔
    Webhook.Checked name url secret (events.map some) ∧ Webhook.Limited name (events.map some) := by
  have web := checkUrl_eq byteCount name url secret events
  constructor
  · intro met
    obtain ⟨nonempty, entries⟩ := met .subscribed
    refine ⟨⟨isBlank_eq_false_iff.mpr (met .named), web.1 (met .addressed), met .signed, by simpa using nonempty⟩,
      ⟨met .short, fun e he => ?_⟩⟩
    obtain ⟨p, hp, rfl⟩ := List.mem_map.mp he
    exact ⟨p, rfl, isBlank_eq_false_iff.mpr (entries p hp)⟩
  · rintro ⟨checked, limited⟩ (_ | _ | _ | _ | _)
    · exact isBlank_eq_false_iff.mp checked.named
    · exact limited.short
    · by_contra broken
      cases checked.addressed.symm.trans (web.2 broken)
    · exact checked.signed
    · refine ⟨by simpa using checked.subscribed, fun e he => ?_⟩
      obtain ⟨p, same, nonblank⟩ := limited.selecting (some e) (List.mem_map_of_mem he)
      cases same
      exact isBlank_eq_false_iff.mp nonblank

theorem make_eq (name url secret : String) (events : List String) (headers : List (String × String)) :
    make name url secret events headers =
      if Text.isBlank name then .error .blankName
      else if 255 < byteCount name then .error .longName
      else (Webhook.checkUrl url).bind fun _ =>
        if secret = "" then .error .emptySecret
        else if events.isEmpty ∨ events.any Text.isBlank then .error .blankEvent
        else .ok ⟨name, url, secret, events.map some, Json.ofTexts headers, true⟩ := rfl

/-- A registration is refused for the first rule that it breaks. -/
theorem make_of_broken {rule : Rule} (first : rule.FirstBroken byteCount name url secret events) :
    make name url secret events headers = .error (rule.fault url) := by
  obtain ⟨broken, earlier⟩ := first
  have nonblank (met : Rule.named.Met byteCount name url secret events) : ¬ Text.isBlank name = true := by
    simpa using isBlank_eq_false_iff.mpr met
  have within (met : Rule.short.Met byteCount name url secret events) : ¬ 255 < byteCount name := Nat.not_lt.mpr met
  have web := checkUrl_eq byteCount name url secret events
  rw [make_eq]
  cases rule with
  | named =>
    have blank : Text.isBlank name = true := by simpa using mt isBlank_eq_false_iff.mp broken
    exact if_pos blank
  | short =>
    rw [if_neg (nonblank (earlier .named (by decide)))]
    exact if_pos (Nat.not_le.mp broken)
  | addressed =>
    rw [if_neg (nonblank (earlier .named (by decide))), if_neg (within (earlier .short (by decide))), web.2 broken]
    rfl
  | signed =>
    rw [if_neg (nonblank (earlier .named (by decide))), if_neg (within (earlier .short (by decide))),
      web.1 (earlier .addressed (by decide))]
    exact if_pos (not_not.mp broken)
  | subscribed =>
    have blank : events.isEmpty ∨ events.any Text.isBlank := by
      by_contra none
      obtain ⟨nonempty, entries⟩ := not_or.mp none
      refine broken ⟨by simpa using nonempty, fun e he => isBlank_eq_false_iff.mp ?_⟩
      simpa using fun blank => entries (List.any_eq_true.mpr ⟨e, he, blank⟩)
    rw [if_neg (nonblank (earlier .named (by decide))), if_neg (within (earlier .short (by decide))),
      web.1 (earlier .addressed (by decide))]
    exact (if_neg (earlier .signed (by decide))).trans (if_pos blank)

theorem make_error_iff {f : Webhook.Fault} : make name url secret events headers = .error f ↔
    ∃ rule : Rule, rule.FirstBroken byteCount name url secret events ∧ f = rule.fault url := by
  constructor
  · intro refused
    obtain ⟨rule, broken⟩ : ∃ rule : Rule, ¬ rule.Met byteCount name url secret events := by
      by_contra met
      have accepted : make name url secret events headers = .ok _ :=
        make_ok_iff.mpr ⟨rfl, rules_met_iff.mp (by simpa using met)⟩
      cases refused.symm.trans accepted
    obtain ⟨first, hfirst⟩ := Rule.exists_firstBroken broken
    exact ⟨first, hfirst, Except.error.inj (refused.symm.trans (make_of_broken hfirst))⟩
  · rintro ⟨rule, first, rfl⟩
    exact make_of_broken first

/-! ### What is registered -/

structure Carries (r : Registration) (name url secret : String) (events : List String)
    (headers : List (String × String)) : Prop where
  active : r.active = true
  name : r.name = name
  url : r.url = url
  secret : r.secret = secret
  events : r.events = events.map some
  /-- The webhook's headers are those given, in the order of the bytes of their names. -/
  headers : (headers.map (·.1)).Nodup → ∀ id now, (r.toWebhook id now).customHeaders.Perm headers ∧
    (r.toWebhook id now).customHeaders.Pairwise fun a b => Text.bytes a.1 < Text.bytes b.1

theorem texts_ofTexts (distinct : (headers.map (·.1)).Nodup) :
    (Json.ofTexts headers).texts.Perm headers ∧
      (Json.ofTexts headers).texts.Pairwise fun a b => Text.bytes a.1 < Text.bytes b.1 := by
  have ordered := Json.texts_ordered (Json.ofTexts_inOrder headers)
  constructor
  · have single : (Json.ofTexts headers).texts.Nodup := by
      refine ordered.imp fun before same => ?_
      rw [same] at before
      exact String.lt_irrefl _ before
    refine (List.perm_ext_iff_of_nodup single (.of_map _ distinct)).mpr fun e => ⟨Json.mem_of_mem_texts, fun he => ?_⟩
    exact Json.mem_texts.mpr (Json.holds_ofTexts distinct he)
  · exact ordered.imp Text.bytes_lt

theorem make_carries (accepted : make name url secret events headers = .ok r) :
    r.Carries name url secret events headers := by
  obtain ⟨rfl, -, -⟩ := make_ok_iff.mp accepted
  exact ⟨rfl, rfl, rfl, rfl, rfl, fun distinct _ _ => texts_ofTexts distinct⟩

/-- Counting characters instead of bytes makes no rule stricter, and only that about the length looser. -/
theorem Rule.met_length {rule : Rule} (met : rule.Met byteCount name url secret events) :
    rule.Met String.length name url secret events := by
  cases rule with
  | short => exact (Text.length_le_bytes name).trans met
  | named | addressed | signed | subscribed => exact met

theorem make_of_long (named : Rule.named.Met byteCount name url secret events) (many : 255 < byteCount name) :
    make name url secret events headers = .error .longName := by
  have first : Rule.short.FirstBroken byteCount name url secret events := by
    refine ⟨Nat.not_le.mpr many, fun q before => ?_⟩
    cases q with
    | named => exact named
    | short | addressed | signed | subscribed => exact absurd before (by decide)
  exact make_of_broken first

/-- A registration is accepted exactly if it meets all rules, the length of its name counted in bytes, and then it
carries what was asked for; else it is refused for the first rule that it breaks, and no other rule has this text. What
is accepted meets the rules in characters, too. Of what meets them in characters exactly the names with more than 255
bytes are refused, as too long. -/
theorem make_follows_rules (name url secret : String) (events : List String) (headers : List (String × String)) :
    ((∃ r, make name url secret events headers = .ok r) ↔
        ∀ rule : Rule, rule.Met byteCount name url secret events) ∧
      (∀ r, make name url secret events headers = .ok r → r.Carries name url secret events headers) ∧
      (∀ f, make name url secret events headers = .error f ↔
        ∃ rule : Rule, rule.FirstBroken byteCount name url secret events ∧ f = rule.fault url) ∧
      (∀ rule other : Rule, ∀ url', (rule.fault url).message = (other.fault url').message → rule = other) ∧
      (∀ r, make name url secret events headers = .ok r →
        ∀ rule : Rule, rule.Met String.length name url secret events) ∧
      ((∀ rule : Rule, rule.Met String.length name url secret events) →
        (byteCount name ≤ 255 → ∃ r, make name url secret events headers = .ok r) ∧
          (255 < byteCount name → make name url secret events headers = .error .longName)) := by
  have accepted : (∃ r, make name url secret events headers = .ok r) ↔
      ∀ rule : Rule, rule.Met byteCount name url secret events := by
    rw [rules_met_iff]
    exact ⟨fun ⟨r, ok⟩ => (make_ok_iff.mp ok).2, fun met => ⟨_, make_ok_iff.mpr ⟨rfl, met⟩⟩⟩
  refine ⟨accepted, fun r => make_carries, fun f => make_error_iff, fun rule other url' => Rule.message_inj,
    fun r ok rule => Rule.met_length (accepted.mp ⟨r, ok⟩ rule), fun met => ⟨fun few => ?_, fun many => ?_⟩⟩
  · refine accepted.mpr fun rule => ?_
    cases rule with
    | short => exact few
    | named => exact met .named
    | addressed => exact met .addressed
    | signed => exact met .signed
    | subscribed => exact met .subscribed
  · exact make_of_long (met .named) many

namespace Sample

def accented (n : Nat) : String := String.ofList (List.replicate n 'é')

theorem byteCount_accented (n : Nat) : byteCount (accented n) = 2 * n := by
  unfold byteCount Text.bytes accented
  rw [String.toList_ofList]
  induction n with
  | zero => rfl
  | succ n ih =>
    have two : 'é'.utf8Size = 2 := by decide
    rw [List.replicate_succ, Text.length_utf8_cons, ih]
    omega

def given : List (String × String) := [("x-site", "b"), ("X-Blog", "a")]

/-- All else is in order. -/
theorem rules_met {size : String → Nat} {n : Nat} (some : n ≠ 0) (few : size (accented n) ≤ 255) (rule : Rule) :
    rule.Met size (accented n) "http://[::1]/" "s3cret" ["*"] := by
  cases rule with
  | named =>
    refine ⟨'é', ?_, by decide⟩
    rw [accented, String.toList_ofList]
    exact List.mem_replicate.mpr ⟨some, rfl⟩
  | short => exact few
  | addressed =>
    by_contra broken
    have refused := (checkUrl_eq size (accented n) "http://[::1]/" "s3cret" ["*"]).2 broken
    have web : Webhook.checkUrl "http://[::1]/" = .ok () := by decide +kernel
    cases web.symm.trans refused
  | signed => exact fun empty => absurd empty (by decide)
  | subscribed =>
    refine ⟨by decide, fun e he => ?_⟩
    rw [List.mem_singleton.mp he]
    exact ⟨'*', by decide, by decide⟩

end Sample

open Sample

theorem make_follows_rules_accented :
    (given.map (·.1)).Nodup ∧ ∃ r, make (accented 127) "http://[::1]/" "s3cret" ["*"] given = .ok r ∧
      r.events = [some "*"] ∧ (r.toWebhook (.ofNat 1) .first).customHeaders.Perm given ∧
      (r.toWebhook (.ofNat 1) .first).customHeaders.Pairwise fun a b => Text.bytes a.1 < Text.bytes b.1 := by
  obtain ⟨accepted, carried, -⟩ := make_follows_rules (accented 127) "http://[::1]/" "s3cret" ["*"] given
  have distinct : (given.map (·.1)).Nodup := by decide
  obtain ⟨r, ok⟩ := accepted.mpr (rules_met (by decide) (byteCount_accented 127 ▸ by decide))
  have whole := carried r ok
  exact ⟨distinct, r, ok, whole.events, whole.headers distinct _ _⟩

/-- One more letter, and the name is refused as having more than 255 characters, though it has 128. -/
theorem accented_name_refused : (∀ rule : Rule, rule.Met String.length (accented 128) "http://[::1]/" "s3cret" ["*"]) ∧
    (accented 128).length = 128 ∧
    make (accented 128) "http://[::1]/" "s3cret" ["*"] [] = .error .longName ∧
    Webhook.Fault.longName.message = "Name cannot exceed 255 characters" := by
  have few : (accented 128).length = 128 := String.length_ofList.trans List.length_replicate
  have many : 255 < byteCount (accented 128) := byteCount_accented 128 ▸ by decide
  have met := rules_met (by decide) (show (accented 128).length ≤ 255 by omega)
  exact ⟨met, few, make_of_long (met .named) many, rfl⟩

end Courier.Registration
