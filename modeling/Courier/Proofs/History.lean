import Courier.Proofs.ClaimFence
import Courier.Proofs.Links
set_option autoImplicit false

/-!
# What has held since an action

A worker that is about to write reports what it saw earlier in the run. Such statements speak of an action in the past
and of all moments between it and now.
-/

namespace Courier

namespace Fleet

variable {crew : Crew} {acts : List Act} {a : Act} {h id : Uuid} {event : Fleet → Act → Prop} {P : Fleet → Prop}

/-- There was an action like this in the run, and at every moment from its end on `P` has held. -/
def Since (crew : Crew) (acts : List Act) (event : Fleet → Act → Prop) (P : Fleet → Prop) : Prop :=
  ∃ before a during, acts = before ++ a :: during ∧ event (after crew before) a ∧
    ∀ mid more, during = mid ++ more → P (after crew (before ++ a :: mid))

namespace Since

theorem begins (now : event (after crew acts) a) (holds : P (after crew (acts ++ [a]))) :
    Since crew (acts ++ [a]) event P := by
  refine ⟨acts, a, [], rfl, now, ?_⟩
  intro mid more hmid
  obtain ⟨rfl, -⟩ := List.append_eq_nil_iff.mp hmid.symm
  exact holds

theorem continues (since : Since crew acts event P) (holds : P (after crew (acts ++ [a]))) :
    Since crew (acts ++ [a]) event P := by
  obtain ⟨before, b, during, rfl, began, lasting⟩ := since
  refine ⟨before, b, during ++ [a], by rw [List.append_assoc]; rfl, began, ?_⟩
  intro mid more hmid
  rcases List.eq_nil_or_concat more with rfl | ⟨more, x, rfl⟩
  · rw [← hmid.trans (List.append_nil mid)]
    rw [List.append_assoc] at holds
    exact holds
  · rw [List.concat_eq_append, ← List.append_assoc] at hmid
    exact lasting mid more (List.append_inj' hmid rfl).1

theorem now (since : Since crew acts event P) : P (after crew acts) := by
  obtain ⟨before, a, during, rfl, -, lasting⟩ := since
  exact lasting during [] (List.append_nil _).symm

/-- A scheduler that was busy all the time and holds a delivery now has held it since then: a claim that is lost only
comes back by a scan. -/
theorem held (since : Since crew acts event P) (regular : Regular acts)
    (busy : ∀ f a, event f a → f.workers h ≠ []) (busyStill : ∀ f, P f → f.workers h ≠ [])
    (holds : (after crew acts).store.Holds h id) :
    Since crew acts (fun f a => event f a ∧ f.store.Holds h id) P := by
  obtain ⟨before, a, during, rfl, began, lasting⟩ := since
  refine ⟨before, a, during, rfl, ⟨began, ?_⟩, lasting⟩
  by_contra unheld
  refine unheld_after regular unheld ?_ holds
  rintro mid b rest hmid ⟨now, batch, t, -, idle, -⟩
  cases mid with
  | nil =>
    rw [List.append_nil] at idle
    exact busy _ _ began idle
  | cons x mid =>
    obtain ⟨rfl, hduring⟩ := List.cons.inj hmid
    exact busyStill _ (lasting mid (b :: rest) hduring) idle

end Since

theorem since_nil : ¬ Since crew [] event P := by
  rintro ⟨before, a, during, hacts, -⟩
  cases (List.append_eq_nil_iff.mp hacts.symm).2

theorem since_concat : Since crew (acts ++ [a]) event P ↔
    P (after crew (acts ++ [a])) ∧ (event (after crew acts) a ∨ Since crew acts event P) := by
  constructor
  · intro since
    refine ⟨since.now, ?_⟩
    obtain ⟨before, b, during, hacts, began, lasting⟩ := since
    rcases List.eq_nil_or_concat during with rfl | ⟨during, x, rfl⟩
    · obtain ⟨rfl, hb⟩ := List.append_inj' hacts rfl
      cases hb
      exact .inl began
    · rw [List.concat_eq_append, ← List.cons_append, ← List.append_assoc] at hacts
      obtain ⟨rfl, -⟩ := List.append_inj' hacts rfl
      refine .inr ⟨before, b, during, rfl, began, ?_⟩
      intro mid more hmid
      exact lasting mid (more ++ [x]) (by rw [hmid, List.concat_eq_append, List.append_assoc])
  · rintro ⟨holds, now | since⟩
    · exact .begins now holds
    · exact since.continues holds

/-- A worker that is about to report a change has been so since it had grounds for it. -/
theorem reporting_since (crew : Crew) (acts : List Act) {x : Delivery} {c : Change}
    (hk : ⟨x, .reporting c⟩ ∈ (after crew acts).workers h) :
    Since crew acts (fun f a => Grounds crew f h x a c) (fun f => ⟨x, .reporting c⟩ ∈ f.workers h) := by
  induction acts using List.reverseRecOn with
  | nil => cases hk
  | append_singleton acts a ih =>
    obtain old | ⟨k, -, move⟩ | ⟨now, batch, -, -, -, -, hstage⟩ := worker_origin (after_concat crew acts a ▸ hk)
    · exact (ih old).continues hk
    · exact .begins (move.grounds rfl) hk
    · cases hstage

/-- What a worker reports while it holds the delivery comes of the answer to a request or of an inactive webhook: a
held delivery has its webhook, and an attempt left. -/
theorem grounds_of_held {m : Int} (agrees : crew.Agrees m) (regular : Regular acts) {x : Delivery} {c : Change}
    (hk : ⟨x, .reporting c⟩ ∈ (after crew acts).workers h) (holds : (after crew acts).store.Holds h x.id) :
    Since crew acts (fun f a => ∃ o now w, a = .answer h x.id o now ∧ f.active? h x.id = some ⟨x, .sending w⟩ ∧
        Change.afterAttempt x.attempts o (crew.policy h) now = .ok c) (fun f => ⟨x, .reporting c⟩ ∈ f.workers h) ∨
      c = .deadWithoutAttempt "webhook is inactive" ∧
        Since crew acts (fun f a => a = .look h x.id ∧ f.active? h x.id = some ⟨x, .renewed⟩ ∧
          ∃ w, f.store.getWebhook x.webhookId = .ok (some w) ∧ w.active = false)
          (fun f => ⟨x, .reporting c⟩ ∈ f.workers h) := by
  have busy : ∀ f a, Grounds crew f h x a c → f.workers h ≠ [] := fun f a grounds =>
    have ⟨_, turn⟩ := grounds.turn
    List.ne_nil_of_mem (mem_of_active turn)
  have since := (reporting_since crew acts hk).held regular busy (fun f hf => List.ne_nil_of_mem hf) holds
  obtain ⟨before, a, during, rfl, ⟨grounds, d, hd, held⟩, lasting⟩ := since
  cases grounds with
  | answered turn call => exact .inl ⟨before, _, during, rfl, ⟨_, _, _, rfl, turn, call⟩, lasting⟩
  | inactive turn found inactive =>
    exact .inr ⟨rfl, before, _, during, rfl, ⟨rfl, turn, _, found, inactive⟩, lasting⟩
  | gone turn found =>
    obtain ⟨hid, hby⟩ := Store.isHeld_iff.mp held
    have copy := fenced_after regular.left h _ (mem_of_active turn) d hd hid hby
    obtain ⟨w, hw, hwid⟩ := linked_after crew before d hd
    obtain ⟨-, hfind⟩ := Store.whenOnline_ok found
    have none := List.find?_eq_none.mp (Except.ok.inj hfind) w hw
    rw [copy] at hwid
    exact absurd (decide_eq_true hwid) none
  | exhausted turn limit =>
    obtain ⟨sound, pending⟩ := (keeps_after agrees.allows before).copies h _ (mem_of_active turn)
    have below := (sound.pending pending).2.1
    rw [agrees.limit_eq] at limit
    dsimp only at below
    omega

end Fleet

end Courier
