import Courier.Proofs.Links
set_option autoImplicit false

namespace Courier

section Checks

variable {ε α β : Type} {p : Prop} [Decidable p] {x : Except ε α} {f : α → Except ε β} {y : Except ε β} {b : β} {e : ε}

theorem bind_ok_iff : x >>= f = .ok b ↔ ∃ a, x = .ok a ∧ f a = .ok b := by
  cases x <;> simp [bind, Except.bind]

theorem refused_ok_iff : (if p then throw e >>= f else y) = .ok b ↔ ¬ p ∧ y = .ok b := by
  by_cases hp : p
  · rw [if_pos hp]
    exact ⟨fun h => (by cases h), fun h => absurd hp h.1⟩
  · rw [if_neg hp]
    exact ⟨fun h => ⟨hp, h⟩, And.right⟩

end Checks

namespace Webhook

/-- The rules that registrations and amendments are both held to. -/
structure Checked (name url secret : String) (events : List (Option String)) : Prop where
  named : Text.isBlank name = false
  addressed : checkUrl url = .ok ()
  signed : secret ≠ ""
  subscribed : events ≠ []

structure Limited (name : String) (events : List (Option String)) : Prop where
  short : (Text.bytes name).length ≤ 255
  selecting : ∀ e ∈ events, ∃ p, e = some p ∧ Text.isBlank p = false

def Sound (w : Webhook) : Prop := Checked w.name w.url w.secret w.events

structure Valid (w : Webhook) : Prop where
  sound : w.Sound
  limited : Limited w.name w.events

end Webhook

/-! ### The two checks -/

namespace Registration

theorem make_ok_iff {name url secret : String} {events : List String} {headers : List (String × String)}
    {r : Registration} : make name url secret events headers = .ok r ↔
      r = ⟨name, url, secret, events.map some, Json.ofTexts headers, true⟩ ∧
        Webhook.Checked name url secret (events.map some) ∧ Webhook.Limited name (events.map some) := by
  unfold make
  simp only [refused_ok_iff, bind_ok_iff]
  constructor
  · rintro ⟨hname, hshort, ⟨⟩, hurl, hsecret, hevents, hr⟩
    cases hr
    simp only [not_or, List.isEmpty_iff, List.any_eq_true, not_exists, not_and, Bool.not_eq_true] at hname hevents
    refine ⟨rfl, ⟨hname, hurl, hsecret, by simpa using hevents.1⟩, ⟨by omega, fun e he => ?_⟩⟩
    obtain ⟨p, hp, rfl⟩ := List.mem_map.mp he
    exact ⟨p, rfl, hevents.2 p hp⟩
  · rintro ⟨rfl, checked, limited⟩
    refine ⟨by simp [checked.named], by have := limited.short; omega, (), checked.addressed, checked.signed, ?_, rfl⟩
    have entries : ∀ p ∈ events, Text.isBlank p = false := by
      intro p hp
      obtain ⟨q, hq, hblank⟩ := limited.selecting (some p) (List.mem_map_of_mem hp)
      cases hq
      exact hblank
    simpa using ⟨fun h => checked.subscribed (by simp [h]), entries⟩

def Made (r : Registration) : Prop :=
  ∃ name url secret events headers, make name url secret events headers = .ok r

theorem Made.valid {r : Registration} (made : r.Made) (id : Uuid) (now : Instant) : (r.toWebhook id now).Valid := by
  obtain ⟨name, url, secret, events, headers, call⟩ := made
  obtain ⟨rfl, checked, limited⟩ := make_ok_iff.mp call
  exact ⟨checked, limited⟩

end Registration

namespace Amendment

variable {a : Amendment} {w : Webhook}

theorem check_ok_iff : a.check = .ok () ↔
    (∀ n, a.name = some n → Text.isBlank n = false) ∧ (∀ u, a.url = some u → Webhook.checkUrl u = .ok ()) ∧
      a.secret ≠ some "" ∧ a.events ≠ some [] := by
  obtain ⟨name, url, secret, events, headers, active⟩ := a
  unfold check
  have last : (if events.any List.isEmpty = true then throw .noEvents else pure () : Except Webhook.Fault Unit) =
      .ok () ↔ events ≠ some [] := by
    rcases events with _ | ⟨_ | ⟨e, es⟩⟩ <;> simp [pure, Except.pure, throw, throwThe, MonadExceptOf.throw]
  have first : (¬ name.any Text.isBlank = true) ↔ ∀ n, name = some n → Text.isBlank n = false := by
    cases name <;> simp
  cases url with
  | none =>
    simp only [refused_ok_iff, last, first]
    simp
  | some u =>
    simp only [refused_ok_iff, bind_ok_iff, last, first]
    simp [Unique.exists_iff]

def WithinLimits (a : Amendment) : Prop :=
  (∀ n, a.name = some n → (Text.bytes n).length ≤ 255) ∧
    ∀ es, a.events = some es → ∀ e ∈ es, ∃ p, e = some p ∧ Text.isBlank p = false

theorem sound_apply (sound : w.Sound) (accepted : a.check = .ok ()) : (a.apply w).Sound := by
  obtain ⟨named, addressed, signed, subscribed⟩ := check_ok_iff.mp accepted
  obtain ⟨name, url, secret, events, headers, active⟩ := a
  constructor
  · cases name with
    | none => exact sound.named
    | some n => exact named n rfl
  · cases url with
    | none => exact sound.addressed
    | some u => exact addressed u rfl
  · cases secret with
    | none => exact sound.signed
    | some s => exact fun h => signed (congrArg some h)
  · cases events with
    | none => exact sound.subscribed
    | some es => exact fun h => subscribed (congrArg some h)

/-- What is not checked of an amendment decides whether it keeps a webhook valid. -/
theorem valid_apply_iff (valid : w.Valid) (accepted : a.check = .ok ()) : (a.apply w).Valid ↔ a.WithinLimits := by
  obtain ⟨name, url, secret, events, headers, active⟩ := a
  constructor
  · intro after
    refine ⟨?_, ?_⟩
    · rintro n rfl
      exact after.limited.short
    · rintro es rfl
      exact after.limited.selecting
  · rintro ⟨short, selecting⟩
    refine ⟨sound_apply valid.sound accepted, ?_, ?_⟩
    · cases name with
      | none => exact valid.limited.short
      | some n => exact short n rfl
    · cases events with
      | none => exact valid.limited.selecting
      | some es => exact selecting es rfl

end Amendment

/-! ### Runs -/

theorem Store.updateWebhook_origin {s t : Store} {id : Uuid} {m : Amendment} {now : Instant} {w : Webhook}
    (h : s.updateWebhook id m now = .ok (w, t)) : m.check = .ok () ∧
      ∀ y ∈ t.webhooks, y ∈ s.webhooks ∨ ∃ x ∈ s.webhooks, y = { m.apply x with updatedAt := now } := by
  unfold updateWebhook at h
  split at h
  · cases h
  · rename_i accepted
    obtain ⟨-, h⟩ := whenOnline_ok h
    dsimp only at h
    split at h
    · rename_i y ys hc
      cases h
      obtain ⟨u, hu, rfl, -, htail⟩ := changeFirst_evolves hc
      have hmem := List.mem_of_find?_eq_some hu
      refine ⟨accepted, fun z hz => ?_⟩
      obtain ⟨x, hx, rfl | ⟨-, rfl⟩⟩ | hnew := htail.origin hz
      · exact .inl hx
      · split
        · exact .inl hmem
        · exact .inr ⟨u, hmem, rfl⟩
      · exact hnew.elim
    · cases h

theorem Store.deleteWebhook_origin {s t : Store} {id : Uuid} {b : Bool} (h : s.deleteWebhook id = .ok (b, t)) :
    ∀ y ∈ t.webhooks, y ∈ s.webhooks := by
  obtain ⟨-, h⟩ := whenOnline_ok h
  split at h
  · cases h
    exact fun y hy => List.mem_of_mem_filter hy
  · cases h
    exact fun y hy => hy

namespace Act

def registration? : Act → Option Registration
  | .createWebhook r _ _ => some r
  | _ => none

def amendment? : Act → Option Amendment
  | .updateWebhook _ m _ => some m
  | .setActive _ active _ => some { active := some active }
  | _ => none

end Act

namespace Fleet

variable {crew : Crew} {f : Fleet} {a : Act} {acts : List Act}

/-- A webhook was stored before the action, or the action registered or amended it. -/
theorem webhook_origin {y : Webhook} (hy : y ∈ (f.step crew a).store.webhooks) :
    y ∈ f.store.webhooks ∨ (∃ r id now, a.registration? = some r ∧ y = r.toWebhook id now) ∨
      ∃ m now, a.amendment? = some m ∧ m.check = .ok () ∧
        ∃ x ∈ f.store.webhooks, y = { m.apply x with updatedAt := now } := by
  have amended : ∀ {id m now}, a.amendment? = some m →
      y ∈ (f.wrote (f.store.updateWebhook id m now)).store.webhooks → y ∈ f.store.webhooks ∨
        ∃ m now, a.amendment? = some m ∧ m.check = .ok () ∧
          ∃ x ∈ f.store.webhooks, y = { m.apply x with updatedAt := now } := by
    intro id m now hm hy
    rcases wrote_cases (f := f) (f.store.updateWebhook id m now) with same | ⟨w, call⟩
    · rw [same] at hy
      exact .inl hy
    · obtain ⟨accepted, origin⟩ := Store.updateWebhook_origin call
      obtain old | changed := origin y hy
      · exact .inl old
      · exact .inr ⟨m, now, hm, accepted, changed⟩
  cases other : a.aboutWebhooks with
  | false => exact .inl (webhooks_step crew f a other ▸ hy)
  | true =>
    cases a with
    | createWebhook r id now =>
      rcases wrote_cases (f := f) (f.store.createWebhook r id now) with same | ⟨w, call⟩
      · rw [step, same] at hy
        exact .inl hy
      · have stored : r.toWebhook id now = w := congrArg Prod.fst (Except.ok.inj (Store.whenOnline_ok call).2)
        rw [step, (Store.createWebhook_ok call).2.2, ← stored] at hy
        rcases List.mem_append.mp hy with old | new
        · exact .inl old
        · exact .inr (.inl ⟨r, id, now, rfl, List.mem_singleton.mp new⟩)
    | updateWebhook => exact (amended rfl hy).imp_right .inr
    | setActive => exact (amended rfl hy).imp_right .inr
    | deleteWebhook id =>
      rcases wrote_cases (f := f) (f.store.deleteWebhook id) with same | ⟨b, call⟩
      · rw [step, same] at hy
        exact .inl hy
      · exact .inl (Store.deleteWebhook_origin call y hy)
    | _ => cases other

/-- What holds of registrations and survives accepted amendments holds of every webhook. -/
theorem webhooks_run {P : Webhook → Prop} (crew : Crew) (stored : ∀ w ∈ f.store.webhooks, P w)
    (registered : ∀ a ∈ acts, ∀ r, a.registration? = some r → ∀ id now, P (r.toWebhook id now))
    (amended : ∀ a ∈ acts, ∀ m, a.amendment? = some m → m.check = .ok () → ∀ w now, P w →
      P { m.apply w with updatedAt := now }) : ∀ w ∈ (f.run crew acts).store.webhooks, P w := by
  induction acts using List.reverseRecOn with
  | nil => exact stored
  | append_singleton acts a ih =>
    have before := ih (fun b hb => registered b (List.mem_append_left _ hb))
      (fun b hb => amended b (List.mem_append_left _ hb))
    have last : a ∈ acts ++ [a] := List.mem_append_right _ List.mem_cons_self
    intro y hy
    rw [run_concat] at hy
    obtain old | ⟨r, id, now, hr, rfl⟩ | ⟨m, now, hm, accepted, x, hx, rfl⟩ := webhook_origin hy
    · exact before y old
    · exact registered a last r hr id now
    · exact amended a last m hm accepted x now (before x hx)

/-- In every run that starts from valid webhooks and registers checked ones, all webhooks keep the rules that amendments
are checked by. They stay valid if no amendment leaves the limits, which an accepted amendment need not respect. -/
theorem webhooks_keep_rules (crew : Crew) (valid : ∀ w ∈ f.store.webhooks, w.Valid)
    (registered : ∀ a ∈ acts, ∀ r, a.registration? = some r → r.Made) :
    (∀ w ∈ (f.run crew acts).store.webhooks, w.Sound) ∧
      ((∀ a ∈ acts, ∀ m, a.amendment? = some m → m.WithinLimits) → ∀ w ∈ (f.run crew acts).store.webhooks, w.Valid) ∧
      ∀ w : Webhook, w.Valid → ∀ m : Amendment, m.check = .ok () → ((m.apply w).Valid ↔ m.WithinLimits) := by
  have made := fun a ha r hr id now => (registered a ha r hr).valid id now
  refine ⟨?_, fun limited => ?_, fun w hw m hm => Amendment.valid_apply_iff hw hm⟩
  · refine webhooks_run crew (fun w hw => (valid w hw).sound) (fun a ha r hr id now => (made a ha r hr id now).sound) ?_
    exact fun a ha m hm accepted w now sound => Amendment.sound_apply sound accepted
  · refine webhooks_run crew valid made fun a ha m hm accepted w now hw => ?_
    obtain ⟨sound, short, selecting⟩ := (Amendment.valid_apply_iff hw accepted).mpr (limited a ha m hm)
    exact ⟨sound, short, selecting⟩

namespace Sample

def site : Registration := ⟨"site", "http://[::1]/", "s3cret", [some "*"], .ofTexts [], true⟩

theorem site_made : site.Made := by
  refine ⟨"site", "http://[::1]/", "s3cret", ["*"], [], Registration.make_ok_iff.mpr ⟨rfl, ?_, ?_⟩⟩
  · exact ⟨by decide, by decide +kernel, by decide, by decide⟩
  · exact ⟨by decide +kernel, fun e he => ⟨"*", List.mem_singleton.mp he, by decide⟩⟩

def amended (m : Amendment) : List Act := [.createWebhook site hook (second 0), .updateWebhook hook m (second 1)]

theorem amended_registered (m : Amendment) : ∀ a ∈ amended m, ∀ r, a.registration? = some r → r.Made := by
  intro a ha r hr
  simp only [amended, List.mem_cons, List.not_mem_nil, or_false] at ha
  obtain rfl | rfl := ha
  · obtain rfl := Option.some.inj hr
    exact site_made
  · cases hr

end Sample

theorem webhooks_keep_rules_renamed :
    ∃ w ∈ (initial.run Sample.crew (Sample.amended { name := some "archive" })).store.webhooks,
      w.name = "archive" ∧ w.Valid := by
  have stored : ∃ w ∈ (initial.run Sample.crew (Sample.amended { name := some "archive" })).store.webhooks,
      w.name = "archive" := by decide +kernel
  obtain ⟨w, hw, hname⟩ := stored
  have none_before : ∀ w ∈ initial.store.webhooks, w.Valid := fun w hw => (by cases hw)
  have rules := webhooks_keep_rules Sample.crew none_before (Sample.amended_registered { name := some "archive" })
  refine ⟨w, hw, hname, rules.2.1 (fun a ha m hm => ?_) w hw⟩
  simp only [Sample.amended, List.mem_cons, List.not_mem_nil, or_false] at ha
  obtain rfl | rfl := ha
  · cases hm
  · obtain rfl := Option.some.inj hm
    refine ⟨?_, fun es hes => (by cases hes)⟩
    rintro n ⟨⟩
    decide +kernel

/-- The check of amendments lets a list pass whose only entry is missing, and the webhook is valid no more. -/
theorem missing_entry_accepted : Amendment.check { events := some [none] } = .ok () ∧ Sample.site.Made ∧
    ∃ w ∈ (initial.run Sample.crew (Sample.amended { events := some [none] })).store.webhooks, ¬ w.Valid := by
  have stored : ∃ w ∈ (initial.run Sample.crew (Sample.amended { events := some [none] })).store.webhooks,
      w.events = [none] := by decide +kernel
  obtain ⟨w, hw, hevents⟩ := stored
  refine ⟨by decide, Sample.site_made, w, hw, fun valid => ?_⟩
  obtain ⟨p, hp, -⟩ := valid.limited.selecting none (hevents ▸ List.mem_singleton_self none)
  cases hp

end Fleet

end Courier
