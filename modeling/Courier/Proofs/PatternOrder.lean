import Courier.Proofs.FanOut
set_option autoImplicit false

namespace Courier

namespace Event

theorem Selected.refl (p : List Char) : Selected p p := .inr (.inl rfl)

theorem Selected.trans {p q type : List Char} (upper : Selected q p) (lower : Selected p type) : Selected q type := by
  rcases upper with rfl | rfl | ⟨stem, rfl, begins⟩
  · exact .inl rfl
  · exact lower
  · -- the pattern between goes on with a point behind the stem, and so does what it selects
    rcases lower with rfl | rfl | ⟨longer, rfl, continues⟩
    · have one := begins.length_le
      obtain rfl : stem = [] := List.eq_nil_of_length_eq_zero (by simpa using one)
      simp at begins
    · exact .inr (.inr ⟨stem, rfl, begins⟩)
    · refine .inr (.inr ⟨stem, rfl, ?_⟩)
      rw [show longer ++ ['.', '*'] = longer ++ ['.'] ++ ['*'] by simp, List.prefix_concat_iff] at begins
      rcases begins with whole | within
      · have last := congrArg List.getLast? whole
        simp at last
      · exact within.trans continues

theorem matchesPattern_iff_selected {pattern type : String} :
    matchesPattern pattern type = true ↔ Selected pattern.toList type.toList := selects_iff

theorem matchesPattern_refl (p : String) : matchesPattern p p = true :=
  matchesPattern_iff_selected.mpr (.refl _)

theorem matchesPattern_trans {p q type : String} (upper : matchesPattern q p = true)
    (lower : matchesPattern p type = true) : matchesPattern q type = true :=
  matchesPattern_iff_selected.mpr ((matchesPattern_iff_selected.mp upper).trans (matchesPattern_iff_selected.mp lower))

/-- A pattern is selected by exactly those patterns that select all that it selects. -/
theorem matchesPattern_iff_forall {p q : String} :
    matchesPattern q p = true ↔ ∀ type, matchesPattern p type = true → matchesPattern q type = true :=
  ⟨fun upper _ => matchesPattern_trans upper, fun all => all p (matchesPattern_refl p)⟩

theorem matchesPattern_iff {pattern type : String} : matchesPattern pattern type = true ↔
    pattern = "*" ∨ pattern = type ∨ ∃ stem rest, pattern = stem ++ ".*" ∧ type = stem ++ "." ++ rest := by
  rw [matchesPattern_iff_selected, Selected, String.toList_inj]
  refine or_congr (@String.toList_inj pattern "*") (or_congr_right ⟨?_, ?_⟩)
  · rintro ⟨stem, hp, rest, htype⟩
    refine ⟨String.ofList stem, String.ofList rest, ?_, ?_⟩
    · rw [← String.toList_inj, hp]
      simp
    · rw [← String.toList_inj, ← htype]
      simp
  · rintro ⟨stem, rest, rfl, rfl⟩
    exact ⟨stem.toList, by simp, rest.toList, by simp⟩

example : matchesPattern "a.*" "a.*.*" = true ∧ matchesPattern "a.*" "a" = false ∧ matchesPattern ".*" "." = true := by
  decide +kernel

end Event

namespace Webhook

open Event (matchesPattern matchesPattern_iff matchesPattern_refl matchesPattern_trans matchesPattern_iff_forall)

def Covers (es fs : List (Option String)) : Prop := ∀ p, some p ∈ fs → ∃ q, some q ∈ es ∧ matchesPattern q p = true

variable {es fs : List (Option String)}

theorem anySelects_iff {type : String} : anySelects es type = true ↔ ∃ p, some p ∈ es ∧ matchesPattern p type = true := by
  unfold anySelects
  rw [List.any_eq_true]
  constructor
  · rintro ⟨e, he, selected⟩
    cases e with
    | none => cases selected
    | some p => exact ⟨p, he, selected⟩
  · rintro ⟨p, hp, selected⟩
    exact ⟨some p, hp, selected⟩

theorem covers_iff : Covers es fs ↔ ∀ type, anySelects fs type = true → anySelects es type = true := by
  constructor
  · intro covers type selected
    obtain ⟨p, hp, lower⟩ := anySelects_iff.mp selected
    obtain ⟨q, hq, upper⟩ := covers p hp
    exact anySelects_iff.mpr ⟨q, hq, matchesPattern_trans upper lower⟩
  · -- each pattern of the second list is itself a type that this list selects
    intro selects p hp
    exact anySelects_iff.mp (selects p (anySelects_iff.mpr ⟨p, hp, matchesPattern_refl p⟩))

theorem anySelects_eq_iff : (∀ type, anySelects es type = anySelects fs type) ↔ Covers es fs ∧ Covers fs es := by
  rw [covers_iff, covers_iff, ← forall_and]
  exact forall_congr' fun type => Bool.eq_iff_iff.trans ⟨fun same => ⟨same.mpr, same.mp⟩, fun both => ⟨both.2, both.1⟩⟩

theorem Covers.of_subset (subset : ∀ p, some p ∈ fs → some p ∈ es) : Covers es fs :=
  fun p hp => ⟨p, subset p hp, matchesPattern_refl p⟩

/-- A list covers itself with a pattern more that it selects. -/
theorem Covers.insert {first last : List (Option String)} {p : String} (selected : anySelects (first ++ last) p = true) :
    Covers (first ++ last) (first ++ some p :: last) := by
  intro r hr
  rw [List.mem_append, List.mem_cons, Option.some.injEq] at hr
  rcases hr with before | rfl | after
  · exact ⟨r, List.mem_append_left last before, matchesPattern_refl r⟩
  · exact anySelects_iff.mp selected
  · exact ⟨r, List.mem_append_right first after, matchesPattern_refl r⟩

/-- Patterns select by their form, and one of them selects all that another does exactly if it selects the other. What a
webhook wants is thus the same under two lists exactly if each covers the other, in particular if one has a pattern more
that the other selects, or if they have the same patterns. -/
theorem patterns_form_hierarchy :
    (∀ pattern type, matchesPattern pattern type = true ↔
      pattern = "*" ∨ pattern = type ∨ ∃ stem rest, pattern = stem ++ ".*" ∧ type = stem ++ "." ++ rest) ∧
    (∀ p, matchesPattern p p = true) ∧
    (∀ q p, matchesPattern q p = true ↔ ∀ type, matchesPattern p type = true → matchesPattern q type = true) ∧
    ∀ w : Webhook,
      (∀ es, (∀ type, { w with events := es }.subscribesTo type = w.subscribesTo type) ↔
        Covers es w.events ∧ Covers w.events es) ∧
      (∀ first last p q, w.events = first ++ last → some q ∈ w.events → matchesPattern q p = true →
        ∀ type, { w with events := first ++ some p :: last }.subscribesTo type = w.subscribesTo type) ∧
      ∀ es, (∀ p, some p ∈ es ↔ some p ∈ w.events) →
        ∀ type, { w with events := es }.subscribesTo type = w.subscribesTo type := by
  refine ⟨fun _ _ => matchesPattern_iff, matchesPattern_refl, fun _ _ => matchesPattern_iff_forall, fun w => ?_⟩
  have same : ∀ es, (∀ type, { w with events := es }.subscribesTo type = w.subscribesTo type) ↔
      Covers es w.events ∧ Covers w.events es := fun es => anySelects_eq_iff
  refine ⟨same, fun first last p q parts hq selected => (same _).mpr ⟨?_, ?_⟩, fun es members => (same es).mpr ⟨?_, ?_⟩⟩
  · refine .of_subset fun r hr => ?_
    rw [parts, List.mem_append] at hr
    exact List.mem_append.mpr (hr.imp_right (List.mem_cons_of_mem _))
  · rw [parts] at hq ⊢
    exact .insert (anySelects_iff.mpr ⟨q, hq, selected⟩)
  · exact .of_subset fun p => (members p).mpr
  · exact .of_subset fun p => (members p).mp

end Webhook

end Courier
