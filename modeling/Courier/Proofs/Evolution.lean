import Courier.Store.Claims
import Courier.Store.Deliveries
import Mathlib.Data.List.Basic
set_option autoImplicit false

/-!
# What an operation makes of a list of records

Every operation of the store passes through its records in order: it keeps a record, changed or not, or drops it, and
new records stand behind all others. Facts about records follow from the relation alone.
-/

namespace Courier

/-- Records kept as `keep` says, dropped as `gone` says, and new ones as `new` says. -/
inductive Evolves {α : Type} (keep : α → α → Prop) (gone new : α → Prop) : List α → List α → Prop
  | fresh {ys : List α} (h : ∀ y ∈ ys, new y) : Evolves keep gone new [] ys
  | kept {x y : α} {xs ys : List α} (h : keep x y) (tail : Evolves keep gone new xs ys) :
    Evolves keep gone new (x :: xs) (y :: ys)
  | lost {x : α} {xs ys : List α} (h : gone x) (tail : Evolves keep gone new xs ys) :
    Evolves keep gone new (x :: xs) ys

namespace Evolves

variable {α : Type} {keep keep' : α → α → Prop} {gone gone' new new' : α → Prop}

theorem refl (h : ∀ x, keep x x) (xs : List α) : Evolves keep gone new xs xs := by
  induction xs with
  | nil => exact .fresh (by intro y hy; cases hy)
  | cons x xs ih => exact .kept (h x) ih

theorem mono {xs ys : List α} (h : Evolves keep gone new xs ys) (hk : ∀ x y, keep x y → keep' x y)
    (hg : ∀ x, gone x → gone' x) (hn : ∀ y, new y → new' y) : Evolves keep' gone' new' xs ys := by
  induction h with
  | fresh h => exact .fresh fun y hy => hn y (h y hy)
  | kept h _ ih => exact .kept (hk _ _ h) ih
  | lost h _ ih => exact .lost (hg _ h) ih

theorem origin {xs ys : List α} (h : Evolves keep gone new xs ys) {y : α} (hy : y ∈ ys) :
    (∃ x ∈ xs, keep x y) ∨ new y := by
  induction h with
  | fresh h => exact .inr (h y hy)
  | @kept x z xs ys h _ ih =>
    rcases List.mem_cons.mp hy with rfl | hy
    · exact .inl ⟨x, List.mem_cons_self, h⟩
    · exact (ih hy).imp_left fun ⟨u, hu, hk⟩ => ⟨u, List.mem_cons_of_mem _ hu, hk⟩
  | lost _ _ ih => exact (ih hy).imp_left fun ⟨u, hu, hk⟩ => ⟨u, List.mem_cons_of_mem _ hu, hk⟩

theorem fate {xs ys : List α} (h : Evolves keep gone new xs ys) {x : α} (hx : x ∈ xs) :
    (∃ y ∈ ys, keep x y) ∨ gone x := by
  induction h with
  | fresh _ => cases hx
  | @kept u z xs ys h _ ih =>
    rcases List.mem_cons.mp hx with rfl | hx
    · exact .inl ⟨z, List.mem_cons_self, h⟩
    · exact (ih hx).imp_left fun ⟨y, hy, hk⟩ => ⟨y, List.mem_cons_of_mem _ hy, hk⟩
  | lost h _ ih =>
    rcases List.mem_cons.mp hx with rfl | hx
    · exact .inr h
    · exact ih hx

/-- A key that records keep: the keys afterwards are some of those before, in their order. -/
theorem keys_sublist {β : Type} {key : α → β} (same : ∀ x y, keep x y → key y = key x) (none : ∀ y, ¬ new y)
    {xs ys : List α} (h : Evolves keep gone new xs ys) : (ys.map key).Sublist (xs.map key) := by
  induction h with
  | @fresh ys h =>
    cases ys with
    | nil => exact .slnil
    | cons y ys => exact absurd (h y List.mem_cons_self) (none y)
  | kept h _ ih =>
    rw [List.map_cons, List.map_cons, same _ _ h]
    exact ih.cons_cons _
  | lost _ _ ih => exact ih.cons _

theorem keys_eq {β : Type} {key : α → β} (same : ∀ x y, keep x y → key y = key x) {xs ys : List α}
    (h : Evolves keep (fun _ => False) (fun _ => False) xs ys) : ys.map key = xs.map key := by
  induction h with
  | @fresh ys h =>
    cases ys with
    | nil => rfl
    | cons y ys => exact (h y List.mem_cons_self).elim
  | kept h _ ih => simp [same _ _ h, ih]
  | lost h _ _ => exact h.elim

/-- What stays as it is wherever it is kept: these records are the same before and afterwards. -/
theorem filter_eq {p : α → Bool} (same : ∀ x y, keep x y → p y = p x ∧ (p x = true → y = x)) {xs ys : List α}
    (h : Evolves keep (fun _ => False) (fun _ => False) xs ys) : ys.filter p = xs.filter p := by
  induction h with
  | @fresh ys h =>
    cases ys with
    | nil => rfl
    | cons y ys => exact (h y List.mem_cons_self).elim
  | @kept x y xs ys h _ ih =>
    obtain ⟨hp, hy⟩ := same x y h
    cases hx : p x with
    | true => simp [hy hx, hx, ih]
    | false => simp [hp, hx, ih]
  | lost h _ _ => exact h.elim

theorem append {xs : List α} (h : ∀ x, keep x x) {ys : List α} (hy : ∀ y ∈ ys, new y) :
    Evolves keep gone new xs (xs ++ ys) := by
  induction xs with
  | nil => exact .fresh hy
  | cons x xs ih => exact .kept (h x) ih

theorem map {xs : List α} {f : α → α} (h : ∀ x ∈ xs, keep x (f x)) : Evolves keep gone new xs (xs.map f) := by
  induction xs with
  | nil => exact .fresh (by intro y hy; cases hy)
  | cons x xs ih => exact .kept (h x List.mem_cons_self) (ih fun y hy => h y (List.mem_cons_of_mem _ hy))

theorem map_zipIdx {xs : List α} {f : α × Nat → α} {n : Nat} (h : ∀ x ∈ xs.zipIdx n, keep x.1 (f x)) :
    Evolves keep gone new xs ((xs.zipIdx n).map f) := by
  induction xs generalizing n with
  | nil => exact .fresh (by intro y hy; cases hy)
  | cons x xs ih =>
    rw [List.zipIdx_cons] at h ⊢
    exact .kept (h _ List.mem_cons_self) (ih fun y hy => h y (List.mem_cons_of_mem _ hy))

theorem filter {xs : List α} {p : α → Bool} (h : ∀ x, keep x x) (hg : ∀ x ∈ xs, p x = false → gone x) :
    Evolves keep gone new xs (xs.filter p) := by
  induction xs with
  | nil => exact .fresh (by intro y hy; cases hy)
  | cons x xs ih =>
    have tail := ih fun y hy => hg y (List.mem_cons_of_mem _ hy)
    cases hp : p x with
    | true =>
      rw [List.filter_cons_of_pos hp]
      exact .kept (h x) tail
    | false =>
      rw [List.filter_cons_of_neg (by simp [hp])]
      exact .lost (hg x List.mem_cons_self hp) tail

end Evolves

namespace Store

/-! ### The first record with a property -/

section ChangeFirst

variable {α : Type} {p : α → Bool} {f : α → α}

theorem changeFirst_evolves {xs ys : List α} {y : α} (h : changeFirst p f xs = some (y, ys)) :
    ∃ x, xs.find? p = some x ∧ y = f x ∧ y ∈ ys ∧
      Evolves (fun a b => b = a ∨ a = x ∧ b = y) (fun _ => False) (fun _ => False) xs ys := by
  induction xs generalizing ys with
  | nil => cases h
  | cons x xs ih =>
    unfold changeFirst at h
    split at h
    · rename_i hp
      cases h
      exact ⟨x, List.find?_cons_of_pos hp, rfl, List.mem_cons_self,
        .kept (.inr ⟨rfl, rfl⟩) (.refl (fun _ => .inl rfl) _)⟩
    · rename_i hp
      obtain ⟨⟨z, zs⟩, hz, he⟩ := Option.map_eq_some_iff.mp h
      cases he
      obtain ⟨u, hu, hy, hmem, htail⟩ := ih hz
      exact ⟨u, by rw [List.find?_cons_of_neg hp, hu], hy, List.mem_cons_of_mem _ hmem, .kept (.inl rfl) htail⟩

theorem changeFirst_none {xs : List α} (h : changeFirst p f xs = none) : ∀ x ∈ xs, p x = false := by
  induction xs with
  | nil => intro x hx; cases hx
  | cons x xs ih =>
    unfold changeFirst at h
    split at h
    · cases h
    · rename_i hp
      intro y hy
      rcases List.mem_cons.mp hy with rfl | hy
      · simpa using hp
      · exact ih (Option.map_eq_none_iff.mp h) y hy

theorem changeFirst_eq_none {xs : List α} (h : ∀ x ∈ xs, p x = false) : changeFirst p f xs = none := by
  induction xs with
  | nil => rfl
  | cons x xs ih =>
    unfold changeFirst
    rw [h x List.mem_cons_self, ih fun y hy => h y (List.mem_cons_of_mem _ hy)]
    rfl

end ChangeFirst

end Store

end Courier
