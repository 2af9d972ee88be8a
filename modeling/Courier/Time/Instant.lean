import Courier.Duration
import Courier.Time.Calendar
set_option autoImplicit false

/-!
# Instants

An instant is a second counted from 1970-01-01T00:00:00Z with a fraction in nanoseconds. A fraction of a second or
more marks a leap second and occurs in the last second of a minute only. Instants exist from the year -262143 to the
year 262142; a sum that leaves this range does not exist.
-/

namespace Courier

structure Instant where
  secs : Int
  nanos : Nat
  first_le : -8334601228800 ≤ secs
  le_last : secs ≤ 8210266876799
  nanos_lt : nanos < 2000000000
  leap_last : 1000000000 ≤ nanos → secs % 60 = 59
  deriving DecidableEq, Repr

namespace Instant

theorem ext_parts {a b : Instant} (hs : a.secs = b.secs) (hn : a.nanos = b.nanos) : a = b := by
  cases a; cases b; simp_all

def ofParts? (secs : Int) (nanos : Nat) : Option Instant :=
  if h : (-8334601228800 ≤ secs ∧ secs ≤ 8210266876799) ∧ nanos < 2000000000 ∧ (1000000000 ≤ nanos → secs % 60 = 59) then
    some ⟨secs, nanos, h.1.1, h.1.2, h.2.1, h.2.2⟩
  else none

def first : Instant := ⟨-8334601228800, 0, by decide, by decide, by decide, by decide⟩

/-- The last instant that is no leap second. -/
def last : Instant := ⟨8210266876799, 999999999, by decide, by decide, by decide, by decide⟩

protected def le (a b : Instant) : Prop := a.secs < b.secs ∨ (a.secs = b.secs ∧ a.nanos ≤ b.nanos)

protected def lt (a b : Instant) : Prop := a.secs < b.secs ∨ (a.secs = b.secs ∧ a.nanos < b.nanos)

instance : LE Instant := ⟨Instant.le⟩
instance : LT Instant := ⟨Instant.lt⟩

instance (a b : Instant) : Decidable (a ≤ b) := by
  change Decidable (_ ∨ _)
  infer_instance

instance (a b : Instant) : Decidable (a < b) := by
  change Decidable (_ ∨ _)
  infer_instance

theorem le_def {a b : Instant} : a ≤ b ↔ a.secs < b.secs ∨ (a.secs = b.secs ∧ a.nanos ≤ b.nanos) := Iff.rfl

theorem lt_def {a b : Instant} : a < b ↔ a.secs < b.secs ∨ (a.secs = b.secs ∧ a.nanos < b.nanos) := Iff.rfl

theorem not_lt {a b : Instant} : ¬ a < b ↔ b ≤ a := by
  simp only [lt_def, le_def]
  omega

theorem not_le {a b : Instant} : ¬ a ≤ b ↔ b < a := by
  simp only [lt_def, le_def]
  omega

theorem le_trans {a b c : Instant} (h : a ≤ b) (g : b ≤ c) : a ≤ c := by
  simp only [le_def] at h g ⊢
  omega

/-- Second and fraction after a span has passed. A leap second that is left counts as none: its fraction stays below
a second, and going back from it starts at the second that follows. -/
def shift (secs : Int) (nanos : Nat) (d : Int) : Int × Int :=
  let whole := Int.tdiv d 1000000000
  let part := Int.tmod d 1000000000
  if 1000000000 ≤ nanos then
    if 0 < whole ∨ (0 < part ∧ 2000000000 - part ≤ nanos) then
      carry (secs + whole) ((nanos : Int) - 1000000000 + part)
    else if whole < 0 then carry (secs + 1 + whole) ((nanos : Int) - 1000000000 + part)
    else (secs, nanos + part)
  else carry (secs + whole) (nanos + part)
where
  carry (s n : Int) : Int × Int :=
    if n < 0 then (s - 1, n + 1000000000)
    else if 1000000000 ≤ n then (s + 1, n - 1000000000)
    else (s, n)

def add? (t : Instant) (d : Span) : Option Instant :=
  let (s, n) := shift t.secs t.nanos d.val
  ofParts? s n.toNat

def sub? (t : Instant) (d : Span) : Option Instant :=
  let (s, n) := shift t.secs t.nanos (-d.val)
  ofParts? s n.toNat

end Instant

end Courier
