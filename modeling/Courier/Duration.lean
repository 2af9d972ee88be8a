set_option autoImplicit false

namespace Courier

def nanosPerSecond : Nat := 1000000000

/-- A length of time counted in nanoseconds, of less than 2 ^ 64 seconds. -/
structure Duration where
  nanos : Nat
  lt_bound : nanos < 18446744073709551616 * 1000000000
  deriving DecidableEq, Repr

namespace Duration

def ofNanos? (n : Nat) : Option Duration :=
  if h : n < 18446744073709551616 * 1000000000 then some ⟨n, h⟩ else none

def ofSeconds (s : Nat) (h : s < 18446744073709551616 := by decide) : Duration :=
  ⟨s * 1000000000, by omega⟩

def halfMinute : Duration := ofSeconds 30

def ofParts? (s n : Nat) : Option Duration := ofNanos? (s * 1000000000 + n)

def secs (d : Duration) : Nat := d.nanos / 1000000000

def subsec (d : Duration) : Nat := d.nanos % 1000000000

def add? (a b : Duration) : Option Duration := ofNanos? (a.nanos + b.nanos)

def mul? (a : Duration) (n : Nat) : Option Duration := ofNanos? (a.nanos * n)

protected def min (a b : Duration) : Duration := if a.nanos ≤ b.nanos then a else b

protected def max (a b : Duration) : Duration := if a.nanos ≤ b.nanos then b else a

theorem ext_nanos {a b : Duration} (h : a.nanos = b.nanos) : a = b := by
  cases a; cases b; simp_all

theorem nanos_min (a b : Duration) : (Duration.min a b).nanos = Nat.min a.nanos b.nanos := by
  unfold Duration.min
  split <;> simp [Nat.min_def, *]

theorem nanos_max (a b : Duration) : (Duration.max a b).nanos = Nat.max a.nanos b.nanos := by
  unfold Duration.max
  split <;> simp [Nat.max_def, *]

end Duration

/-- A signed length of time in nanoseconds whose milliseconds fit 64 bits; the least such integer is left out. -/
abbrev Span := { n : Int // -9223372036854775807000000 ≤ n ∧ n ≤ 9223372036854775807000000 }

namespace Span

def ofNanos? (n : Int) : Option Span :=
  if h : -9223372036854775807000000 ≤ n ∧ n ≤ 9223372036854775807000000 then some ⟨n, h⟩ else none

def ofMillis? (n : Int) : Option Span := ofNanos? (n * 1000000)

def ofDays? (n : Int) : Option Span :=
  let s := n * 86400
  if -9223372036854775 ≤ s ∧ s ≤ 9223372036854775 then ofNanos? (s * 1000000000) else none

def ofDuration? (d : Duration) : Option Span := ofNanos? d.nanos

def day : Span := ⟨86400000000000, by decide⟩

def ninetySeconds : Span := ⟨90000000000, by decide⟩

end Span

end Courier
