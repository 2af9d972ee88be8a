set_option autoImplicit false

namespace Courier

/-- An integer between `lo` and `hi`, both included. -/
structure Bounded (lo hi : Int) where
  val : Int
  lo_le : lo ≤ val
  le_hi : val ≤ hi
  deriving DecidableEq, Repr

abbrev Word32 := Bounded (-2147483648) 2147483647

abbrev Word64 := Bounded (-9223372036854775808) 9223372036854775807

abbrev Count32 := Bounded 0 4294967295

abbrev Count64 := Bounded 0 18446744073709551615

namespace Bounded

variable {lo hi : Int}

theorem ext_val {a b : Bounded lo hi} (h : a.val = b.val) : a = b := by
  cases a; cases b; simp_all

def ofInt? (n : Int) : Option (Bounded lo hi) :=
  if h : lo ≤ n ∧ n ≤ hi then some ⟨n, h.1, h.2⟩ else none

def add? (a : Bounded lo hi) (n : Int) : Option (Bounded lo hi) := ofInt? (a.val + n)

def clamp (n : Int) (h : lo ≤ hi) : Bounded lo hi := ⟨max lo (min hi n), by omega, by omega⟩

/-- The bounded integer that differs from this value by a multiple of the size of the range. -/
def wrap (n : Int) (h : lo ≤ hi) : Bounded lo hi :=
  ⟨lo + (n - lo) % (hi - lo + 1),
    by have := Int.emod_nonneg (n - lo) (show hi - lo + 1 ≠ 0 by omega); omega,
    by have := Int.emod_lt_of_pos (n - lo) (show 0 < hi - lo + 1 by omega); omega⟩

theorem ofInt?_val (a : Bounded lo hi) : ofInt? a.val = some a := by
  unfold ofInt?
  rw [dif_pos ⟨a.lo_le, a.le_hi⟩]

theorem val_of_ofInt? {n : Int} {a : Bounded lo hi} (h : ofInt? n = some a) : a.val = n := by
  unfold ofInt? at h
  split at h
  · cases h; rfl
  · cases h

theorem ofInt?_eq_none_iff {n : Int} : (ofInt? n : Option (Bounded lo hi)) = none ↔ n < lo ∨ hi < n := by
  unfold ofInt?
  split <;> simp <;> omega

end Bounded

namespace Word32

def ofNat (n : Nat) (h : n < 2147483648 := by decide) : Word32 := ⟨n, by omega, by omega⟩

def clamp (n : Int) : Word32 := Bounded.clamp n (by decide)

def wrap (n : Int) : Word32 := Bounded.wrap n (by decide)

end Word32

def Word64.clamp (n : Int) : Word64 := Bounded.clamp n (by decide)

namespace Count32

def clamp (n : Int) : Count32 := Bounded.clamp n (by decide)

def wrap (n : Int) : Count32 := Bounded.wrap n (by decide)

end Count32

def Count64.clamp (n : Int) : Count64 := Bounded.clamp n (by decide)

end Courier
