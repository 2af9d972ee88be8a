set_option autoImplicit false

namespace Courier.Decimal

def padded (width n : Nat) : List Char :=
  let d := Nat.toDigits 10 n
  List.replicate (width - d.length) '0' ++ d

def ofInt (n : Int) : List Char :=
  if n < 0 then '-' :: Nat.toDigits 10 n.natAbs else Nat.toDigits 10 n.natAbs

def digit? (c : Char) : Option Nat :=
  let n := c.val.toNat
  if 48 ≤ n ∧ n ≤ 57 then some (n - 48) else none

def isDigit (c : Char) : Bool := (digit? c).isSome

/-- The number that digits spell; other characters count as zeros. -/
def value (ds : List Char) : Nat := ds.foldl (fun n c => n * 10 + (digit? c).getD 0) 0

end Courier.Decimal
