import Courier.Text.Hex
set_option autoImplicit false

namespace Courier

structure Uuid where
  value : Nat
  lt_bound : value < 340282366920938463463374607431768211456
  deriving DecidableEq, Repr

namespace Uuid

open Text

def ofNat (n : Nat) : Uuid := ⟨n % 340282366920938463463374607431768211456, Nat.mod_lt _ (by decide)⟩

def nil : Uuid := ⟨0, by decide⟩

def isNil (u : Uuid) : Bool := u.value == 0

def chars (u : Uuid) : List Char :=
  let d := hexPadded 32 u.value
  d.take 8 ++ '-' :: (d.drop 8).take 4 ++ '-' :: (d.drop 12).take 4 ++ '-' :: (d.drop 16).take 4 ++ '-' :: d.drop 20

def text (u : Uuid) : String := String.ofList u.chars

def ofDigits? (ds : List Char) : Option Uuid :=
  if ds.length = 32 then
    (ds.foldl (fun acc c => acc.bind fun n => (hexValue? c).map (n * 16 + ·)) (some 0)).map ofNat
  else none

def ofGroups? (s : List Char) : Option Uuid :=
  if s.length = 36 ∧ s[8]? = some '-' ∧ s[13]? = some '-' ∧ s[18]? = some '-' ∧ s[23]? = some '-' then
    ofDigits? (s.take 8 ++ (s.drop 9).take 4 ++ (s.drop 14).take 4 ++ (s.drop 19).take 4 ++ s.drop 24)
  else none

def ofChars? (s : List Char) : Option Uuid :=
  if s.length = 32 then ofDigits? s
  else if s.length = 36 then ofGroups? s
  else if s.length = 38 then
    if s.head? = some '\x7b' ∧ s.getLast? = some '\x7d' then ofGroups? ((s.drop 1).dropLast) else none
  else if s.length = 45 ∧ s.take 9 = "urn:uuid:".toList then ofGroups? (s.drop 9)
  else none

def ofText? (s : String) : Option Uuid := ofChars? s.toList

end Uuid

end Courier
