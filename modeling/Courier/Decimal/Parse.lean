import Courier.Bounded
import Courier.Decimal.Binary64
import Courier.Text.Hex
set_option autoImplicit false

namespace Courier

namespace Decimal

def natural? : List Char → Option Nat
  | [] => none
  | c :: r => if (c :: r).all isDigit then some (value (c :: r)) else none

def unsigned? : List Char → Option Nat
  | '+' :: r => natural? r
  | s => natural? s

def integer? : List Char → Option Int
  | '-' :: r => (natural? r).map fun n => -(n : Int)
  | s => (unsigned? s).map fun n => (n : Int)

def digitIn? (base : Nat) (c : Char) : Option Nat := (Text.hexValue? c).filter (· < base)

def naturalIn? (base : Nat) : List Char → Option Nat
  | [] => none
  | c :: r => (c :: r).foldl (fun n c => n.bind fun n => (digitIn? base c).map (n * base + ·)) (some 0)

end Decimal

namespace Binary64

def isWord (word : String) (s : List Char) : Bool := s.map Char.toLower == word.toList

def exponent? : List Char → Option Int
  | [] => some 0
  | c :: r => if c = 'e' ∨ c = 'E' then Decimal.integer? r else none

def magnitude? (negative : Bool) (s : List Char) : Option Binary64 :=
  if isWord "inf" s || isWord "infinity" s then some (infinity negative)
  else if isWord "nan" s then some nan
  else
    let whole := s.takeWhile Decimal.isDigit
    let left := s.drop whole.length
    let (fraction, left) := match left with
      | '.' :: r => (r.takeWhile Decimal.isDigit, r.dropWhile Decimal.isDigit)
      | _ => ([], left)
    if whole.isEmpty && fraction.isEmpty then none
    else (exponent? left).map fun e => ofDecimal negative (Decimal.value (whole ++ fraction)) (e - fraction.length)

def parse? : List Char → Option Binary64
  | '-' :: r => magnitude? true r
  | '+' :: r => magnitude? false r
  | s => magnitude? false s

end Binary64

end Courier
