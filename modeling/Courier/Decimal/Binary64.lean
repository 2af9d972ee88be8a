import Courier.Decimal.Digits
set_option autoImplicit false

namespace Courier

structure Binary64 where
  bits : UInt64
  deriving DecidableEq, Repr

namespace Binary64

def ofFloat (f : Float) : Binary64 := ⟨f.toBits⟩

def toFloat (b : Binary64) : Float := Float.ofBits b.bits

def signWeight : Nat := 9223372036854775808

def fractions : Nat := 4503599627370496

def isNegative (b : Binary64) : Bool := signWeight ≤ b.bits.toNat

def exponentBits (b : Binary64) : Nat := b.bits.toNat / fractions % 2048

def fractionBits (b : Binary64) : Nat := b.bits.toNat % fractions

def isFinite (b : Binary64) : Bool := b.exponentBits != 2047

def isNaN (b : Binary64) : Bool := b.exponentBits == 2047 && b.fractionBits != 0

/-- Significand `m` and exponent `q` of a finite number, whose magnitude is `m * 2 ^ q`. -/
def parts (b : Binary64) : Nat × Int :=
  if b.exponentBits = 0 then (b.fractionBits, -1074)
  else (b.fractionBits + fractions, (b.exponentBits : Int) - 1075)

def scaled (n base : Nat) (e : Int) : Nat × Nat :=
  if 0 ≤ e then (n * Nat.pow base e.toNat, 1) else (n, Nat.pow base (-e).toNat)

/-- The least `p` with `num / den < 10 ^ p`, up to one at exact powers of ten. -/
def magnitude (num den : Nat) : Int :=
  if den ≤ num then (Nat.toDigits 10 (num / den)).length
  else 1 - (Nat.toDigits 10 (den / num)).length

/-- Tries a grid of `10 ^ k`: the nearest grid point among the two neighbours of `v / 4 * 2 ^ q` that lies between
`lo / 4 * 2 ^ q` and `hi / 4 * 2 ^ q`, the ends included if `closed`. An exact tie goes to the even point. -/
def onGrid? (lo v hi : Nat) (q k : Int) (closed : Bool) : Option Nat :=
  let (gn, gd) := scaled 1 10 k
  let (bn, bd) := scaled 1 2 (q - 2)
  -- a point d lies at d * gn / gd, the number at v * bn / bd
  let unit := gn * bd
  let place (n : Nat) := n * bn * gd
  let d := place v / unit
  let fits (n : Nat) :=
    if closed then place lo ≤ n * unit && n * unit ≤ place hi else place lo < n * unit && n * unit < place hi
  let below := place v - d * unit
  let above := (d + 1) * unit - place v
  match fits d, fits (d + 1) with
  | true, true => if below < above || (below = above && d % 2 = 0) then some d else some (d + 1)
  | true, false => some d
  | false, true => some (d + 1)
  | false, false => none

def stripZeros : Nat → Nat → Int → Nat × Int
  | 0, d, e => (d, e)
  | fuel + 1, d, e => if d ≠ 0 ∧ d % 10 = 0 then stripZeros fuel (d / 10) (e + 1) else (d, e)

def search (lo v hi : Nat) (q p : Int) (closed : Bool) : Nat → Nat → Nat × Int
  | 0, n => (v, p - n)
  | fuel + 1, n =>
    match onGrid? lo v hi q (p - n) closed with
    | some d => (d, p - n)
    | none => search lo v hi q p closed fuel (n + 1)

/-- Digits `d` and exponent `e` of the shortest `d * 10 ^ e` that reads back to the magnitude of a finite number. -/
def shortest (b : Binary64) : Nat × Int :=
  let (m, q) := b.parts
  if m = 0 then (0, 0)
  else
    let lo := if m = fractions ∧ 1 < b.exponentBits then 4 * m - 1 else 4 * m - 2
    let (num, den) := scaled m 2 q
    let (d, e) := search lo (4 * m) (4 * m + 2) q (magnitude num den) (m % 2 = 0) 18 1
    stripZeros 20 d e

structure Style where
  /-- The least and the largest place of the decimal point, counted from the first digit, without an exponent. -/
  least : Option Int
  largest : Option Int
  /-- Whether a whole number keeps `.0`. -/
  keepPoint : Bool
  plusSign : Bool

def Style.json : Style := ⟨some (-4), some 16, true, true⟩

def Style.inspected : Style := ⟨some (-3), some 16, true, false⟩

def Style.positional : Style := ⟨none, none, false, false⟩

def Style.pointed : Style := ⟨none, none, true, false⟩

def layout (style : Style) (d : Nat) (e : Int) : List Char :=
  let ds := Nat.toDigits 10 d
  let point : Int := if d = 0 then 1 else ds.length + e
  let plain := (style.least.all (· ≤ point)) && (style.largest.all (point ≤ ·))
  if plain then
    if point ≤ 0 then '0' :: '.' :: (List.replicate (-point).toNat '0' ++ ds)
    else if ds.length ≤ point.toNat then
      ds ++ List.replicate (point.toNat - ds.length) '0' ++ (if style.keepPoint then ['.', '0'] else [])
    else ds.take point.toNat ++ '.' :: ds.drop point.toNat
  else
    let head := match ds with
      | [c] => [c]
      | c :: r => c :: '.' :: r
      | [] => []
    let x := point - 1
    head ++ 'e' :: ((if style.plusSign ∧ 0 ≤ x then ['+'] else []) ++ Decimal.ofInt x)

def chars (style : Style) (b : Binary64) : List Char :=
  if b.isNaN then ['N', 'a', 'N']
  else
    let sign := if b.isNegative then ['-'] else []
    if b.isFinite then
      let (d, e) := b.shortest
      sign ++ layout style d e
    else sign ++ ['i', 'n', 'f']

def nan : Binary64 := ⟨0x7FF8000000000000⟩

def infinity (negative : Bool) : Binary64 := ⟨if negative then 0xFFF0000000000000 else 0x7FF0000000000000⟩

def leading (num den : Nat) : Int :=
  let top : Int := (num.log2 : Int) - den.log2
  let (tn, td) := scaled 1 2 top
  if den * tn ≤ num * td then top else top - 1

/-- The nearest number to `num / den`, with a sign. A tie goes to the even significand. -/
def nearest (negative : Bool) (num den : Nat) : Binary64 :=
  let sign := if negative then signWeight else 0
  if num = 0 then ⟨.ofNat sign⟩
  else
    let q := max (leading num den - 52) (-1074)
    let (n, d) := scaled 1 2 (-q)
    let a := num * n
    let b := den * d
    let up := b < 2 * (a % b) || (b == 2 * (a % b) && a / b % 2 == 1)
    let m := a / b + if up then 1 else 0
    ⟨.ofNat (sign + min ((q + 1074).toNat * fractions + m) (2047 * fractions))⟩

def ofDecimal (negative : Bool) (m : Nat) (e : Int) : Binary64 :=
  let digits : Int := (Nat.toDigits 10 m).length
  if m = 0 ∨ digits + e < -400 then nearest negative 0 1
  else if 400 < digits + e then infinity negative
  else
    let (num, den) := scaled m 10 e
    nearest negative num den

def ofInt (n : Int) : Binary64 := nearest (n < 0) n.natAbs 1

/-- The nearest integer; a half goes away from zero. The undefined number counts as zero, an infinite one as larger
than any that fits 64 bits. -/
def round (b : Binary64) : Int :=
  if b.isNaN then 0
  else
    let (m, q) := b.parts
    let n : Nat :=
      if 0 ≤ q then m * Nat.pow 2 q.toNat else (m + Nat.pow 2 ((-q).toNat - 1)) / Nat.pow 2 (-q).toNat
    if b.isNegative then -(n : Int) else n

def isZero (b : Binary64) : Bool := b.bits.toNat % signWeight == 0

end Binary64

end Courier
