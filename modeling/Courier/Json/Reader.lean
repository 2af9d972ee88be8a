import Courier.Json.Value
import Courier.Text.Quoted
import Courier.Text.Utf8
set_option autoImplicit false

/-!
# Reading JSON

The reader works on the characters that are left. An error keeps what was left when it arose, which fixes its line
and column. Values may nest 127 deep. A number with a point, an exponent, or more digits than fit 64 bits is
approximated: its digits as far as they fit, times or divided by a power of ten.
-/

namespace Courier.Json

inductive Fault where
  | eofValue
  | eofString
  | eofList
  | eofObject
  | expectedColon
  | expectedListEnd
  | expectedObjectEnd
  | expectedIdent
  | expectedValue
  | invalidEscape
  | invalidNumber
  | numberOutOfRange
  | controlCharacter
  | keyMustBeString
  | loneSurrogate
  | trailingComma
  | trailingCharacters
  | unexpectedEndOfHexEscape
  | recursionLimit
  | data (text : String)
  deriving DecidableEq, Repr

inductive Fault.Sort where
  | eof
  | syntactic
  | data
  deriving DecidableEq, Repr

namespace Fault

def sort : Fault → Fault.Sort
  | .eofValue | .eofString | .eofList | .eofObject => .eof
  | .data _ => .data
  | _ => .syntactic

def message : Fault → String
  | .eofValue => "EOF while parsing a value"
  | .eofString => "EOF while parsing a string"
  | .eofList => "EOF while parsing a list"
  | .eofObject => "EOF while parsing an object"
  | .expectedColon => "expected `:`"
  | .expectedListEnd => "expected `,` or `]`"
  | .expectedObjectEnd => "expected `,` or `\x7d`"
  | .expectedIdent => "expected ident"
  | .expectedValue => "expected value"
  | .invalidEscape => "invalid escape"
  | .invalidNumber => "invalid number"
  | .numberOutOfRange => "number out of range"
  | .controlCharacter => "control character (\\u0000-\\u001F) found while parsing a string"
  | .keyMustBeString => "key must be a string"
  | .loneSurrogate => "lone leading surrogate in hex escape"
  | .trailingComma => "trailing comma"
  | .trailingCharacters => "trailing characters"
  | .unexpectedEndOfHexEscape => "unexpected end of hex escape"
  | .recursionLimit => "recursion limit exceeded"
  | .data text => text

end Fault

/-- A fault and where it arose: the characters left, and whether the next of them is to blame. -/
structure Error where
  fault : Fault
  left : List Char
  ahead : Bool
  deriving DecidableEq, Repr

def Error.offset (e : Error) (whole : List Char) : Nat :=
  let total := (Text.utf8 whole).length
  min total (total - (Text.utf8 e.left).length + if e.ahead then 1 else 0)

def Error.place (e : Error) (whole : List Char) : Nat × Nat :=
  let before := (Text.utf8 whole).take (e.offset whole)
  (1 + before.count 10, (before.reverse.takeWhile (· != 10)).length)

def Error.message (e : Error) (whole : List Char) : String :=
  let (line, column) := e.place whole
  s!"{e.fault.message} at line {line} column {column}"

abbrev Step (α : Type) := Except Error (α × List Char)

def failAt {α : Type} (f : Fault) (left : List Char) : Except Error α := .error ⟨f, left, true⟩

def failPast {α : Type} (f : Fault) (left : List Char) : Except Error α := .error ⟨f, left, false⟩

def skipBlank (s : List Char) : List Char :=
  s.dropWhile fun c => c = ' ' || c = '\n' || c = '\t' || c = '\r'

def ident : List Char → List Char → Except Error (List Char)
  | [], s => .ok s
  | _ :: _, [] => failPast .eofValue []
  | c :: w, d :: s => if c = d then ident w s else failPast .expectedIdent s

/-! ### Strings -/

inductive Mode where
  | plain
  | escaped
  /-- Inside a four-digit escape, after a leading half if there is one; the digits so far, last first. -/
  | hex (lead : Option Nat) (digits : List Char)
  /-- Behind a leading half, before the backslash and before the `u` of the other half. -/
  | wantSlash (lead : Nat)
  | wantLetter (lead : Nat)
  deriving DecidableEq, Repr

def simpleEscape? (c : Char) : Option Char :=
  if c = '"' ∨ c = '\\' ∨ c = '/' then some c
  else if c = 'b' then some (Char.ofNat 8)
  else if c = 'f' then some (Char.ofNat 12)
  else if c = 'n' then some '\n'
  else if c = 'r' then some '\r'
  else if c = 't' then some '\t'
  else none

/-- The number that four hexadecimal digits spell; they come last first. -/
def hexNumber? (digits : List Char) : Option Nat :=
  digits.foldr (fun c acc => acc.bind fun n => (Text.hexValue? c).map (n * 16 + ·)) (some 0)

/-- What a complete four-digit escape means: a character, or the leading half of one. -/
def hexMeaning (strict : Bool) (lead : Option Nat) (n : Nat) : Except Fault (Char ⊕ Nat) :=
  match lead with
  | some h =>
    if 0xDC00 ≤ n ∧ n ≤ 0xDFFF then .ok (.inl (Char.ofNat (0x10000 + (h - 0xD800) * 0x400 + (n - 0xDC00))))
    else .error .loneSurrogate
  | none =>
    if strict = false then .ok (.inl Text.replacement)
    else if 0xDC00 ≤ n ∧ n ≤ 0xDFFF then .error .loneSurrogate
    else if 0xD800 ≤ n ∧ n ≤ 0xDBFF then .ok (.inr n)
    else .ok (.inl (Char.ofNat n))

/-- Reads the inside of a string up to the closing quote; `out` has the characters so far, last first. A lenient
reading only checks the form of escapes. -/
def stringLoop (strict : Bool) (mode : Mode) (out : List Char) : List Char → Step (List Char)
  | [] => failPast .eofString []
  | c :: s =>
    match mode with
    | .plain =>
      if c = '"' then .ok (out.reverse, s)
      else if c = '\\' then stringLoop strict .escaped out s
      else if c.val.toNat < 32 then failPast .controlCharacter s
      else stringLoop strict .plain (c :: out) s
    | .escaped =>
      if c = 'u' then stringLoop strict (.hex none []) out s
      else match simpleEscape? c with
        | some d => stringLoop strict .plain (d :: out) s
        | none => failPast .invalidEscape s
    | .hex lead digits =>
      if digits.length < 3 then stringLoop strict (.hex lead (c :: digits)) out s
      else match hexNumber? (c :: digits) with
        | none => failPast .invalidEscape s
        | some n =>
          match hexMeaning strict lead n with
          | .error f => failPast f s
          | .ok (.inl d) => stringLoop strict .plain (d :: out) s
          | .ok (.inr h) => stringLoop strict (.wantSlash h) out s
    | .wantSlash h =>
      if c = '\\' then stringLoop strict (.wantLetter h) out s else failPast .unexpectedEndOfHexEscape s
    | .wantLetter h =>
      if c = 'u' then stringLoop strict (.hex (some h) []) out s else failPast .unexpectedEndOfHexEscape s

def stringTail (s : List Char) : Step String :=
  (stringLoop true .plain [] s).map fun (cs, r) => (String.ofList cs, r)

/-! ### Numbers -/

inductive Number where
  | integer (n : JsonInteger)
  | binary (x : Binary64)
  deriving DecidableEq, Repr

def Number.toJson : Number → Json
  | .integer n => .integer n
  | .binary x => .binary x

def digits (s : List Char) : List Char := s.takeWhile Decimal.isDigit

/-- Adds digits to a significand while it fits 64 bits, and says how many were taken. -/
def takeDigits (sig taken : Nat) : List Char → Nat × Nat
  | [] => (sig, taken)
  | c :: r =>
    let n := sig * 10 + (Decimal.digit? c).getD 0
    if 18446744073709551615 < n then (sig, taken) else takeDigits n (taken + 1) r

def tenTo (n : Nat) : Float := Float.ofScientific 1 false n

/-- `sig * 10 ^ e` by one multiplication or by divisions; none when it is too large. -/
def approximate? (sig : Nat) (e : Int) : Option Float :=
  let f := (UInt64.ofNat sig).toFloat
  if 308 < e then (if f == 0 then some f else none)
  else if 0 ≤ e then
    let g := f * tenTo e.toNat
    if g.isInf then none else some g
  else divide 8 f e
where
  /-- Divides by powers of ten of at most 308. -/
  divide : Nat → Float → Int → Option Float
    | 0, f, _ => some (f * 0)
    | fuel + 1, f, e =>
      if e < -308 then (if f == 0 then some f else divide fuel (f / tenTo 308) (e + 308))
      else some (f / tenTo (-e).toNat)

def binaryNumber (positive : Bool) (sig : Nat) (e : Int) (left : List Char) : Step Number :=
  match approximate? sig e with
  | some f => .ok (.binary (.ofFloat (if positive then f else -f)), left)
  | none => failPast .numberOutOfRange left

def exponent (positive : Bool) (sig : Nat) (e : Int) (s : List Char) : Step Number :=
  let (up, s) := match s with
    | '+' :: r => (true, r)
    | '-' :: r => (false, r)
    | _ => (true, s)
  match s with
  | [] => failPast .eofValue []
  | c :: r =>
    if Decimal.isDigit c then
      let ds := digits s
      let x := Decimal.value ds
      let left := s.drop ds.length
      if 2147483647 < x then
        if sig ≠ 0 ∧ up then
          -- the digit that overflows is the last one read
          let fitting := ((List.range (ds.length + 1)).filter fun n => Decimal.value (ds.take n) ≤ 2147483647).length
          failPast .numberOutOfRange (s.drop fitting)
        else .ok (.binary (.ofFloat (if positive then 0 else -0)), left)
      else binaryNumber positive sig (if up then min (e + x) 2147483647 else max (e - x) (-2147483648)) left
    else failPast .invalidNumber r

def exponentOr (positive : Bool) (sig : Nat) (e : Int) (s : List Char) : Step Number :=
  match s with
  | c :: r => if c = 'e' ∨ c = 'E' then exponent positive sig e r else binaryNumber positive sig e s
  | [] => binaryNumber positive sig e s

def fraction (positive : Bool) (sig : Nat) (e : Int) (s : List Char) : Step Number :=
  let ds := digits s
  match ds, s with
  | [], [] => failAt .eofValue []
  | [], _ :: _ => failAt .invalidNumber s
  | _ :: _, _ =>
    let (sig, taken) := takeDigits sig 0 ds
    exponentOr positive sig (e - taken) (s.drop ds.length)

/-- The whole number of a significand and a sign; what does not fit becomes a number with a point. -/
def wholeNumber (positive : Bool) (sig : Nat) (s : List Char) : Step Number :=
  if positive then
    match Bounded.ofInt? (sig : Int) with
    | some n => .ok (.integer n, s)
    | none => failPast .numberOutOfRange s
  else if sig = 0 ∨ 9223372036854775808 < sig then
    .ok (.binary (.ofFloat (-(UInt64.ofNat sig).toFloat)), s)
  else
    match Bounded.ofInt? (-(sig : Int)) with
    | some n => .ok (.integer n, s)
    | none => failPast .numberOutOfRange s

def number (positive : Bool) (s : List Char) : Step Number :=
  match s with
  | [] => failPast .eofValue []
  | c :: r =>
    if Decimal.isDigit c = false then failPast .invalidNumber r
    else if c = '0' ∧ (r.head?.any Decimal.isDigit) then failAt .invalidNumber r
    else
      let ds := digits s
      let (sig, taken) := takeDigits 0 0 ds
      let extra : Int := (ds.length - taken : Nat)
      let left := s.drop ds.length
      match left with
      | '.' :: l => fraction positive sig extra l
      | _ =>
        if 0 < extra then exponentOr positive sig extra left
        else match left with
          | d :: l => if d = 'e' ∨ d = 'E' then exponent positive sig 0 l else wholeNumber positive sig left
          | [] => wholeNumber positive sig left

/-! ### Values -/

def nextItem (first : Bool) (s : List Char) : Step Bool :=
  match skipBlank s with
  | [] => failAt .eofList []
  | c :: r =>
    if c = ']' then .ok (false, r)
    else if first then .ok (true, c :: r)
    else if c = ',' then
      match skipBlank r with
      | [] => failAt .eofValue []
      | d :: l => if d = ']' then failAt .trailingComma (d :: l) else .ok (true, d :: l)
    else failAt .expectedListEnd (c :: r)

def nextName (first : Bool) (s : List Char) : Step Bool :=
  match skipBlank s with
  | [] => failAt .eofObject []
  | c :: r =>
    if c = '\x7d' then .ok (false, r)
    else if first then (if c = '"' then .ok (true, r) else failAt .keyMustBeString (c :: r))
    else if c = ',' then
      match skipBlank r with
      | [] => failAt .eofValue []
      | d :: l =>
        if d = '"' then .ok (true, l)
        else if d = '\x7d' then failAt .trailingComma (d :: l)
        else failAt .keyMustBeString (d :: l)
    else failAt .expectedObjectEnd (c :: r)

def colon (s : List Char) : Except Error (List Char) :=
  match skipBlank s with
  | [] => failAt .eofObject []
  | c :: r => if c = ':' then .ok r else failAt .expectedColon (c :: r)

mutual

/-- Reads a value. The fuel bounds the number of steps, the depth how far lists and objects may nest. -/
def value (fuel depth : Nat) (s : List Char) : Step Json :=
  match fuel with
  | 0 => failAt .eofValue s
  | fuel + 1 =>
    match skipBlank s with
    | [] => failAt .eofValue []
    | c :: r =>
      if c = 'n' then (ident ['u', 'l', 'l'] r).map fun r => (.null, r)
      else if c = 't' then (ident ['r', 'u', 'e'] r).map fun r => (.bool true, r)
      else if c = 'f' then (ident ['a', 'l', 's', 'e'] r).map fun r => (.bool false, r)
      else if c = '-' then (number false r).map fun (n, r) => (n.toJson, r)
      else if Decimal.isDigit c then (number true (c :: r)).map fun (n, r) => (n.toJson, r)
      else if c = '"' then (stringTail r).map fun (t, r) => (.string t, r)
      else if c = '[' then
        if depth ≤ 1 then failAt .recursionLimit (c :: r)
        else (items fuel (depth - 1) true r).map fun (xs, r) => (.array xs, r)
      else if c = '\x7b' then
        if depth ≤ 1 then failAt .recursionLimit (c :: r)
        else (members fuel (depth - 1) true r).map fun (ms, r) => (.object (sortMembers ms), r)
      else failAt .expectedValue (c :: r)

def items (fuel depth : Nat) (first : Bool) (s : List Char) : Step (List Json) :=
  match fuel with
  | 0 => failAt .eofList s
  | fuel + 1 =>
    match nextItem first s with
    | .error e => .error e
    | .ok (false, r) => .ok ([], r)
    | .ok (true, r) =>
      match value fuel depth r with
      | .error e => .error e
      | .ok (j, r) => (items fuel depth false r).map fun (js, r) => (j :: js, r)

def members (fuel depth : Nat) (first : Bool) (s : List Char) : Step (List (String × Json)) :=
  match fuel with
  | 0 => failAt .eofObject s
  | fuel + 1 =>
    match nextName first s with
    | .error e => .error e
    | .ok (false, r) => .ok ([], r)
    | .ok (true, r) =>
      match stringTail r with
      | .error e => .error e
      | .ok (k, r) =>
        match colon r with
        | .error e => .error e
        | .ok r =>
          match value fuel depth r with
          | .error e => .error e
          | .ok (j, r) => (members fuel depth false r).map fun (ms, r) => ((k, j) :: ms, r)

end

def fuelFor (s : List Char) : Nat := 2 * s.length + 2

def depthLimit : Nat := 128

def finish {α : Type} (x : α × List Char) : Except Error α :=
  match skipBlank x.2 with
  | [] => .ok x.1
  | s => failAt .trailingCharacters s

def parse (s : String) : Except Error Json :=
  let cs := s.toList
  (value (fuelFor cs) depthLimit cs).bind finish

end Courier.Json
