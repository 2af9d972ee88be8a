import Courier.Settings.Commented
set_option autoImplicit false

namespace Courier.Settings.Json5

def skip (s : List Char) : Option (List Char) := skipComments false s

def simpleEscape (c : Char) : Char :=
  ([('b', 8), ('f', 12), ('n', 10), ('r', 13), ('t', 9), ('v', 11), ('0', 0)].lookup c).elim c Char.ofNat

def escape? : List Char → Option (List Char × Nat)
  | [] => none
  | '\r' :: '\n' :: _ => some ([], 2)
  | c :: r =>
    if c = '\n' ∨ c = '\r' ∨ c.val.toNat = 0x2028 ∨ c.val.toNat = 0x2029 then some ([], 1)
    else if c = 'x' then (hexDigits? 2 r).map fun n => ([Char.ofNat n], 3)
    else if c = 'u' then
      (hexDigits? 4 r).bind fun n =>
        if n.isValidChar then some ([Char.ofNat n], 5)
        else match r.drop 4 with
          | '\\' :: 'u' :: s =>
            (hexDigits? 4 s).bind fun m =>
              if n < 0xDC00 ∧ 0xDC00 ≤ m ∧ m ≤ 0xDFFF then
                some ([Char.ofNat (0x10000 + (n - 0xD800) * 0x400 + (m - 0xDC00))], 11)
              else none
          | _ => none
    else if Decimal.isDigit c ∧ (c ≠ '0' ∨ r.head?.any Decimal.isDigit) then none
    else some ([simpleEscape c], 1)

def string (quote : Char) : List Char → Option (List Char × List Char)
  | [] => none
  | c :: r =>
    if c = quote then some ([], r)
    else if c = '\n' ∨ c = '\r' then none
    else if c = '\\' then
      (escape? r).bind fun (cs, n) => (string quote (r.drop n)).map fun (t, left) => (cs ++ t, left)
    else (string quote r).map fun (t, left) => (c :: t, left)
termination_by s => s.length
decreasing_by all_goals simp only [List.length_cons, List.length_drop]; omega

def isNameChar (c : Char) : Bool := c.isAlphanum || c == '_' || c == '$' || 128 ≤ c.val.toNat && !Text.isSpace c

def name (s : List Char) : Option (String × List Char) :=
  match s with
  | [] => none
  | c :: r =>
    if c = '"' ∨ c = Char.ofNat 39 then (string c r).map fun (t, left) => (String.ofList t, left)
    else
      let n := s.takeWhile isNameChar
      if n.isEmpty || Decimal.isDigit c then none else some (String.ofList n, s.drop n.length)

def magnitude (negative : Bool) (s : List Char) : Option (Tree Unit) :=
  let signed (n : Nat) : Int := if negative then -(n : Int) else n
  if s = "Infinity".toList then some (.leaf () (.binary (.infinity negative)))
  else if s = "NaN".toList then some (.leaf () (.binary .nan))
  else match s with
    | '0' :: x :: h =>
      if x = 'x' ∨ x = 'X' then (Decimal.naturalIn? 16 h).bind fun n => wholeOr (signed n) none
      else if Decimal.isDigit x then none
      else (Binary64.magnitude? negative s).map fun b => .leaf () (.binary b)
    | _ =>
      match Decimal.natural? s with
      | some n => wholeOr (signed n) none
      | none =>
        if s.head?.any fun c => c == '.' || Decimal.isDigit c then
          (Binary64.magnitude? negative s).map fun b => .leaf () (.binary b)
        else none

def number (s : List Char) : Option (Tree Unit × List Char) :=
  let (negative, body) := match s with
    | '-' :: r => (true, r)
    | '+' :: r => (false, r)
    | r => (false, r)
  let word := body.takeWhile fun c => c.isAlphanum || c == '.'
  -- the sign of an exponent goes on with its digits
  let isHex := word.head? == some '0' && (word[1]? == some 'x' || word[1]? == some 'X')
  let isOpen := !isHex && word.getLast?.any fun c => c == 'e' || c == 'E'
  let word := match isOpen, body.drop word.length with
    | true, c :: r => if c = '+' ∨ c = '-' then word ++ c :: r.takeWhile Decimal.isDigit else word
    | _, _ => word
  (magnitude negative word).map fun t => (t, body.drop word.length)

def startsWord (word : String) (s : List Char) : Bool :=
  s.take word.length == word.toList && !(s.drop word.length).head?.any isNameChar

mutual

def value : Nat → List Char → Option (Tree Unit × List Char)
  | 0, _ => none
  | fuel + 1, s =>
    match s with
    | [] => none
    | c :: r =>
      if c = '\x7b' then (members fuel [] r).map fun (es, r) => (.table () es, r)
      else if c = '[' then (items fuel r).map fun (ts, r) => (.list () ts, r)
      else if c = '"' ∨ c = Char.ofNat 39 then (string c r).map fun (t, r) => (Tree.ofText t, r)
      else if startsWord "null" s then some (.leaf () .empty, s.drop 4)
      else if startsWord "true" s then some (.leaf () (.flag true), s.drop 4)
      else if startsWord "false" s then some (.leaf () (.flag false), s.drop 5)
      else number s

def items : Nat → List Char → Option (List (Tree Unit) × List Char)
  | 0, _ => none
  | fuel + 1, s => do
    match ← skip s with
    | ']' :: r => some ([], r)
    | s =>
      let (t, r) ← value fuel s
      match ← skip r with
      | ',' :: r => do
        let (ts, r) ← items fuel r
        some (t :: ts, r)
      | ']' :: r => some ([t], r)
      | _ => none

def members : Nat → Entries Unit → List Char → Option (Entries Unit × List Char)
  | 0, _, _ => none
  | fuel + 1, es, s => do
    match ← skip s with
    | '\x7d' :: r => some (es, r)
    | s =>
      let (k, r) ← name s
      match ← skip r with
      | ':' :: r => do
        let (t, r) ← value fuel (← skip r)
        let es := setEntry k t es
        match ← skip r with
        | ',' :: r => members fuel es r
        | '\x7d' :: r => some (es, r)
        | _ => none
      | _ => none

end

def parse? (text : String) : Option (Entries Unit) := do
  let s ← skip text.toList
  let (t, r) ← value (2 * s.length + 2) s
  if (← skip r).isEmpty then some t.entries else none

end Courier.Settings.Json5
