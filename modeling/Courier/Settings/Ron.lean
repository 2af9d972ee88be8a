import Courier.Settings.Commented
set_option autoImplicit false

namespace Courier.Settings.Ron

def skip (s : List Char) : Option (List Char) := skipComments true s

def simpleEscape? (c : Char) : Option Char :=
  [('"', 34), (Char.ofNat 39, 39), ('\\', 92), ('n', 10), ('r', 13), ('t', 9), ('0', 0)].lookup c |>.map Char.ofNat

def escape? : List Char → Option (Char × Nat)
  | [] => none
  | c :: r =>
    if c = 'x' then (hexDigits? 2 r).map fun n => (Char.ofNat n, 3)
    else if c = 'u' then
      match r with
      | '\x7b' :: s =>
        let ds := s.takeWhile (· != '\x7d')
        (Decimal.naturalIn? 16 ds).bind fun n =>
          if ds.length ≤ 6 ∧ n.isValidChar ∧ ds.length < s.length then some (Char.ofNat n, ds.length + 3) else none
      | _ => none
    else (simpleEscape? c).map fun d => (d, 1)

def string : List Char → Option (List Char × List Char)
  | [] => none
  | c :: r =>
    if c = '"' then some ([], r)
    else if c = '\\' then
      (escape? r).bind fun (d, n) => (string (r.drop n)).map fun (t, left) => (d :: t, left)
    else (string r).map fun (t, left) => (c :: t, left)
termination_by s => s.length
decreasing_by all_goals simp only [List.length_cons, List.length_drop]; omega

/-- Reads a raw string behind its opening quote, up to a quote with this many hashes. -/
def rawString (hashes : Nat) : List Char → Option (List Char × List Char)
  | [] => none
  | c :: r =>
    if c = '"' ∧ r.take hashes = List.replicate hashes '#' then some ([], r.drop hashes)
    else (rawString hashes r).map fun (t, left) => (c :: t, left)

def isNameChar (c : Char) : Bool := c.isAlphanum || c == '_'

def nameOf (s : List Char) : List Char :=
  if s.head?.any fun c => c.isAlpha || c == '_' then s.takeWhile isNameChar else []

def isNumberChar (c : Char) : Bool := c.isAlphanum || ['_', '.', '+', '-'].contains c

def based (negative : Bool) (base : Nat) (s : List Char) : Option (Tree Unit) :=
  if s.head? = some '_' then none
  else (Decimal.naturalIn? base (s.filter (· != '_'))).bind fun n => wholeOr (if negative then -(n : Int) else n) none

def number? (s : List Char) : Option (Tree Unit) :=
  let (negative, body) := match s with
    | '-' :: r => (true, r)
    | '+' :: r => (false, r)
    | r => (false, r)
  match body with
  | '0' :: 'x' :: r => based negative 16 r
  | '0' :: 'o' :: r => based negative 8 r
  | '0' :: 'b' :: r => based negative 2 r
  | _ =>
    match based negative 10 body with
    | some t => some t
    | none => (Binary64.magnitude? negative body).map fun x => .leaf () (.binary x)

def word? (s : List Char) : Option (Tree Unit) :=
  if s = "true".toList then some (.leaf () (.flag true))
  else if s = "false".toList then some (.leaf () (.flag false))
  else if s = "None".toList then some (.leaf () .empty)
  else if s = "inf".toList then some (.leaf () (.binary (.infinity false)))
  else if s = "NaN".toList then some (.leaf () (.binary .nan))
  else none

/-- Whether a text behind an opening parenthesis goes on with a name and a colon. -/
def startsRecord (s : List Char) : Bool :=
  match nameOf s with
  | [] => false
  | n => (skip (s.drop n.length)).any fun r => r.head? == some ':'

def keyName? : Tree Unit → Option String
  | .leaf _ (.text s) => some s
  | _ => none

mutual

def value : Nat → List Char → Option (Tree Unit × List Char)
  | 0, _ => none
  | fuel + 1, s =>
    match s with
    | [] => none
    | c :: r =>
      if c = '(' then parenthesis fuel r
      else if c = '[' then (items ']' fuel r).map fun (ts, r) => (.list () ts, r)
      else if c = '\x7b' then (pairs fuel [] r).map fun (es, r) => (.table () es, r)
      else if c = '"' then (string r).map fun (t, r) => (Tree.ofText t, r)
      else if c = Char.ofNat 39 then
        match r with
        | '\\' :: r =>
          (escape? r).bind fun (d, n) =>
            match r.drop n with
            | q :: r => if q = c then some (Tree.ofText [d], r) else none
            | [] => none
        | d :: q :: r => if q = c then some (Tree.ofText [d], r) else none
        | _ => none
      else if c = 'r' ∧ (r.dropWhile (· == '#')).head? = some '"' then
        let hashes := (r.takeWhile (· == '#')).length
        (rawString hashes (r.drop (hashes + 1))).map fun (t, r) => (Tree.ofText t, r)
      else
        match nameOf s with
        | [] =>
          let word := s.takeWhile isNumberChar
          (number? word).map fun t => (t, s.drop word.length)
        | n =>
          match word? n with
          | some t => some (t, s.drop n.length)
          | none =>
            match skip (s.drop n.length) with
            | some ('(' :: r) =>
              if n = "Some".toList then do
                let (t, r) ← value fuel (← skip r)
                match ← skip r with
                | ')' :: r => some (t, r)
                | _ => none
              else parenthesis fuel r
            | _ => some (.leaf () .empty, s.drop n.length)

def parenthesis : Nat → List Char → Option (Tree Unit × List Char)
  | 0, _ => none
  | fuel + 1, s => do
    let s ← skip s
    if startsRecord s then (fields fuel [] s).map fun (es, r) => (.table () es, r)
    else match s with
      | ')' :: r => some (.leaf () .empty, r)
      | s => (items ')' fuel s).map fun (ts, r) => (.list () ts, r)

def items (stop : Char) : Nat → List Char → Option (List (Tree Unit) × List Char)
  | 0, _ => none
  | fuel + 1, s => do
    match ← skip s with
    | [] => none
    | c :: r =>
      if c = stop then some ([], r)
      else
        let (t, r) ← value fuel (c :: r)
        match ← skip r with
        | [] => none
        | d :: r =>
          if d = ',' then do
            let (ts, r) ← items stop fuel r
            some (t :: ts, r)
          else if d = stop then some ([t], r)
          else none

def fields : Nat → Entries Unit → List Char → Option (Entries Unit × List Char)
  | 0, _, _ => none
  | fuel + 1, es, s => do
    match ← skip s with
    | ')' :: r => some (es, r)
    | s =>
      let n := nameOf s
      if n.isEmpty then none
      else match ← skip (s.drop n.length) with
        | ':' :: r => do
          let (t, r) ← value fuel (← skip r)
          let es := setEntry (String.ofList n) t es
          match ← skip r with
          | ',' :: r => fields fuel es r
          | ')' :: r => some (es, r)
          | _ => none
        | _ => none

def pairs : Nat → Entries Unit → List Char → Option (Entries Unit × List Char)
  | 0, _, _ => none
  | fuel + 1, es, s => do
    match ← skip s with
    | '\x7d' :: r => some (es, r)
    | s =>
      let (k, r) ← value fuel s
      let name ← keyName? k
      match ← skip r with
      | ':' :: r => do
        let (t, r) ← value fuel (← skip r)
        let es := setEntry name t es
        match ← skip r with
        | ',' :: r => pairs fuel es r
        | '\x7d' :: r => some (es, r)
        | _ => none
      | _ => none

end

def parse? (text : String) : Option (Entries Unit) := do
  let s ← skip text.toList
  let (t, r) ← value (3 * s.length + 3) s
  if (← skip r).isEmpty then some t.entries else none

end Courier.Settings.Ron
