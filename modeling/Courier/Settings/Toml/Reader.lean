import Courier.Settings.Toml.Date
import Courier.Settings.Toml.Document
import Courier.Settings.Toml.Token
set_option autoImplicit false

namespace Courier.Settings.Toml

def skipBlank : List Token → List Token
  | .blank _ :: r => r
  | ts => ts

theorem length_skipBlank_le (ts : List Token) : (skipBlank ts).length ≤ ts.length := by
  unfold skipBlank
  split
  · exact Nat.le_succ _
  · exact Nat.le_refl _

/-- The end of a line: blanks, a comment if there is one, and a line end or the end of the text. -/
def lineEnd? (ts : List Token) : Option (List Token) :=
  let afterComment := match skipBlank ts with
    | .comment :: r => r
    | r => r
  match afterComment with
  | [] => some []
  | .newline :: r => some r
  | _ => none

/-! ### Keys -/

def key? : Token → Option String
  | .word w => some (String.ofList w)
  | .string s false => some (String.ofList s)
  | _ => none

def keys? : List Token → Option (List String × List Token)
  | [] => none
  | t :: ts =>
    match key? t with
    | none => none
    | some k =>
      match _h : skipBlank ts with
      | .period :: r => (keys? (skipBlank r)).map fun (ks, left) => (k :: ks, left)
      | r => some ([k], r)
termination_by ts => ts.length
decreasing_by
  have hts := length_skipBlank_le ts
  have hr := length_skipBlank_le r
  simp only [_h, List.length_cons] at hts ⊢
  omega

/-! ### Numbers -/

/-- Splits a text into digits, perhaps with underscores between them, and what follows; none if it starts with no digit,
or with a zero that may not lead, or if an underscore stands between other things than digits. -/
def digits? (base : Nat) (signed leadingZeros : Bool) (s : List Char) : Option (List Char × List Char) :=
  let (sign, body) := match s with
    | c :: r => if signed && (c == '+' || c == '-') then ([c], r) else ([], s)
    | [] => ([], [])
  let run := body.takeWhile fun c => c == '_' || (Decimal.digitIn? base c).isSome
  let ds := run.filter (· != '_')
  let misplaced := run.head? == some '_' || run.getLast? == some '_'
    || (run.zip (run.drop 1)).any fun (a, b) => a == '_' && b == '_'
  if ds.isEmpty || misplaced || (!leadingZeros && ds.head? == some '0' && 1 < ds.length) then none
  else some (sign ++ ds, body.drop run.length)

def integer? (base : Nat) (s : List Char) : Option (Tree Unit) := do
  let (ds, left) ← digits? base (base == 10) (base != 10) s
  if left.isEmpty then
    let n ← if base = 10 then Decimal.integer? ds else (Decimal.naturalIn? base ds).map fun n => (n : Int)
    let w ← (Bounded.ofInt? n : Option Word64)
    some (.leaf () (.whole w))
  else none

/-- A number with a point or an exponent, given what stands before and behind the point. An exponent with a plus goes on
in the tokens behind. -/
def binary? (s : List Char) (fraction : Option (List Char)) (ts : List Token) : Option (Tree Unit × List Token) := do
  let (whole, left) ← digits? 10 true false s
  let (fraction, left) ← match fraction with
    | none => some ([], left)
    | some f =>
      if left.isEmpty then do
        let (ds, left) ← digits? 10 false true f
        some ('.' :: ds, left)
      else none
  let (exponent, ts) ← match left with
    | [] => some ([], ts)
    | c :: r =>
      if c = 'e' ∨ c = 'E' then
        if r.isEmpty then
          let ts := match ts with
            | .plus :: l => l
            | l => l
          match ts with
          | .word w :: l => do
            let (ds, rest) ← digits? 10 false true w
            if rest.isEmpty then some ('e' :: ds, l) else none
          | _ => none
        else do
          let (ds, rest) ← digits? 10 true true r
          if rest.isEmpty then some ('e' :: ds, ts) else none
      else none
  let x ← Binary64.parse? (whole ++ fraction ++ exponent)
  if x.isFinite then some (.leaf () (.binary x), ts) else none

def unusual (x : Binary64) (ts : List Token) : Option (Tree Unit × List Token) := some (.leaf () (.binary x), ts)

def number? (s : List Char) (ts : List Token) : Option (Tree Unit × List Token) :=
  let whole (base : Nat) (s : List Char) := (integer? base s).map fun t => (t, ts)
  match s with
  | '0' :: 'x' :: r => whole 16 r
  | '0' :: 'o' :: r => whole 8 r
  | '0' :: 'b' :: r => whole 2 r
  | _ =>
    if s.contains 'e' || s.contains 'E' then binary? s none ts
    else match ts with
      | .period :: .word f :: r => binary? s (some f) r
      | .period :: _ => none
      | _ =>
        if s = "inf".toList then unusual (.infinity false) ts
        else if s = "-inf".toList then unusual (.infinity true) ts
        else if s = "nan".toList ∨ s = "-nan".toList then unusual .nan ts
        else whole 10 s

/-! ### Dates -/

def moment (s : List Char) (ts : List Token) : Option (Tree Unit × List Token) :=
  (moment? s).map fun t => (Tree.ofText t, ts)

def clock? (s : List Char) : List Token → Option (List Char × List Token)
  | .word minute :: .colon :: .word second :: r => do
    let s := s ++ ':' :: minute ++ ':' :: second
    let (s, r) ← match r with
      | .period :: .word fraction :: r => some (s ++ '.' :: fraction, r)
      | .period :: _ => none
      | _ => some (s, r)
    let (s, r) ← match r with
      | .plus :: .word hours :: r => some (s ++ '+' :: hours, r)
      | .plus :: _ => none
      | _ => some (s, r)
    match r with
    | .colon :: .word minutes :: r => some (s ++ ':' :: minutes, r)
    | .colon :: _ => none
    | _ => some (s, r)
  | _ => none

def dateOrTime? (s : List Char) (ts : List Token) : Option (Tree Unit × List Token) :=
  let (s, ts) := match ts with
    | .blank [' '] :: .word hour :: r => (s ++ ' ' :: hour, r)
    | _ => (s, ts)
  match ts with
  | .colon :: r => (clock? s r).bind fun (s, r) => moment s r
  | _ => moment s ts

def startsDate (s : List Char) : Bool :=
  let isExponent (p : Char × Char) := (p.1 == 'e' || p.1 == 'E') && p.2 == '-'
  s.contains 'T' || s.contains 't' || ((s.drop 1).contains '-' && !(s.zip (s.drop 1)).any isExponent)

def numberOrDate? (s : List Char) (ts : List Token) : Option (Tree Unit × List Token) :=
  if startsDate s then dateOrTime? s ts
  else match ts with
    | .colon :: r => (clock? s r).bind fun (s, r) => moment s r
    | _ => number? s ts

def word? (s : List Char) (ts : List Token) : Option (Tree Unit × List Token) :=
  if s = "true".toList then some (.leaf () (.flag true), ts)
  else if s = "false".toList then some (.leaf () (.flag false), ts)
  else if s = "inf".toList ∨ s = "nan".toList ∨ s.head?.any (fun c => c == '-' || Decimal.isDigit c) then
    numberOrDate? s ts
  else none

/-! ### Values -/

def skipLines : List Token → List Token
  | .blank _ :: r => skipLines r
  | .newline :: r => skipLines r
  | .comment :: .newline :: r => skipLines r
  | ts => ts

mutual

def value? : Nat → List Token → Option (Tree Unit × List Token)
  | 0, _ => none
  | fuel + 1, ts =>
    match ts with
    | .string s _ :: r => some (Tree.ofText s, r)
    | .word s :: r => word? s r
    | .plus :: .word s :: r => number? s r
    | .leftBrace :: r =>
      match skipBlank r with
      | .rightBrace :: r => some (.table () [], r)
      | r => (pairs? fuel [] r).map fun (es, r) => (.table () (treesOf es), r)
    | .leftBracket :: r => (items? fuel r).map fun (xs, r) => (.list () xs, r)
    | _ => none

def items? : Nat → List Token → Option (List (Tree Unit) × List Token)
  | 0, _ => none
  | fuel + 1, ts =>
    match skipLines ts with
    | .rightBracket :: r => some ([], r)
    | r =>
      match value? fuel r with
      | none => none
      | some (x, r) =>
        match skipLines r with
        | .comma :: r => (items? fuel r).map fun (xs, r) => (x :: xs, r)
        | .rightBracket :: r => some ([x], r)
        | _ => none

def pairs? : Nat → Nodes → List Token → Option (Nodes × List Token)
  | 0, _, _ => none
  | fuel + 1, es, ts =>
    match keys? ts with
    | some (ks, .equals :: r) =>
      match value? fuel (skipBlank r) with
      | none => none
      | some (v, r) =>
        match addValue? v ks es with
        | none => none
        | some es =>
          match skipBlank r with
          | .rightBrace :: r => some (es, r)
          | .comma :: r => pairs? fuel es (skipBlank r)
          | _ => none
    | _ => none

end

/-! ### Documents -/

structure Header where
  keys : List String
  isList : Bool
  deriving DecidableEq, Repr

def header? (ts : List Token) : Option (Header × List Token) :=
  let (isList, ts) := match ts with
    | .leftBracket :: r => (true, r)
    | r => (false, r)
  match keys? (skipBlank ts) with
  | some (ks, .rightBracket :: r) =>
    let closed := if isList then
        match r with
        | .rightBracket :: r => some r
        | _ => none
      else some r
    (closed.bind lineEnd?).map fun r => (⟨ks, isList⟩, r)
  | _ => none

def close? (document : Nodes) (header : Option Header) (body : Nodes) : Option Nodes :=
  match header with
  | none => some body
  | some h => addTable? h.isList body h.keys document

def lines? : Nat → Nodes → Option Header → Nodes → List Token → Option Nodes
  | 0, _, _, _, _ => none
  | fuel + 1, document, header, body, ts =>
    match skipBlank ts with
    | [] => close? document header body
    | .newline :: r => lines? fuel document header body r
    | .comment :: r => (lineEnd? r).bind (lines? fuel document header body)
    | .leftBracket :: r => do
      let document ← close? document header body
      let (h, r) ← header? r
      lines? fuel document (some h) [] r
    | r => do
      let (ks, r) ← keys? r
      match r with
      | .equals :: r =>
        let (v, r) ← value? fuel (skipBlank r)
        let r ← lineEnd? r
        let body ← addValue? v ks body
        lines? fuel document header body r
      | _ => none

def parse? (s : String) : Option (Entries Unit) := do
  let ts ← tokens? s.toList
  let nodes ← lines? (ts.length + 2) [] none [] ts
  some (treesOf nodes)

end Courier.Settings.Toml
