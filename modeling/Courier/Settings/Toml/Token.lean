import Courier.Decimal.Parse
set_option autoImplicit false

namespace Courier.Settings.Toml

inductive Token where
  | newline
  | blank (s : List Char)
  | comment
  | equals
  | period
  | comma
  | colon
  | plus
  | leftBrace
  | rightBrace
  | leftBracket
  | rightBracket
  | word (s : List Char)
  | string (s : List Char) (long : Bool)
  deriving DecidableEq, Repr

def isWordChar (c : Char) : Bool := c.isAlphanum || c == '-' || c == '_'

def isPlain (c : Char) : Bool := c == '\t' || 32 ≤ c.val.toNat

def foldLines : List Char → List Char
  | '\r' :: '\n' :: r => '\n' :: foldLines r
  | c :: r => c :: foldLines r
  | [] => []

def scalar? (digits : List Char) : Option Char :=
  (Decimal.naturalIn? 16 digits).bind fun n => if n.isValidChar then some (Char.ofNat n) else none

/-- How many characters are dropped behind a backslash: blanks up to and across the end of the line, and all blanks
that follow; none if something else stands on the line. -/
def joinLines (s : List Char) : Option Nat :=
  let isBlank (c : Char) := c == ' ' || c == '\t'
  let blanks := s.takeWhile isBlank
  match s.drop blanks.length with
  | [] => some blanks.length
  | c :: r => if c = '\n' then some (blanks.length + 1 + (r.takeWhile fun c => isBlank c || c == '\n').length) else none

def escape? (long : Bool) : List Char → Option (List Char × Nat)
  | [] => none
  | c :: r =>
    if c = '"' ∨ c = '\\' then some ([c], 1)
    else if c = 'b' then some ([Char.ofNat 8], 1)
    else if c = 'f' then some ([Char.ofNat 12], 1)
    else if c = 'n' then some (['\n'], 1)
    else if c = 'r' then some (['\r'], 1)
    else if c = 't' then some (['\t'], 1)
    else if c = 'u' ∨ c = 'U' then
      let width := if c = 'u' then 4 else 8
      if r.length < width then none else (scalar? (r.take width)).map fun d => ([d], width + 1)
    else if long ∧ (c = ' ' ∨ c = '\t' ∨ c = '\n') then (joinLines (c :: r)).map fun n => ([], n)
    else none

def stringTail (quote : Char) (long : Bool) : List Char → Option (List Char × List Char)
  | [] => none
  | c :: r =>
    if c = '\n' then
      if long then (stringTail quote long r).map fun (t, left) => (c :: t, left) else none
    else if c = quote then
      if long then
        -- up to two quotes may stand before the three that end the string
        let run := min 5 (1 + (r.takeWhile (· == quote)).length)
        if run < 3 then
          (stringTail quote long (r.drop (run - 1))).map fun (t, left) => (List.replicate run quote ++ t, left)
        else some (List.replicate (run - 3) quote, r.drop (run - 1))
      else some ([], r)
    else if c = '\\' ∧ quote = '"' then
      (escape? long r).bind fun (cs, n) => (stringTail quote long (r.drop n)).map fun (t, left) => (cs ++ t, left)
    else if isPlain c ∧ c.val.toNat ≠ 127 then
      (stringTail quote long r).map fun (t, left) => (c :: t, left)
    else none
termination_by s => s.length
decreasing_by all_goals simp only [List.length_cons, List.length_drop]; omega

def string? (quote : Char) (s : List Char) : Option (Token × List Char) :=
  match s with
  | a :: r =>
    if a = quote then
      match r with
      | b :: r' =>
        if b = quote then
          -- a line end right behind the quotes does not count
          let body := match r' with
            | '\n' :: l => l
            | l => l
          (stringTail quote true body).map fun (t, left) => (.string t true, left)
        else some (.string [] false, r)
      | [] => some (.string [] false, [])
    else (stringTail quote false s).map fun (t, left) => (.string t false, left)
  | [] => none

def token? : List Char → Option (Token × List Char)
  | [] => none
  | c :: r =>
    if c = '\n' then some (.newline, r)
    else if c = ' ' ∨ c = '\t' then
      let more := r.takeWhile fun c => c == ' ' || c == '\t'
      some (.blank (c :: more), r.drop more.length)
    else if c = '#' then some (.comment, r.dropWhile isPlain)
    else if c = '=' then some (.equals, r)
    else if c = '.' then some (.period, r)
    else if c = ',' then some (.comma, r)
    else if c = ':' then some (.colon, r)
    else if c = '+' then some (.plus, r)
    else if c = '\x7b' then some (.leftBrace, r)
    else if c = '\x7d' then some (.rightBrace, r)
    else if c = '[' then some (.leftBracket, r)
    else if c = ']' then some (.rightBracket, r)
    else if c = '"' ∨ c = '\'' then string? c r
    else if isWordChar c then
      let more := r.takeWhile isWordChar
      some (.word (c :: more), r.drop more.length)
    else none

def tokensFrom (s : List Char) : Option (List Token) :=
  if s.isEmpty then some []
  else match token? s with
    | none => none
    | some (t, left) => if left.length < s.length then (tokensFrom left).map (t :: ·) else none
termination_by s.length

/-- The tokens of a text; none if something in it is no token. A byte order mark in front is dropped. -/
def tokens? (s : List Char) : Option (List Token) :=
  let s := match s with
    | c :: r => if c.val.toNat = 0xFEFF then r else c :: r
    | [] => []
  tokensFrom (foldLines s)

end Courier.Settings.Toml
