import Courier.Json.Reader
set_option autoImplicit false

namespace Courier.Json

inductive Bracket where
  | list
  | object
  deriving DecidableEq, Repr

def Bracket.closer : Bracket → Char
  | .list => ']'
  | .object => '\x7d'

def skipString (s : List Char) : Except Error (List Char) :=
  (stringLoop false .plain [] s).map (·.2)

def skipExponent (s : List Char) : Except Error (List Char) :=
  let s := match s with
    | c :: r => if c = '+' ∨ c = '-' then r else s
    | [] => s
  match s with
  | [] => failPast .invalidNumber []
  | c :: r => if Decimal.isDigit c then .ok (r.dropWhile Decimal.isDigit) else failPast .invalidNumber r

def skipNumber (s : List Char) : Except Error (List Char) :=
  match s with
  | [] => failPast .invalidNumber []
  | c :: r =>
    if Decimal.isDigit c = false then failPast .invalidNumber r
    else if c = '0' ∧ (r.head?.any Decimal.isDigit) then failAt .invalidNumber r
    else
      match r.dropWhile Decimal.isDigit with
      | '.' :: l =>
        if (digits l).isEmpty then failAt .invalidNumber l
        else match l.dropWhile Decimal.isDigit with
          | d :: k => if d = 'e' ∨ d = 'E' then skipExponent k else .ok (d :: k)
          | [] => .ok []
      | d :: l => if d = 'e' ∨ d = 'E' then skipExponent l else .ok (d :: l)
      | [] => .ok []

def Bracket.eof : Bracket → Fault
  | .list => .eofList
  | .object => .eofObject

def Bracket.unended : Bracket → Fault
  | .list => .expectedListEnd
  | .object => .expectedObjectEnd

inductive SkipTurn where
  | value
  /-- A value or an opening bracket was read; a comma may follow only a value. -/
  | after (comma : Bool)
  | name
  deriving DecidableEq, Repr

def skipLoop (fuel : Nat) (brackets : List Bracket) (turn : SkipTurn) (s : List Char) : Except Error (List Char) :=
  match fuel with
  | 0 => failAt .eofValue s
  | fuel + 1 =>
    match turn with
    | .value =>
      match skipBlank s with
      | [] => failAt .eofValue []
      | c :: r =>
        let go (x : Except Error (List Char)) : Except Error (List Char) :=
          match x with
          | .error e => .error e
          | .ok r => skipLoop fuel brackets (.after true) r
        if c = 'n' then go (ident ['u', 'l', 'l'] r)
        else if c = 't' then go (ident ['r', 'u', 'e'] r)
        else if c = 'f' then go (ident ['a', 'l', 's', 'e'] r)
        else if c = '-' then go (skipNumber r)
        else if Decimal.isDigit c then go (skipNumber (c :: r))
        else if c = '"' then go (skipString r)
        else if c = '[' then skipLoop fuel (.list :: brackets) (.after false) r
        else if c = '\x7b' then skipLoop fuel (.object :: brackets) (.after false) r
        else failAt .expectedValue (c :: r)
    | .after comma =>
      match brackets with
      | [] => .ok s
      | b :: outer =>
        match skipBlank s with
        | [] => failAt b.eof []
        | c :: r =>
          if comma ∧ c = ',' then
            skipLoop fuel brackets (if b = .object then .name else .value) r
          else if c = b.closer then skipLoop fuel outer (.after true) r
          else if comma then failAt b.unended (c :: r)
          else skipLoop fuel brackets (if b = .object then .name else .value) (c :: r)
    | .name =>
      match skipBlank s with
      | [] => failAt .eofObject []
      | c :: r =>
        if c = '"' then
          match skipString r with
          | .error e => .error e
          | .ok r =>
            match colon r with
            | .error e => .error e
            | .ok r => skipLoop fuel brackets .value r
        else failAt .keyMustBeString (c :: r)

def skipValue (s : List Char) : Except Error (List Char) := skipLoop (3 * s.length + 3) [] .value s

end Courier.Json
