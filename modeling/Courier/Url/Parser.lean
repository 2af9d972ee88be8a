import Courier.Url.Basic
import Courier.Url.Domain
set_option autoImplicit false

namespace Courier.Url

def strip (s : List Char) : List Char :=
  let out (c : Char) : Bool := c.val.toNat ≤ 32
  let s := (s.dropWhile out).reverse.dropWhile out
  s.reverse.filter fun c => c != '\t' && c != '\n' && c != '\r'

def readScheme (s : List Char) : Option (List Char × List Char) :=
  let inScheme (c : Char) : Bool := c.isAlphanum || c == '+' || c == '-' || c == '.'
  match s with
  | c :: _ =>
    if c.isAlpha then
      match s.dropWhile inScheme with
      | ':' :: r => some ((s.takeWhile inScheme).map Char.toLower, r)
      | _ => none
    else none
  | [] => none

/-- Whether a character ends what stands before the path. -/
def endsAuthority (isSpecial : Bool) (c : Char) : Bool := c == '/' || c == '?' || c == '#' || (isSpecial && c == '\\')

def readUser (isSpecial : Bool) (s : List Char) : Except Fault (List Char × List Char × List Char) :=
  let authority := s.takeWhile fun c => !endsAuthority isSpecial c
  if authority.contains '@' then
    let host := (authority.reverse.takeWhile (· != '@')).reverse
    let user := (authority.take (authority.length - host.length)).dropLast
    let rest := s.drop (user.length + 1)
    if user.isEmpty ∧ rest.head?.any (endsAuthority isSpecial) then .error .emptyHost
    else
      let name := user.takeWhile (· != ':')
      .ok (percentEncode inUserSet name, percentEncode inUserSet (user.drop (name.length + 1)), rest)
  else .ok ([], [], s)

/-- The text of a host and what follows it: up to a colon outside brackets or the path. -/
def splitHost (isSpecial inBrackets : Bool) : List Char → List Char × List Char
  | [] => ([], [])
  | c :: r =>
    if (c == ':' && !inBrackets) || endsAuthority isSpecial c then ([], c :: r)
    else
      let inBrackets := if c = '[' then true else if c = ']' then false else inBrackets
      let (h, rest) := splitHost isSpecial inBrackets r
      (c :: h, rest)

def readBracketed (s : List Char) : Except Fault Host :=
  if s.getLast? = some ']' then
    match readAddress128 s.dropLast with
    | some gs => .ok (.address128 gs)
    | none => .error .address128
  else .error .address128

def readHost (s : List Char) : Except Fault Host :=
  match s with
  | '[' :: r => readBracketed r
  | _ =>
    match domainToAscii (Text.decodeLossy (percentDecode s)) with
    | none => .error .domain
    | some [] => .error .emptyHost
    | some name =>
      if endsInNumber name then
        match readAddress32 name with
        | some n => .ok (.address32 n)
        | none => .error .address32
      else .ok (.domain name)

def readOpaqueHost (s : List Char) : Except Fault Host :=
  match s with
  | '[' :: r => readBracketed r
  | _ =>
    if s.any (fun c => c.val.toNat = 0 || c == ' ' || ['#', '/', ':', '<', '>', '?', '@', '[', '\\', ']', '^', '|'].contains c) then
      .error .hostCharacter
    else .ok (.domain (percentEncode isControl s))

/-- Reads a port behind its colon; none if it is missing or goes without saying. -/
def readPort (scheme : List Char) (s : List Char) : Except Fault (Option Nat × List Char) :=
  let ds := s.takeWhile Decimal.isDigit
  let rest := s.drop ds.length
  if 65535 < Decimal.value ds then .error .port
  else match rest with
    | [] => .ok (port? ds, rest)
    | c :: _ => if endsAuthority true c then .ok (port? ds, rest) else .error .port
where
  port? (ds : List Char) : Option Nat :=
    if ds.isEmpty ∨ some (Decimal.value ds) = defaultPort? scheme then none else some (Decimal.value ds)

def isDot (p : List Char) : Bool :=
  let p := p.map Char.toLower
  p == ['.'] || p == ['%', '2', 'e']

def isDoubleDot (p : List Char) : Bool :=
  match p with
  | '.' :: r => isDot r
  | '%' :: '2' :: e :: r => (e == 'e' || e == 'E') && isDot r
  | _ => false

def isDrive (p : List Char) : Bool :=
  match p with
  | [c, d] => c.isAlpha && (d == ':' || d == '|')
  | _ => false

/-- The parts of a path without steps up and places that stand for themselves; `done` is in reverse. -/
def walk (isFile : Bool) (done : List (List Char)) : List (List Char) → List (List Char)
  | [] => done.reverse
  | p :: r =>
    if isDoubleDot p then
      let up := match done with
        | [d] => if isFile ∧ isDrive d then [d] else []
        | _ :: ds => ds
        | [] => []
      walk isFile (if r.isEmpty then [] :: up else up) r
    else if isDot p then walk isFile (if r.isEmpty then [] :: done else done) r
    else
      let p := match p with
        | [c, '|'] => if isFile ∧ done.isEmpty ∧ c.isAlpha then [c, ':'] else p
        | _ => p
      walk isFile (p :: done) r

def writePath (family : Family) (s : List Char) : List Char :=
  let s := if family.isSpecial then s.map fun c => if c = '\\' then '/' else c else s
  let parts := walk (family == .file) [] ((Text.splitAt '/' s).map (percentEncode inPathSet))
  let parts := if family = .file then dropEmpty parts else parts
  parts.flatMap fun p => '/' :: p
where
  dropEmpty : List (List Char) → List (List Char)
    | [] :: p :: r => dropEmpty (p :: r)
    | ps => ps

def pathPart (s : List Char) : List Char := s.takeWhile fun c => c != '?' && c != '#'

def addTail (u : Url) (s : List Char) : Url :=
  let isSpecial := (familyOf u.scheme).isSpecial
  let fragment (r : List Char) := percentEncode inFragmentSet r
  match s with
  | '?' :: r =>
    let q := r.takeWhile (· != '#')
    let u := { u with query := some (percentEncode (inQuerySet isSpecial) q) }
    match r.drop q.length with
    | '#' :: f => { u with fragment := some (fragment f) }
    | _ => u
  | '#' :: f => { u with fragment := some (fragment f) }
  | _ => u

def addPath (u : Url) (s : List Char) : Url :=
  let family := familyOf u.scheme
  let p := pathPart s
  let path :=
    match p with
    | [] => if family.isSpecial then ['/'] else []
    | c :: r => writePath family (if c = '/' ∨ (family.isSpecial ∧ c = '\\') then r else c :: r)
  addTail { u with path } (s.drop p.length)

def readAuthority (scheme : List Char) (s : List Char) : Except Fault Url := do
  let isSpecial := (familyOf scheme).isSpecial
  let (user, password, s) ← readUser isSpecial s
  let (hostText, s) := splitHost isSpecial false s
  if isSpecial ∧ hostText.isEmpty then throw .emptyHost
  let host ← if isSpecial then readHost hostText else readOpaqueHost hostText
  if hostText.isEmpty ∧ (s.head? = some ':' ∨ user ≠ [] ∨ password ≠ []) then throw .emptyHost
  let (port, s) ← match s with
    | ':' :: r => readPort scheme r
    | _ => pure (none, s)
  pure (addPath { scheme, user, password, host := some host, port } s)

def readFile (s : List Char) : Except Fault Url :=
  let scheme := ['f', 'i', 'l', 'e']
  let isSlash (c : Char) : Bool := c == '/' || c == '\\'
  match s with
  | a :: b :: r =>
    if isSlash a ∧ isSlash b then
      let hostText := r.takeWhile fun c => !endsAuthority true c
      if hostText.isEmpty ∨ isDrive hostText then .ok (addPath { scheme } r)
      else match readHost hostText with
        | .error e => .error e
        | .ok h =>
          let host := if h = .domain "localhost".toList then none else some h
          .ok (addPath { scheme, host } (r.drop hostText.length))
    else .ok (addPath { scheme } s)
  | _ => .ok (addPath { scheme } s)

def ofChars (s : List Char) : Except Fault Url :=
  match readScheme (strip s) with
  | none => .error .relative
  | some (scheme, s) =>
    match familyOf scheme, s with
    | .file, _ => readFile s
    | .hosted, _ => readAuthority scheme (s.dropWhile fun c => c == '/' || c == '\\')
    | .other, '/' :: '/' :: r => readAuthority scheme r
    | .other, '/' :: r => .ok (addPath { scheme } ('/' :: r))
    | .other, _ =>
      let p := pathPart s
      .ok (addTail { scheme, path := percentEncode isControl p } (s.drop p.length))

def parse (s : String) : Except Fault Url := ofChars s.toList

def isOpaque (u : Url) : Bool := u.host.isNone && !(u.path.head? == some '/')

def withPath (u : Url) (s : List Char) : Url :=
  let family := familyOf u.scheme
  let path :=
    if u.isOpaque then
      match s with
      | '/' :: r => ['%', '2', 'F'] ++ percentEncode isControl r
      | r => percentEncode isControl r
    else match s with
      | [] => if family.isSpecial then ['/'] else []
      | c :: r => writePath family (if c = '/' ∨ (family.isSpecial ∧ c = '\\') then r else c :: r)
  { u with path }

end Courier.Url
