import Courier.Settings.Toml.Token
import Courier.Settings.Yaml.Scalar
set_option autoImplicit false

namespace Courier.Settings.Yaml

def keyName? : Tree Unit → Option String
  | .leaf _ (.text s) => some s
  | .leaf _ (.whole n) => some (String.ofList (Decimal.ofInt n.val))
  | _ => none

def setKey (k v : Tree Unit) (es : Entries Unit) : Entries Unit :=
  match keyName? k with
  | some name => setEntry name v es
  | none => es

def nothing : Tree Unit := .leaf () .empty

def startsItem (c : Cursor) : Bool := c.left.head? == some '-' && endsWord (c.left.drop 1)

def endsKey (c : Cursor) : Bool := c.left.head? == some ':' && endsWord (c.left.drop 1)

def isOver (c : Cursor) : Bool := c.left.isEmpty || isMarker c

/-- Reads a scalar; `indent` is the column that its further lines must lie right of. -/
def scalar (inFlow : Bool) (indent : Option Nat) (c : Cursor) : Option (Tree Unit × Cursor) :=
  match c.left with
  | [] => none
  | d :: r =>
    if d = '"' ∨ d = Char.ofNat 39 then
      (quoted d (c.column + 1) r).map fun (s, c) => (Tree.ofText s, c)
    else if startsPlain inFlow c.left then
      let (s, c) := plain inFlow indent c
      (meaning s).map fun t => (t, c)
    else none

mutual

def flow (inFlow : Bool) (indent : Option Nat) : Nat → Cursor → Option (Tree Unit × Cursor)
  | 0, _ => none
  | fuel + 1, c =>
    match c.left with
    | '[' :: _ => (flowItems fuel (c.skip 1)).map fun (ts, c) => (.list () ts, c)
    | '\x7b' :: _ => (flowPairs fuel [] (c.skip 1)).map fun (es, c) => (.table () es, c)
    | _ => scalar inFlow indent c

def flowItems : Nat → Cursor → Option (List (Tree Unit) × Cursor)
  | 0, _ => none
  | fuel + 1, c => do
    let (_, c) ← skipGap c
    if c.left.head? = some ']' then some ([], c.skip 1)
    else
      let (t, c) ← flow true none fuel c
      let (_, c) ← skipGap c
      let (t, c) ← if c.left.head? = some ':' then do
          let (v, c) ← flowValue fuel (c.skip 1)
          some (.table () (setKey t v []), c)
        else some (t, c)
      match c.left.head? with
      | some ',' => do
        let (ts, c) ← flowItems fuel (c.skip 1)
        some (t :: ts, c)
      | some ']' => some ([t], c.skip 1)
      | _ => none

def flowValue : Nat → Cursor → Option (Tree Unit × Cursor)
  | 0, _ => none
  | fuel + 1, c => do
    let (_, c) ← skipGap c
    let (v, c) ← if c.left.head?.any fun d => d == ',' || d == ']' || d == '\x7d' then some (nothing, c)
      else flow true none fuel c
    let (_, c) ← skipGap c
    some (v, c)

def flowPairs : Nat → Entries Unit → Cursor → Option (Entries Unit × Cursor)
  | 0, _, _ => none
  | fuel + 1, es, c => do
    let (_, c) ← skipGap c
    if c.left.head? = some '\x7d' then some (es, c.skip 1)
    else
      let (k, c) ← flow true none fuel c
      let (_, c) ← skipGap c
      let (v, c) ← if c.left.head? = some ':' then flowValue fuel (c.skip 1) else some (nothing, c)
      let es := setKey k v es
      match c.left.head? with
      | some ',' => flowPairs fuel es (c.skip 1)
      | some '\x7d' => some (es, c.skip 1)
      | _ => none

end

def key? (c : Cursor) : Option (Tree Unit × Cursor) := do
  let line := c.left.takeWhile (· != '\n')
  -- a key stands on one line
  let (k, after) ← flow false none (2 * line.length + 2) ⟨c.column, line⟩
  let behind : Cursor := ⟨after.column, after.left ++ c.left.drop line.length⟩
  let behind := behind.skip (behind.left.takeWhile isBlank).length
  if endsKey behind then some (k, behind.skip 1) else none

mutual

/-- Reads the node that stands here. Its further lines must lie right of the column `parent`; `isCompact` says whether a
mapping or a sequence may start here. -/
def node (parent : Option Nat) (isCompact : Bool) : Nat → Cursor → Option (Tree Unit × Cursor)
  | 0, _ => none
  | fuel + 1, c =>
    match c.left with
    | [] => some (nothing, c)
    | d :: r =>
      if startsItem c then
        if isCompact then (items c.column fuel c).map fun (ts, c) => (.list () ts, c) else none
      else if d = '|' ∨ d = '>' then
        (block (d == '>') (parent.elim 0 (· + 1)) ⟨c.column + 1, r⟩).map fun (s, c) => (Tree.ofText s, c)
      else match key? c with
        | some _ => if isCompact then (pairs c.column fuel [] c).map fun (es, c) => (.table () es, c) else none
        | none => flow false parent (2 * c.left.length + 2) c

def items (column : Nat) : Nat → Cursor → Option (List (Tree Unit) × Cursor)
  | 0, _ => none
  | fuel + 1, c => do
    let (_, next) ← skipGap (c.skip 1)
    let (t, c) ← if isOver next || next.column ≤ column then some (nothing, next) else node (some column) true fuel next
    let (_, c) ← skipGap c
    if !isOver c && c.column == column && startsItem c then do
      let (ts, c) ← items column fuel c
      some (t :: ts, c)
    else some ([t], c)

def pairs (column : Nat) : Nat → Entries Unit → Cursor → Option (Entries Unit × Cursor)
  | 0, _, _ => none
  | fuel + 1, es, c => do
    let (k, c) ← key? c
    let (broke, next) ← skipGap c
    let (v, c) ←
      if isOver next then some (nothing, next)
      else if broke then
        if column < next.column || (next.column == column && startsItem next) then node (some column) true fuel next
        else some (nothing, next)
      else node (some column) false fuel next
    let (_, c) ← skipGap c
    let es := setKey k v es
    if isOver c || c.column < column then some (es, c)
    else if c.column == column then pairs column fuel es c
    else none

end

def parse? (s : String) : Option (Entries Unit) := do
  let text := Toml.foldLines s.toList
  let (_, c) ← skipGap ⟨0, text⟩
  let isOpened := isMarker c && c.left.head? == some '-'
  let (_, c) ← if isOpened then skipGap (c.skip 3) else some (false, c)
  let (t, c) ← if isOver c then some (nothing, c) else node none true (2 * text.length + 2) c
  let (_, c) ← skipGap c
  let (_, c) ← if isMarker c && c.left.head? == some '.' then skipGap (c.skip 3) else some (false, c)
  if c.left.isEmpty then some t.entries else none

end Courier.Settings.Yaml
