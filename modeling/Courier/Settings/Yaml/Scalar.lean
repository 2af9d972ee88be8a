import Courier.Decimal.Parse
import Courier.Settings.Tree
import Courier.Text.Split
set_option autoImplicit false

namespace Courier.Settings.Yaml

structure Cursor where
  column : Nat
  left : List Char
  deriving DecidableEq, Repr

def Cursor.skip (c : Cursor) (n : Nat) : Cursor := ⟨c.column + n, c.left.drop n⟩

def isBlank (c : Char) : Bool := c == ' ' || c == '\t'

def endsWord : List Char → Bool
  | [] => true
  | c :: _ => isBlank c || c == '\n'

def isFlowMark (c : Char) : Bool := c == ',' || c == '[' || c == ']' || c == '\x7b' || c == '\x7d'

def isIndicator (c : Char) : Bool :=
  isFlowMark c || ['#', '&', '*', '!', '|', '>', '"', '%', '@', '\x60', Char.ofNat 39].contains c

def isMarker (c : Cursor) : Bool :=
  c.column == 0 && (c.left.take 3 == ['-', '-', '-'] || c.left.take 3 == ['.', '.', '.']) && endsWord (c.left.drop 3)

/-- Skips blanks, comments and line ends; says whether a line ended. None if a line is indented with a tab. -/
def gap (broke mayComment : Bool) (column : Nat) : List Char → Option (Bool × Cursor)
  | [] => some (broke, ⟨column, []⟩)
  | c :: r =>
    if c = ' ' then gap broke true (column + 1) r
    else if c = '\t' then (if broke then none else gap broke true (column + 1) r)
    else if c = '\n' then gap true true 0 r
    else if c = '#' ∧ mayComment then gap broke true column (r.drop (r.takeWhile (· != '\n')).length)
    else some (broke, ⟨column, c :: r⟩)
termination_by s => s.length
decreasing_by all_goals simp only [List.length_cons, List.length_drop]; omega

def skipGap (c : Cursor) : Option (Bool × Cursor) := gap false true c.column c.left

/-! ### Plain scalars -/

/-- The meaning of the text of a plain scalar; none if it is a word for a number that has no value here. -/
def meaning (s : List Char) : Option (Tree Unit) :=
  let text := String.ofList s
  let inBase (base : Nat) (r : List Char) : Option Word64 :=
    let (negative, ds) := match r with
      | '-' :: r => (true, r)
      | '+' :: r => (false, r)
      | r => (false, r)
    (Decimal.naturalIn? base ds).bind fun n => Bounded.ofInt? (if negative then -(n : Int) else n)
  let number : Option Word64 := match s with
    | '0' :: 'x' :: r => inBase 16 r
    | '0' :: 'o' :: r => inBase 8 r
    | '+' :: r => (Decimal.integer? r).bind Bounded.ofInt?
    | _ => (Decimal.integer? s).bind Bounded.ofInt?
  match number with
  | some n => some (.leaf () (.whole n))
  | none =>
    if text = "~" ∨ text = "null" then some (.leaf () .empty)
    else if text = "true" then some (.leaf () (.flag true))
    else if text = "false" then some (.leaf () (.flag false))
    else match Binary64.parse? s with
      | some x => some (.leaf () (.binary x))
      | none =>
        if [".inf", ".Inf", ".INF", "+.inf", "+.Inf", "+.INF", "-.inf", "-.Inf", "-.INF", ".nan", ".NAN"].contains text then
          none
        else some (.leaf () (.text text))

/-- The part of a plain scalar that stands on one line; `before` is the character before. -/
def plainRun (inFlow : Bool) (before : Char) : List Char → List Char
  | [] => []
  | c :: r =>
    if c = '\n' then []
    else if c = ':' ∧ (endsWord r ∨ inFlow ∧ r.head?.any isFlowMark) then []
    else if c = '#' ∧ isBlank before then []
    else if inFlow ∧ isFlowMark c then []
    else c :: plainRun inFlow c r

def trimEnd (s : List Char) : List Char := (s.reverse.dropWhile isBlank).reverse

def startsPlain (inFlow : Bool) : List Char → Bool
  | [] => false
  | c :: r =>
    if c = '-' ∨ c = '?' ∨ c = ':' then !endsWord r && !(inFlow && (c != '-' || r.head?.any isFlowMark))
    else !isIndicator c

def blankLines (n column : Nat) : List Char → Nat × Cursor
  | [] => (n, ⟨column, []⟩)
  | c :: r =>
    if c = '\n' then blankLines (n + 1) 0 r
    else if isBlank c then blankLines n (column + 1) r
    else (n, ⟨column, c :: r⟩)

theorem length_blankLines_le (n column : Nat) (s : List Char) : (blankLines n column s).2.left.length ≤ s.length := by
  induction s generalizing n column with
  | nil => simp [blankLines]
  | cons c r ih =>
    rw [blankLines]
    split
    · exact Nat.le_succ_of_le (ih (n + 1) 0)
    · split
      · exact Nat.le_succ_of_le (ih n (column + 1))
      · exact Nat.le_refl _

theorem length_blankLines_lt {n column : Nat} {s : List Char} (h : n < (blankLines n column s).1) :
    (blankLines n column s).2.left.length < s.length := by
  cases s with
  | nil => simp [blankLines] at h
  | cons c r =>
    rw [blankLines] at h ⊢
    split
    · exact Nat.lt_succ_of_le (length_blankLines_le (n + 1) 0 r)
    · split
      · exact Nat.lt_succ_of_le (length_blankLines_le n (column + 1) r)
      · simp_all

def folded (n : Nat) : List Char := if n ≤ 1 then [' '] else List.replicate (n - 1) '\n'

def goesOn (inFlow : Bool) (indent : Option Nat) (next : Cursor) : Bool :=
  !isMarker next && indent.all (· < next.column)
    && match next.left with
      | [] => false
      | c :: r => c != '#' && !(inFlow && isFlowMark c) && !(c == ':' && endsWord r)

/-- Reads the lines of a plain scalar; those behind the first must lie right of the column `indent`, if there is one. -/
def plain (inFlow : Bool) (indent : Option Nat) (c : Cursor) : List Char × Cursor :=
  let run := trimEnd (plainRun inFlow 'x' c.left)
  let left := c.left.drop run.length
  let gap := blankLines 0 (c.column + run.length) left
  if 0 < gap.1 ∧ goesOn inFlow indent gap.2 then
    let (more, last) := plain inFlow indent gap.2
    (run ++ folded gap.1 ++ more, last)
  else (run, ⟨c.column + run.length, left⟩)
termination_by c.left.length
decreasing_by
  rename_i h
  calc
    _ < (c.left.drop run.length).length := length_blankLines_lt h.1
    _ ≤ c.left.length := by simp

/-! ### Quoted scalars -/

def simpleEscape? (c : Char) : Option Char :=
  [('0', 0), ('a', 7), ('b', 8), ('t', 9), ('\t', 9), ('n', 10), ('v', 11), ('f', 12), ('r', 13), ('e', 27), (' ', 32),
    ('"', 34), (Char.ofNat 39, 39), ('\\', 92), ('/', 47), ('N', 0x85), ('_', 0xA0), ('L', 0x2028),
    ('P', 0x2029)].lookup c |>.map Char.ofNat

def escapeWidth? (c : Char) : Option Nat := [('x', 2), ('u', 4), ('U', 8)].lookup c

def escape? : List Char → Option (Char × Nat)
  | [] => none
  | c :: r =>
    match escapeWidth? c with
    | some w =>
      if r.length < w then none
      else
        (Decimal.naturalIn? 16 (r.take w)).bind fun n => if n.isValidChar then some (Char.ofNat n, w + 1) else none
    | none => (simpleEscape? c).map fun d => (d, 1)

def quoted (quote : Char) (column : Nat) : List Char → Option (List Char × Cursor)
  | [] => none
  | c :: r =>
    if c = quote then
      if quote ≠ '"' ∧ r.head? = some quote then
        (quoted quote (column + 2) (r.drop 1)).map fun (t, last) => (quote :: t, last)
      else some ([], ⟨column + 1, r⟩)
    else if c = '\\' ∧ quote = '"' then
      if r.head? = some '\n' then
        let blanks := (r.drop 1).takeWhile isBlank
        quoted quote blanks.length (r.drop (blanks.length + 1))
      else
        (escape? r).bind fun (d, n) =>
          (quoted quote (column + 1 + n) (r.drop n)).map fun (t, last) => (d :: t, last)
    else if isBlank c ∨ c = '\n' then
      let gap := if c = '\n' then blankLines 1 0 r else blankLines 0 (column + 1) r
      if gap.1 = 0 then
        let blanks := r.takeWhile isBlank
        (quoted quote (column + 1 + blanks.length) (r.drop blanks.length)).map fun (t, last) => (c :: blanks ++ t, last)
      else if isMarker gap.2 then none
      else (quoted quote gap.2.column gap.2.left).map fun (t, last) => (folded gap.1 ++ t, last)
    else (quoted quote (column + 1) r).map fun (t, last) => (c :: t, last)
termination_by s => s.length
decreasing_by
  · simp only [List.length_cons, List.length_drop]; omega
  · simp only [List.length_cons, List.length_drop]; omega
  · simp only [List.length_cons, List.length_drop]; omega
  · simp only [List.length_cons, List.length_drop]; omega
  · apply Nat.lt_succ_of_le
    split
    · exact length_blankLines_le 1 0 r
    · exact length_blankLines_le 0 (column + 1) r
  · exact Nat.lt_succ_self _

/-! ### Block scalars -/

inductive Chomping where
  | strip
  | clip
  | keep
  deriving DecidableEq, Repr

/-- Reads the signs behind the mark of a block: how it ends, and how far it is indented if that is said. -/
def blockSigns (s : List Char) : Option (Chomping × Option Nat × List Char) :=
  let chomping? (c : Char) : Option Chomping := if c = '+' then some .keep else if c = '-' then some .strip else none
  let indent? (c : Char) : Option Nat := (Decimal.digit? c).filter (0 < ·)
  match s with
  | a :: b :: r =>
    match chomping? a, indent? b, indent? a, chomping? b with
    | some ch, some n, _, _ => some (ch, some n, r)
    | _, _, some n, some ch => some (ch, some n, r)
    | some ch, none, _, _ => some (ch, none, b :: r)
    | _, _, some n, none => some (.clip, some n, b :: r)
    | _, _, _, _ => some (.clip, none, s)
  | [a] =>
    match chomping? a, indent? a with
    | some ch, _ => some (ch, none, [])
    | _, some n => some (.clip, some n, [])
    | _, _ => some (.clip, none, [])
  | [] => some (.clip, none, [])

def indentOf (line : List Char) : Nat := (line.takeWhile (· == ' ')).length

def isEmptyLine (line : List Char) : Bool := line.all (· == ' ')

def blockLines (indent : Nat) (lines : List (List Char)) : List (List Char) :=
  lines.takeWhile fun l => isEmptyLine l || indent ≤ indentOf l

/-- Joins the lines of a folded block: lines that start with text are joined by blanks, others keep their ends. -/
def foldLines : List (List Char) → List Char
  | [] => []
  | [l] => l
  | l :: m :: r =>
    let isText (l : List Char) := l.head?.any fun c => !isBlank c
    if isText l && isText m then l ++ ' ' :: foldLines (m :: r)
    else if isText l && m.isEmpty then
      -- the end of a line before an empty one does not count, unless what follows is indented
      let next := (m :: r).dropWhile (·.isEmpty)
      if next.isEmpty || (next.head?.any isText) then l ++ foldLines (m :: r) else l ++ '\n' :: foldLines (m :: r)
    else l ++ '\n' :: foldLines (m :: r)

def block (isFolded : Bool) (least : Nat) (c : Cursor) : Option (List Char × Cursor) := do
  let (chomping, given, left) ← blockSigns c.left
  let tail := left.dropWhile isBlank
  let tail := if tail.head? = some '#' ∧ tail.length < left.length then tail.dropWhile (· != '\n') else tail
  match tail with
  | [] => some ([], ⟨0, []⟩)
  | d :: body =>
    if d ≠ '\n' then none
    else
      let lines := Text.splitAt '\n' body
      let indent := match given with
        | some n => least - 1 + n
        | none => max least ((lines.find? fun l => !isEmptyLine l).elim 0 indentOf)
      let taken := blockLines indent lines
      let consumed := taken.foldl (fun n l => n + l.length + 1) 0
      let texts := taken.map (·.drop indent)
      let kept := (texts.reverse.dropWhile (·.isEmpty)).reverse
      let inner := if isFolded then foldLines kept else ['\n'].intercalate kept
      let ending := match chomping with
        | .strip => []
        | .clip => if kept.isEmpty then [] else ['\n']
        | .keep => if kept.isEmpty then List.replicate (texts.length - 1) '\n' else
            List.replicate (texts.length - kept.length + (if taken.length < lines.length then 1 else 0)) '\n'
      some (inner ++ ending, ⟨0, body.drop consumed⟩)

end Courier.Settings.Yaml
