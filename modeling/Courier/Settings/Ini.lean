import Courier.Decimal.Parse
import Courier.Settings.Tree
import Courier.Text.Blank
set_option autoImplicit false

namespace Courier.Settings.Ini

def escaped (c : Char) : List Char :=
  if c = '0' then [Char.ofNat 0]
  else if c = 'a' then [Char.ofNat 7]
  else if c = 'b' then [Char.ofNat 8]
  else if c = 't' then ['\t']
  else if c = 'r' then ['\r']
  else if c = 'n' then ['\n']
  else if c = '\n' then []
  else [c]

def scalar? (s : List Char) : Option Char :=
  if s.length < 4 then none
  else (Decimal.naturalIn? 16 (s.take 4)).bind fun n => if n.isValidChar then some (Char.ofNat n) else none

/-- Reads up to a character that ends the text, which stays. The end of the file may stand for it if so allowed. -/
def readUntil (stops : Char → Bool) (mayEnd : Bool) : List Char → Option (List Char × List Char)
  | [] => if mayEnd then some ([], []) else none
  | c :: r =>
    if stops c then some ([], c :: r)
    else if c = '\\' then
      match r with
      | [] => none
      | d :: s =>
        if d = 'x' then
          (scalar? s).bind fun e => (readUntil stops mayEnd (s.drop 4)).map fun (t, left) => (e :: t, left)
        else (readUntil stops mayEnd s).map fun (t, left) => (escaped d ++ t, left)
    else (readUntil stops mayEnd r).map fun (t, left) => (c :: t, left)
termination_by s => s.length
decreasing_by all_goals simp only [List.length_cons, List.length_drop]; omega

def readLine (s : List Char) : Option (List Char × List Char) :=
  readUntil (fun c => c == '\n' || c == '\r') true s

def isQuote (c : Char) : Bool := c == '"' || c == Char.ofNat 39

/-- Reads a value. What follows a quoted part on the line is added to it. -/
def readValue (s : List Char) : Option (List Char × List Char) :=
  match s.dropWhile fun c => Text.isSpace c && c != '\n' && c != '\r' with
  | [] => some ([], [])
  | c :: r =>
    if isQuote c then
      (readUntil (· == c) false r).bind fun (t, left) =>
        (readLine (left.drop 1)).map fun (u, left) => (t ++ u, left)
    else readLine (c :: r)

def trimmed (s : List Char) : String := String.ofList (Text.trim s)

/-- The table with the section under way, if there is one, under its name; a section that comes again replaces the one
before. -/
def close (es : Entries Unit) (name : Option String) (body : Entries Unit) : Entries Unit :=
  match name with
  | none => body.foldl (fun es e => setEntry e.1 e.2 es) es
  | some n => setEntry n (.table () body) es

/-- Reads lines; `isFirst` says whether the next character is the first of its line. -/
def lines? : Nat → Entries Unit → Option String → Entries Unit → Bool → List Char → Option (Entries Unit)
  | _, es, name, body, _, [] => some (close es name body)
  | 0, _, _, _, _, _ :: _ => none
  | fuel + 1, es, name, body, isFirst, c :: r =>
    if Text.isSpace c then lines? fuel es name body (c == '\n') r
    else if c = ';' ∨ c = '#' then
      if isFirst then lines? fuel es name body true ((r.dropWhile (· != '\n')).drop 1) else none
    else if c = '[' then
      (readUntil (· == ']') false r).bind fun (n, left) =>
        lines? fuel (close es name body) (some (trimmed n)) [] false (left.drop 1)
    else if c = '=' ∨ c = ':' then none
    else
      (readUntil (fun c => c == '=' || c == ':') false (c :: r)).bind fun (k, left) =>
        if (Text.trim k).isEmpty then none
        else
          (readValue (left.drop 1)).bind fun (v, left) =>
            lines? fuel es name (setEntry (trimmed k) (Tree.ofText (Text.trim v)) body) false left

def parse? (s : String) : Option (Entries Unit) := lines? (s.length + 1) [] none [] true s.toList

end Courier.Settings.Ini
