set_option autoImplicit false

namespace Courier.Url.Punycode

def threshold (k bias : Nat) : Nat := if k ≤ bias + 1 then 1 else if bias + 26 ≤ k then 26 else k - bias

theorem threshold_pos (k bias : Nat) : 0 < threshold k bias := by
  unfold threshold
  split
  · decide
  · split <;> omega

/-- The bias for a distance, which is divided until it is small; `k` grows with every division. -/
def biasFor (d k : Nat) : Nat := if 455 < d then biasFor (d / 35) (k + 36) else k + 36 * d / (d + 38)
termination_by d
decreasing_by exact Nat.div_lt_self (by omega) (by decide)

def adapt (delta count : Nat) (first : Bool) : Nat :=
  let d := if first then delta / 700 else delta / 2
  biasFor (d + d / count) 0

def digit? (c : Char) : Option Nat :=
  let n := c.val.toNat
  if 97 ≤ n ∧ n ≤ 122 then some (n - 97)
  else if 65 ≤ n ∧ n ≤ 90 then some (n - 65)
  else if 48 ≤ n ∧ n ≤ 57 then some (n - 22)
  else none

def digit (n : Nat) : Char := if n < 26 then Char.ofNat (97 + n) else Char.ofNat (22 + n)

/-- Reads one number: its value times weight added to `i`, and the rest. -/
def readNumber (bias : Nat) : List Char → Nat → Nat → Nat → Option (Nat × List Char)
  | [], _, _, _ => none
  | c :: r, i, w, k =>
    match digit? c with
    | none => none
    | some d =>
      let i := i + d * w
      if 4294967295 < i then none
      else
        let t := threshold k bias
        if d < t then some (i, r) else readNumber bias r i (w * (36 - t)) (k + 36)

/-- A number takes up a digit at least. -/
theorem length_of_readNumber {bias i w k j : Nat} {s r : List Char} (h : readNumber bias s i w k = some (j, r)) :
    r.length < s.length := by
  induction s generalizing i w k with
  | nil => simp [readNumber] at h
  | cons c s ih =>
    rw [readNumber] at h
    cases hd : digit? c with
    | none => simp [hd] at h
    | some d =>
      simp only [hd] at h
      split at h
      · exact absurd h (by simp)
      · split at h
        · simp only [Option.some.injEq, Prod.mk.injEq] at h
          simp [h.2]
        · exact Nat.lt_succ_of_lt (ih h)

def insertAt {α : Type} (xs : List α) (i : Nat) (x : α) : List α := xs.take i ++ x :: xs.drop i

def readPoints (out : List Nat) (n i bias : Nat) (s : List Char) : Option (List Nat) :=
  if s.isEmpty then some out
  else match _ : readNumber bias s i 1 36 with
    | none => none
    | some (j, r) =>
      let len := out.length + 1
      let n := n + j / len
      if 0x10FFFF < n ∨ (0xD800 ≤ n ∧ n ≤ 0xDFFF) then none
      else readPoints (insertAt out (j % len) n) n (j % len + 1) (adapt (j - i) len (i == 0)) r
termination_by s.length
decreasing_by exact length_of_readNumber (by assumption)

def decode (s : List Char) : Option (List Char) :=
  let tail := (s.reverse.takeWhile (· != '-')).reverse
  let base := (s.take (s.length - tail.length)).dropLast
  if base.all (fun c => c.val.toNat < 128) then
    (readPoints (base.map fun c => c.val.toNat) 128 0 72 tail).map (·.map Char.ofNat)
  else none

def writeNumber (bias q k : Nat) : List Char :=
  let t := threshold k bias
  if q < t then [digit q] else digit (t + (q - t) % (36 - t)) :: writeNumber bias ((q - t) / (36 - t)) (k + 36)
termination_by q
decreasing_by
  have hpos := threshold_pos k bias
  calc
    (q - threshold k bias) / (36 - threshold k bias) ≤ q - threshold k bias := Nat.div_le_self _ _
    _ < q := by omega

/-- Where the writer stands: the distance so far, the bias, and how many characters are done. -/
structure Writer where
  delta : Nat
  bias : Nat
  done : Nat
  out : List Char

def writePoint (base n : Nat) (whole : List Nat) (w : Writer) : Writer :=
  whole.foldl (fun w c =>
    if c < n then { w with delta := w.delta + 1 }
    else if c = n then
      { delta := 0, bias := adapt w.delta (w.done + 1) (w.done == base), done := w.done + 1
        out := w.out ++ writeNumber w.bias w.delta 36 }
    else w) w

def encode (label : List Char) : List Char :=
  let whole := label.map fun c => c.val.toNat
  let basic := label.filter fun c => c.val.toNat < 128
  let points := (whole.filter (128 ≤ ·)).mergeSort.eraseDups
  let start : Writer := ⟨0, 72, basic.length, []⟩
  let final := points.foldl (fun (acc : Nat × Writer) n =>
    let w := { acc.2 with delta := acc.2.delta + (n - acc.1) * (acc.2.done + 1) }
    let w := writePoint basic.length n whole w
    (n + 1, { w with delta := w.delta + 1 })) (128, start)
  (if basic.isEmpty then [] else basic ++ ['-']) ++ final.2.out

end Courier.Url.Punycode
