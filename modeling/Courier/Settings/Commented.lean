import Courier.Decimal.Parse
import Courier.Settings.Tree
import Courier.Text.Blank
set_option autoImplicit false

namespace Courier.Settings

/-- Drops the rest of a comment that ends with a star and a slash; none if it does not end. Such comments nest if `nests`
says so; `depth` counts the ones around. -/
def skipStarred (nests : Bool) : Nat → List Char → Option (List Char)
  | _, [] => none
  | depth, '*' :: '/' :: r => if depth = 0 then some r else skipStarred nests (depth - 1) r
  | depth, '/' :: '*' :: r => skipStarred nests (if nests then depth + 1 else depth) r
  | depth, _ :: r => skipStarred nests depth r

theorem length_of_skipStarred {nests : Bool} {depth : Nat} {s r : List Char}
    (h : skipStarred nests depth s = some r) : r.length ≤ s.length := by
  fun_induction skipStarred nests depth s with
  | case1 => simp at h
  | case2 => simp_all; omega
  | case3 _ _ _ ih => have := ih h; simp only [List.length_cons]; omega
  | case4 _ _ ih => have := ih h; simp only [List.length_cons]; omega
  | case5 _ _ _ _ _ ih => have := ih h; simp only [List.length_cons]; omega

def isFiller (c : Char) : Bool := Text.isSpace c || c.val.toNat == 0xFEFF

def skipComments (nests : Bool) (s : List Char) : Option (List Char) :=
  match _hs : s.dropWhile isFiller with
  | '/' :: '/' :: r => skipComments nests (r.dropWhile (· != '\n'))
  | '/' :: '*' :: r =>
    match _hr : skipStarred nests 0 r with
    | none => none
    | some left => skipComments nests left
  | r => some r
termination_by s.length
decreasing_by
  · have hs : (s.dropWhile isFiller).length ≤ s.length := (List.dropWhile_suffix isFiller).length_le
    have hr : (r.dropWhile (· != '\n')).length ≤ r.length := (List.dropWhile_suffix _).length_le
    simp only [_hs, List.length_cons] at hs
    omega
  · have hs : (s.dropWhile isFiller).length ≤ s.length := (List.dropWhile_suffix isFiller).length_le
    have hr := length_of_skipStarred _hr
    simp only [_hs, List.length_cons] at hs
    omega

def hexDigits? (width : Nat) (s : List Char) : Option Nat :=
  if s.length < width then none else Decimal.naturalIn? 16 (s.take width)

/-- A number as a leaf: an integer if it fits 64 bits. -/
def wholeOr (n : Int) (other : Option (Tree Unit)) : Option (Tree Unit) :=
  match (Bounded.ofInt? n : Option Word64) with
  | some w => some (.leaf () (.whole w))
  | none => other

end Courier.Settings
