import Courier.Bounded
import Courier.Decimal.Binary64
set_option autoImplicit false

namespace Courier

abbrev JsonInteger := Bounded (-9223372036854775808) 18446744073709551615

inductive Json where
  | null
  | bool (b : Bool)
  | integer (n : JsonInteger)
  | binary (x : Binary64)
  | string (s : String)
  | array (items : List Json)
  | object (members : List (String × Json))
  deriving Repr, Inhabited

namespace Json

/-- Puts a member at its place in the order of names; an earlier one of the same name is replaced. -/
def putMember {α : Type} (name : String) (v : α) : List (String × α) → List (String × α)
  | [] => [(name, v)]
  | (k, w) :: r =>
    if name < k then (name, v) :: (k, w) :: r
    else if name = k then (name, v) :: r
    else (k, w) :: putMember name v r

def sortMembers {α : Type} (ms : List (String × α)) : List (String × α) :=
  ms.foldl (fun acc m => putMember m.1 m.2 acc) []

def get? (j : Json) (name : String) : Option Json :=
  match j with
  | .object ms => ms.lookup name
  | _ => none

def string? : Json → Option String
  | .string s => some s
  | _ => none

def ofNat (n : Nat) (h : (n : Int) ≤ 18446744073709551615 := by decide) : Json := .integer ⟨n, by omega, h⟩

end Json

end Courier
