import Courier.Json.Value
import Courier.Text.Hex
set_option autoImplicit false

namespace Courier.Json

def escape (c : Char) : List Char :=
  if c = '"' then ['\\', '"']
  else if c = '\\' then ['\\', '\\']
  else if c.val.toNat = 8 then ['\\', 'b']
  else if c.val.toNat = 9 then ['\\', 't']
  else if c.val.toNat = 10 then ['\\', 'n']
  else if c.val.toNat = 12 then ['\\', 'f']
  else if c.val.toNat = 13 then ['\\', 'r']
  else if c.val.toNat < 32 then '\\' :: 'u' :: Text.hexPadded 4 c.val.toNat
  else [c]

def quoted (s : String) : List Char := '"' :: (s.toList.flatMap escape ++ ['"'])

def commas : List (List Char) → List Char
  | [] => []
  | [p] => p
  | p :: q :: r => p ++ ',' :: commas (q :: r)

mutual

def chars : Json → List Char
  | .null => ['n', 'u', 'l', 'l']
  | .bool true => ['t', 'r', 'u', 'e']
  | .bool false => ['f', 'a', 'l', 's', 'e']
  | .integer n => Decimal.ofInt n.val
  | .binary x => if x.isFinite then x.chars .json else ['n', 'u', 'l', 'l']
  | .string s => quoted s
  | .array items => '[' :: (commas (itemChars items) ++ [']'])
  | .object members => '\x7b' :: (commas (memberChars members) ++ ['\x7d'])

def itemChars : List Json → List (List Char)
  | [] => []
  | j :: r => chars j :: itemChars r

def memberChars : List (String × Json) → List (List Char)
  | [] => []
  | (k, j) :: r => (quoted k ++ ':' :: chars j) :: memberChars r

end

def text (j : Json) : String := String.ofList j.chars

/-- An object whose members keep the given order. -/
def recordChars (ms : List (String × List Char)) : List Char :=
  '\x7b' :: (commas (ms.map fun m => quoted m.1 ++ ':' :: m.2) ++ ['\x7d'])

end Courier.Json
