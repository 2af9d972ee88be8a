import Courier.Text.Hex
import Courier.Text.Category
set_option autoImplicit false

namespace Courier.Text

def showChar (c : Char) : List Char :=
  if c = '"' then ['\\', '"']
  else if c = '\\' then ['\\', '\\']
  else if c.val.toNat = 0 then ['\\', '0']
  else if c.val.toNat = 9 then ['\\', 't']
  else if c.val.toNat = 10 then ['\\', 'n']
  else if c.val.toNat = 13 then ['\\', 'r']
  else if isExtending c || !isVisible c then
    '\\' :: 'u' :: '\x7b' :: (Nat.toDigits 16 c.val.toNat ++ ['\x7d'])
  else [c]

def inQuotes (s : String) : String := String.ofList ('"' :: (s.toList.flatMap showChar ++ ['"']))

end Courier.Text
