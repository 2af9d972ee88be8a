import Courier.Text.Hex
import Courier.Text.Utf8
set_option autoImplicit false

namespace Courier.Url

def isControl (c : Char) : Bool := c.val.toNat < 32 || 126 < c.val.toNat

def inFragmentSet (c : Char) : Bool := isControl c || [' ', '"', '<', '>', '\x60'].contains c

def inPathSet (c : Char) : Bool := inFragmentSet c || ['#', '?', '\x7b', '\x7d'].contains c

def inUserSet (c : Char) : Bool := inPathSet c || ['/', ':', ';', '=', '@', '[', '\\', ']', '^', '|'].contains c

def inQuerySet (isSpecial : Bool) (c : Char) : Bool :=
  isControl c || [' ', '"', '#', '<', '>'].contains c || (isSpecial && c == '\'')

def percentByte (b : UInt8) : List Char := '%' :: (Text.hexByte b).map Char.toUpper

def percentEncode (set : Char → Bool) (s : List Char) : List Char :=
  s.flatMap fun c => if set c then (Text.utf8 [c]).flatMap percentByte else [c]

def percentDecode : List Char → List UInt8
  | [] => []
  | '%' :: a :: b :: r =>
    match Text.hexValue? a, Text.hexValue? b with
    | some x, some y => UInt8.ofNat (16 * x + y) :: percentDecode r
    | _, _ => Text.utf8 ['%'] ++ percentDecode (a :: b :: r)
  | c :: r => Text.utf8 [c] ++ percentDecode r
  termination_by s => s.length

end Courier.Url
