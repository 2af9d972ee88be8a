import Courier.Json.Value
import Courier.Text.Utf8
set_option autoImplicit false

namespace Courier

namespace Header

def isToken (c : Char) : Bool :=
  c.isAlphanum || ['!', '#', '$', '%', '&', '\'', '*', '+', '-', '.', '^', '_', '\x60', '|', '~'].contains c

def name? (s : String) : Option String :=
  let cs := s.toList
  if cs ≠ [] ∧ cs.all isToken ∧ cs.length ≤ 65535 then some (String.ofList (cs.map Char.toLower)) else none

def isValueChar (c : Char) : Bool := c == '\t' || (32 ≤ c.val.toNat && c.val.toNat != 127)

def isValue (s : String) : Bool := s.toList.all isValueChar

def valueOr (s : String) : String := if isValue s then s else "invalid"

end Header

abbrev Headers := List (String × String)

namespace Headers

/-- Sets a header; an earlier value is replaced. -/
def set (h : Headers) (name value : String) : Headers := Json.putMember name value h

def get? (h : Headers) (name : String) : Option String := h.lookup name

def setIfValid (h : Headers) (entry : String × String) : Headers :=
  match Header.name? entry.1 with
  | some n => if Header.isValue entry.2 then h.set n entry.2 else h
  | none => h

end Headers

end Courier
