set_option autoImplicit false

namespace Courier

def SchemaName.isValid (s : String) : Bool :=
  match s.toList with
  | [] => false
  | c :: r => c.isAlpha && r.all fun c => c.isAlphanum || c == '_'

structure SchemaName where
  text : String
  isValid_text : SchemaName.isValid text = true
  deriving DecidableEq, Repr

namespace SchemaName

inductive Fault where
  | empty
  | start
  | character
  deriving DecidableEq, Repr

def Fault.message : Fault → String
  | .empty => "Schema name cannot be empty"
  | .start => "Schema name must start with a letter"
  | .character => "Schema name can only contain letters, numbers, and underscores"

def faultOf (s : String) : Fault :=
  match s.toList with
  | [] => .empty
  | c :: _ => if c.isAlpha then .character else .start

def make (s : String) : Except Fault SchemaName := if h : isValid s = true then .ok ⟨s, h⟩ else .error (faultOf s)

end SchemaName

end Courier
