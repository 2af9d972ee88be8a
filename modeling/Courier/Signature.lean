import Courier.Signature.Sha256
import Courier.Text.Blank
import Courier.Text.Hex
import Courier.Text.Utf8
set_option autoImplicit false

namespace Courier.Signature

/-- A key as one block: a long one is replaced by its digest, and zeros fill the block. -/
def keyBlock (key : List UInt8) : List UInt8 :=
  let k := if 64 < key.length then Sha256.digest key else key
  k ++ List.replicate (64 - k.length) 0

def mac (key message : List UInt8) : List UInt8 :=
  let block := keyBlock key
  Sha256.digest (block.map (· ^^^ 0x5c) ++ Sha256.digest (block.map (· ^^^ 0x36) ++ message))

def sign (secret : String) (payload : List UInt8) : String :=
  String.ofList (Text.hexEncode (mac (Text.bytes secret) payload))

/-- Whether a text is the signature of a payload, up to white space around it and the case of its digits. -/
def verify (secret : String) (payload : List UInt8) (signature : String) : Bool :=
  match Text.hexDecode? (Text.trim signature.toList) with
  | some expected => mac (Text.bytes secret) payload == expected
  | none => false

def secretSize : Nat := 32

def secretOf (bytes : { bs : List UInt8 // bs.length = secretSize }) : String :=
  String.ofList (Text.hexEncode bytes.val)

theorem length_mac (key message : List UInt8) : (mac key message).length = 32 := Sha256.length_digest _

end Courier.Signature
