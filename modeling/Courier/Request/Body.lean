import Courier.Text.Utf8
set_option autoImplicit false

namespace Courier.Body

inductive Transfer where
  | complete
  | broken
  | chunk (bytes : List UInt8) (rest : Transfer)
  deriving DecidableEq, Repr

/-- The bytes kept of what arrives, with those kept before. Reading stops when the limit is reached. -/
def gather (limit : Nat) (kept : List UInt8) : Transfer → List UInt8
  | .complete => kept
  | .broken => kept
  | .chunk bytes rest =>
    let kept := kept ++ bytes.take (limit - kept.length)
    if limit ≤ kept.length then kept else gather limit kept rest

/-- The text kept of a body, if any. A transfer that breaks off keeps what had arrived. -/
def capture (limit : Nat) (t : Transfer) : Option String :=
  match gather limit [] t with
  | [] => none
  | bytes => some (String.ofList (Text.decodeLossy bytes))

end Courier.Body
