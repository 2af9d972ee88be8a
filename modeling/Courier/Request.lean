import Courier.Attempt
import Courier.Decimal.Binary64
import Courier.Request.Body
import Courier.Request.Header
import Courier.Signature
import Courier.Webhook
set_option autoImplicit false

/-!
# Requests

An attempt is one POST of the stored payload. The webhook's own headers are set first and the reserved ones over them,
so that a webhook can never replace its own signature. Redirects are not followed.
-/

namespace Courier

structure SenderConfig where
  requestTimeout : Duration
  userAgent : String
  signatureHeader : String
  responseBodyLimit : Nat
  deriving DecidableEq, Repr

def SenderConfig.standard : SenderConfig :=
  ⟨.halfMinute, "Hookline-Webhook/1.0", "X-Webhook-Signature", 10240⟩

/-- A configuration whose header name and value are well-formed; the name is in small letters. -/
structure Sender where
  requestTimeout : Duration
  userAgent : String
  signatureHeader : String
  responseBodyLimit : Nat
  isValue_userAgent : Header.isValue userAgent = true
  deriving DecidableEq, Repr

def eventHeader : String := "x-webhook-event"

def deliveryHeader : String := "x-webhook-delivery"

def attemptHeader : String := "x-webhook-attempt"

namespace Sender

/-- Why a configuration is refused: the name of a header, or of the header whose value is malformed. -/
structure Fault where
  header : String
  deriving DecidableEq, Repr

def Fault.message (f : Fault) : String := s!"invalid header name {Text.inQuotes f.header}"

def make (c : SenderConfig) : Except Fault Sender :=
  match Header.name? c.signatureHeader with
  | none => .error ⟨c.signatureHeader⟩
  | some name =>
    if h : Header.isValue c.userAgent = true then
      .ok ⟨c.requestTimeout, c.userAgent, name, c.responseBodyLimit, h⟩
    else .error ⟨"user-agent"⟩

/-- The webhook's own headers, as far as they are well-formed; of names that differ in case only, the last counts. -/
def ownHeaders (w : Webhook) : Headers := w.customHeaders.foldl Headers.setIfValid []

def reservedHeaders (s : Sender) (d : Delivery) (w : Webhook) (attempt : Word32) : List (String × String) :=
  [("content-type", "application/json"),
    ("user-agent", s.userAgent),
    (s.signatureHeader, Header.valueOr (Signature.sign w.secret (Text.bytes d.payload))),
    (eventHeader, Header.valueOr d.event),
    (deliveryHeader, Header.valueOr d.id.text),
    (attemptHeader, Header.valueOr (String.ofList (Decimal.ofInt attempt.val)))]

def headers (s : Sender) (d : Delivery) (w : Webhook) : Except OutOfRange Headers :=
  match d.attempts.add? 1 with
  | none => .error ⟨⟩
  | some n => .ok ((s.reservedHeaders d w n).foldl (fun h e => h.set e.1 e.2) (ownHeaders w))

end Sender

structure Request where
  url : Url
  headers : Headers
  body : String
  deriving DecidableEq, Repr

inductive Exchange where
  | unconnected (reason : String)
  | timedOut
  /-- The connection broke before a response came. -/
  | broken (reason : String)
  | answered (code : Nat) (body : Body.Transfer) (lt_bound : code < 65536)
  deriving Repr

namespace Sender

inductive Unsendable where
  | url (fault : Url.Fault)
  | scheme (url : Url)
  deriving DecidableEq, Repr

/-- The text of the reason. The user is not shown. -/
def Unsendable.message : Unsendable → String
  | .url f => s!"builder error: {f.message}"
  | .scheme u => s!"builder error for url ({String.ofList u.anonymous.chars}): URL scheme is not allowed"

def request (s : Sender) (d : Delivery) (w : Webhook) : Except OutOfRange (Except Unsendable Request) :=
  match s.headers d w with
  | .error e => .error e
  | .ok headers =>
    match Url.parse w.url with
    | .error f => .ok (.error (.url f))
    | .ok url =>
      let scheme := String.ofList url.scheme
      if scheme = "http" ∨ scheme = "https" then .ok (.ok { url, headers, body := d.payload })
      else .ok (.error (.scheme url))

def secondsText (d : Duration) : String :=
  let x := (UInt64.ofNat d.secs).toFloat + (UInt64.ofNat d.subsec).toFloat / 1000000000.0
  String.ofList ((Binary64.ofFloat x).chars .positional)

def outcome (s : Sender) : Exchange → Outcome
  | .unconnected reason => .failed .retryable s!"connection failed: {reason}"
  | .timedOut => .failed .retryable s!"request timed out after {secondsText s.requestTimeout}s"
  | .broken reason => .failed .retryable s!"request failed: {reason}"
  | .answered code body h => .ofResponse code (Body.capture s.responseBodyLimit body) h

/-- Makes the next attempt over a network. An address that cannot be sent to will not mend by itself. -/
def attempt (s : Sender) (network : Request → Exchange) (d : Delivery) (w : Webhook) : Except OutOfRange Outcome :=
  match s.request d w with
  | .error e => .error e
  | .ok (.error u) => .ok (.failed .permanent s!"invalid request: {u.message}")
  | .ok (.ok r) => .ok (s.outcome (network r))

end Sender

end Courier
