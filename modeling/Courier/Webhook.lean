import Courier.Event
import Courier.Url.Parser
set_option autoImplicit false

namespace Courier

structure Webhook where
  id : Uuid
  name : String
  url : String
  /-- The key of the signature; it is neither written out nor sent. -/
  secret : String
  /-- Event types and patterns; entries may be missing. -/
  events : List (Option String)
  headers : Json
  active : Bool
  createdAt : Instant
  updatedAt : Instant
  deriving Repr

/-- The names and texts of an object; members that are no texts are left out. -/
def Json.texts : Json → List (String × String)
  | .object ms => ms.filterMap fun m => m.2.string?.map (m.1, ·)
  | _ => []

/-- The object of names and texts; the last of equal names counts. -/
def Json.ofTexts (ms : List (String × String)) : Json :=
  .object (Json.sortMembers (ms.map fun m => (m.1, Json.string m.2)))

namespace Webhook

def anySelects (events : List (Option String)) (type : String) : Bool :=
  events.any fun e => e.any (Event.matchesPattern · type)

def subscribesTo (w : Webhook) (type : String) : Bool := anySelects w.events type

def customHeaders (w : Webhook) : List (String × String) := w.headers.texts

def schema : Json.Schema Webhook where
  name := "Webhook"
  fields := [⟨"id", .uuid, true, none⟩, ⟨"name", .text, true, none⟩, ⟨"url", .text, true, none⟩,
    ⟨"secret", .text, false, some ""⟩, ⟨"events", .list (.optional .text), true, none⟩, ⟨"headers", .json, true, none⟩,
    ⟨"active", .flag, true, none⟩, ⟨"created_at", .instant, true, none⟩, ⟨"updated_at", .instant, true, none⟩]
  ofRow row :=
    ⟨row.1, row.2.1, row.2.2.1, row.2.2.2.1, row.2.2.2.2.1, row.2.2.2.2.2.1, row.2.2.2.2.2.2.1, row.2.2.2.2.2.2.2.1,
      row.2.2.2.2.2.2.2.2.1⟩
  toRow w := (w.id, w.name, w.url, w.secret, w.events, w.headers, w.active, w.createdAt, w.updatedAt, ())

inductive Fault where
  | blankName
  | longName
  | url (fault : Url.Fault)
  | scheme (name : String)
  | emptySecret
  | blankEvent
  | noEvents
  deriving DecidableEq, Repr

def Fault.message : Fault → String
  | .blankName => "Name cannot be empty"
  | .longName => "Name cannot exceed 255 characters"
  | .url f => s!"Invalid URL: {f.message}"
  | .scheme s => s!"Unsupported URL scheme: {s}"
  | .emptySecret => "Secret cannot be empty"
  | .blankEvent => "At least one non-empty event type is required"
  | .noEvents => "At least one event type is required"

def checkUrl (url : String) : Except Fault Unit :=
  match Url.parse url with
  | .error f => .error (.url f)
  | .ok u =>
    let s := String.ofList u.scheme
    if s = "http" ∨ s = "https" then .ok () else .error (.scheme s)

end Webhook

structure Registration where
  name : String
  url : String
  secret : String
  events : List (Option String)
  headers : Json
  active : Bool
  deriving Repr

namespace Registration

def schema : Json.Schema Registration where
  name := "NewWebhook"
  fields := [⟨"name", .text, true, none⟩, ⟨"url", .text, true, none⟩, ⟨"secret", .text, true, none⟩,
    ⟨"events", .list (.optional .text), true, none⟩, ⟨"headers", .json, true, none⟩, ⟨"active", .flag, true, none⟩]
  ofRow row := ⟨row.1, row.2.1, row.2.2.1, row.2.2.2.1, row.2.2.2.2.1, row.2.2.2.2.2.1⟩
  toRow r := (r.name, r.url, r.secret, r.events, r.headers, r.active, ())

/-- An active registration of a configuration that is in order. The length of a name is counted in bytes. -/
def make (name url secret : String) (events : List String) (headers : List (String × String)) :
    Except Webhook.Fault Registration := do
  if Text.isBlank name then throw .blankName
  if 255 < (Text.bytes name).length then throw .longName
  Webhook.checkUrl url
  if secret = "" then throw .emptySecret
  if events.isEmpty ∨ events.any Text.isBlank then throw .blankEvent
  return { name, url, secret, events := events.map some, headers := Json.ofTexts headers, active := true }

def toWebhook (r : Registration) (id : Uuid) (now : Instant) : Webhook :=
  { id, name := r.name, url := r.url, secret := r.secret, events := r.events, headers := r.headers, active := r.active
    createdAt := now, updatedAt := now }

end Registration

structure Amendment where
  name : Option String := none
  url : Option String := none
  secret : Option String := none
  events : Option (List (Option String)) := none
  headers : Option Json := none
  active : Option Bool := none
  deriving Repr

namespace Amendment

def isEmpty (a : Amendment) : Bool :=
  a.name.isNone && a.url.isNone && a.secret.isNone && a.events.isNone && a.headers.isNone && a.active.isNone

def check (a : Amendment) : Except Webhook.Fault Unit := do
  if a.name.any Text.isBlank then throw .blankName
  match a.url with
  | some u => Webhook.checkUrl u
  | none => pure ()
  if a.secret = some "" then throw .emptySecret
  if a.events.any List.isEmpty then throw .noEvents

def apply (a : Amendment) (w : Webhook) : Webhook :=
  { w with
    name := a.name.getD w.name
    url := a.url.getD w.url
    secret := a.secret.getD w.secret
    events := a.events.getD w.events
    headers := a.headers.getD w.headers
    active := a.active.getD w.active }

end Amendment

end Courier
