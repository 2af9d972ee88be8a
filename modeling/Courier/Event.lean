import Courier.Json.Schema
import Courier.Text.Blank
set_option autoImplicit false

namespace Courier

structure Event where
  type : String
  timestamp : Instant
  data : Json
  deriving Repr

namespace Event

def catalogue : List String :=
  ["page.created", "page.updated", "page.published", "page.unpublished", "page.deleted", "media.uploaded",
    "media.deleted", "form.submitted", "user.created", "user.updated", "user.deleted"]

def schema : Json.Schema Event where
  name := "WebhookEvent"
  fields := [⟨"type", .text, true, none⟩, ⟨"timestamp", .instant, true, none⟩, ⟨"data", .json, true, none⟩]
  ofRow row := ⟨row.1, row.2.1, row.2.2.1⟩
  toRow e := (e.type, e.timestamp, e.data, ())

def payload (e : Event) : String := schema.print e

/-- What stands before a final `.*`. -/
def stem? (pattern : List Char) : Option (List Char) :=
  match pattern.reverse with
  | '*' :: '.' :: r => some r.reverse
  | _ => none

def selects (pattern type : List Char) : Bool :=
  if pattern = ['*'] then true
  else match stem? pattern with
    | some stem => (stem ++ ['.']).isPrefixOf type
    | none => pattern == type

def matchesPattern (pattern type : String) : Bool := selects pattern.toList type.toList

theorem stem?_eq_some_iff {p q : List Char} : stem? p = some q ↔ p = q ++ ['.', '*'] := by
  unfold stem?
  constructor
  · intro h
    split at h
    · rename_i r hr
      cases h
      have := congrArg List.reverse hr
      simpa using this
    · cases h
  · rintro rfl
    simp

end Event

end Courier
