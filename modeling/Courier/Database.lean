import Courier.Settings.Sections
import Courier.Store.Error
import Courier.Url.Parser
set_option autoImplicit false

namespace Courier

structure Database where
  url : Url
  /-- How many connections are kept at most, one at least. -/
  poolSize : Count32
  /-- The schema that every connection uses. -/
  schema : Option SchemaName
  deriving DecidableEq, Repr

namespace Database

def ofSettings (s : DatabaseSettings) : Except Store.Error Database :=
  match Url.parse s.url with
  | .error f => .error (.databaseUrl f)
  | .ok url =>
    let url := url.withPath s.name.toList
    match s.schema with
    | none => .ok ⟨url, .clamp (max 1 s.poolSize.val), none⟩
    | some name =>
      match SchemaName.make name with
      | .error f => .error (.schemaName f)
      | .ok schema => .ok ⟨url, .clamp (max 1 s.poolSize.val), some schema⟩

end Database

end Courier
