import Courier.Json.Reader
import Courier.Settings.Ini
import Courier.Settings.Json5
import Courier.Settings.Reading
import Courier.Settings.Ron
import Courier.Settings.Toml.Reader
import Courier.Settings.Yaml.Reader
import Courier.Text.Split
set_option autoImplicit false

namespace Courier.Settings

inductive Format where
  | toml
  | json
  | yaml
  | ini
  | ron
  | json5
  deriving DecidableEq, Repr

namespace Format

def all : List Format := [.toml, .json, .yaml, .ini, .ron, .json5]

def extensions : Format → List String
  | .toml => ["toml"]
  | .json => ["json"]
  | .yaml => ["yaml", "yml"]
  | .ini => ["ini"]
  | .ron => ["ron"]
  | .json5 => ["json5"]

def ofExtension? (extension : String) : Option Format := all.find? fun f => f.extensions.contains extension

def parse? (f : Format) (text : String) : Option (Entries Unit) :=
  match f with
  | .toml => Toml.parse? text
  | .json => (Json.parse text).toOption.map fun j => (Tree.ofJson j).entries
  | .yaml => Yaml.parse? text
  | .ini => Ini.parse? text
  | .ron => Ron.parse? text
  | .json5 => Json5.parse? text

end Format

structure File where
  name : String
  format : Format
  text : String
  deriving DecidableEq, Repr

namespace File

def steps (name : String) : List (List Char) := (Text.splitAt '/' name.toList).filter fun p => !(p.isEmpty || p == ['.'])

def path (name : String) : String :=
  let body := ['/'].intercalate (steps name)
  String.ofList (if name.toList.head? = some '/' then '/' :: body else body)

def isFileName (name : String) : Bool :=
  (Text.splitAt '/' name.toList).getLast?.any fun p => !(p.isEmpty || p == ['.'] || p == ['.', '.'])

/-- Whether a name can be completed by an extension: it leads to something that has a name. -/
def isCompletable (name : String) : Bool := (steps name).getLast?.any (· != ['.', '.'])

/-- The extension of a name: what stands behind the last point, unless the name starts with it. -/
def extension? (name : String) : Option String :=
  let last := (steps name).getLastD []
  let extension := (Text.splitAt '.' last).getLastD []
  if extension.length + 1 < last.length then some (String.ofList extension) else none

/-- The paths at which a named file is looked for, each with its format if it has one: the name itself, and then the
name with the extensions of all formats. -/
def candidates (name : String) : List (String × Option Format) :=
  let itself := if isFileName name then [(path name, (extension? name).bind Format.ofExtension?)] else []
  let completed := Format.all.flatMap fun f => f.extensions.map fun e => (s!"{path name}.{e}", some f)
  itself ++ if isCompletable name then completed else []

def withoutMark (text : String) : String :=
  match text.toList with
  | c :: r => if c.val.toNat = 0xFEFF then String.ofList r else text
  | [] => text

def find (read : String → Option String) (name : String) : Except Error File :=
  match (candidates name).findSome? fun (path, format) => (read path).map fun text => (path, format, text) with
  | none => .error (.fileNotFound name)
  | some (_, none, _) => .error (.unknownFormat name)
  | some (path, some format, text) => .ok ⟨path, format, withoutMark text⟩

def entries (f : File) : Except Error (Entries Origin) :=
  match f.format.parse? f.text with
  | some es => .ok (Tree.remarkEntries (.file f.name) es)
  | none => .error (.malformedFile f.name)

end File

end Courier.Settings
