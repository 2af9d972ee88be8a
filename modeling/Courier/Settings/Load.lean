import Courier.Settings.Format
import Courier.Settings.Sections
set_option autoImplicit false

namespace Courier.Settings

def variablePrefix : String := "hookline__"

def pointed : List Char → List Char
  | '_' :: '_' :: r => '.' :: pointed r
  | c :: r => c :: pointed r
  | [] => []

def ofVariable (v : String × String) : Option (String × Tree Origin) :=
  let name := (Text.lower v.1).toList
  let start := variablePrefix.toList
  if start.isPrefixOf name then
    some (String.ofList (pointed (name.drop start.length)), .leaf .environment (.text v.2))
  else none

def add (t : Tree Origin) (es : Entries Origin) : Except Error (Tree Origin) :=
  es.foldlM (fun t e =>
    match Tree.set? .builtIn e.2 (Place.ofName e.1) t with
    | some t => .ok t
    | none => .error (.beforeFirst e.1)) t

def load (file : Option File) (environment : List (String × String)) : Except Error Settings := do
  let t := standard.toTree
  let t ← match file with
    | none => .ok t
    | some f => add t (← f.entries)
  ofTree (← add t (environment.filterMap ofVariable))

end Courier.Settings
