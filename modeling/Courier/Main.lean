import Courier.Operator
import Courier.Settings.Convert
import Courier.Settings.Load
import Courier.Store.Remote
set_option autoImplicit false

namespace Courier

def readText (path : String) : IO (Option String) := do
  try return some (← IO.FS.readFile path) catch _ => return none

def readVariables : IO (List (String × String)) := do
  let text := (← readText "/proc/self/environ").getD ""
  return (Text.splitAt (Char.ofNat 0) text.toList).map fun v =>
    let name := v.takeWhile (· != '=')
    (String.ofList name, String.ofList (v.drop (name.length + 1)))

def readSettings (file : Option String) (environment : List (String × String)) : IO (Except Settings.Error Settings) := do
  match file with
  | none => return Settings.load none environment
  | some name =>
    let texts ← (Settings.File.candidates name).filterMapM fun (path, _) => do
      return (← readText path).map fun text => (path, text)
    return (Settings.File.find (fun path => texts.lookup path) name).bind fun f => Settings.load (some f) environment

def stopText : CommandLine.Stop → String
  | .help | .nothing => "usage: hookline [--config FILE] serve | dispatch --event TYPE [--data JSON] | retry --delivery ID"
      ++ " | cleanup --days DAYS"
  | .version => "hookline 0.0.0"
  | .noCommand => "a command is missing"
  | .unknownCommand => "there is no such command"
  | .unknownArgument => "unexpected argument"
  | .missingOption => "an option is missing"
  | .missingValue => "an option has no value"
  | .needlessValue => "an option takes no value"
  | .malformedValue => "an option has a malformed value"
  | .repeated => "an option is given twice"

def perform (c : Command) (s : Settings) : String :=
  match Job.prepare c s.database with
  | .error (.data e text) => e.message text.toList
  | .error (.store e) => e.message Uuid.text
  | .ok _ =>
    match Store.Remote.run (.error .pool) fun _ => .ok () with
    | .error e => e.message Uuid.text
    | .ok () => ""

end Courier

open Courier in
def main (args : List String) : IO UInt32 := do
  let environment ← readVariables
  match CommandLine.parse args (environment.lookup "HOOKLINE_CONFIG") with
  | .error stop =>
    IO.eprintln (stopText stop)
    return if stop = .help ∨ stop = .version then 0 else 2
  | .ok c =>
    match ← readSettings c.config environment with
    | .error e => IO.eprintln e.message
    | .ok s => IO.eprintln (perform c.command s)
    return 1
