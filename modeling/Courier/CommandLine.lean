import Courier.Bounded
import Courier.Decimal.Parse
import Courier.Uuid
set_option autoImplicit false

namespace Courier

inductive Command where
  | serve
  | dispatch (event data : String)
  | retry (delivery : Uuid)
  | cleanup (days : Word64)
  deriving DecidableEq, Repr

structure CommandLine where
  config : Option String
  command : Command
  deriving DecidableEq, Repr

namespace CommandLine

inductive Stop where
  | help
  | version
  | nothing
  | noCommand
  | unknownCommand
  | unknownArgument
  | missingOption
  | missingValue
  /-- A value for an option that takes none. -/
  | needlessValue
  | malformedValue
  | repeated
  deriving DecidableEq, Repr

inductive Flag where
  | config
  | event
  | data
  | delivery
  | days
  deriving DecidableEq, Repr

def Flag.name : Flag → String
  | .config => "config"
  | .event => "event"
  | .data => "data"
  | .delivery => "delivery"
  | .days => "days"

def delivery? (s : String) : Option Uuid := Uuid.ofText? s

def days? (s : String) : Option Word64 := (Decimal.integer? s.toList).bind Bounded.ofInt?

def Flag.accepts (f : Flag) (s : String) : Bool :=
  match f with
  | .delivery => (delivery? s).isSome
  | .days => (days? s).isSome
  | _ => true

inductive Verb where
  | serve
  | dispatch
  | retry
  | cleanup
  deriving DecidableEq, Repr

def verb? (s : String) : Option Verb :=
  [("serve", Verb.serve), ("dispatch", .dispatch), ("retry", .retry), ("cleanup", .cleanup)].lookup s

def flagsOf : Option Verb → List Flag
  | none => [.config]
  | some .serve => [.config]
  | some .dispatch => [.config, .event, .data]
  | some .retry => [.config, .delivery]
  | some .cleanup => [.config, .days]

/-! ### Options -/

/-- The options read so far: those with values that are settled, and the last one, perhaps still without its value. -/
structure Given where
  settled : List (Flag × String)
  pending : Option (Flag × Option String)
  deriving DecidableEq, Repr

namespace Given

def empty : Given := ⟨[], none⟩

/-- Settles an option. An option may be given once, and its value must be one. -/
def settle (g : Given) (f : Flag) (v : String) : Except Stop Given :=
  if (g.settled.lookup f).isSome then .error .repeated
  else if f.accepts v then .ok ⟨(f, v) :: g.settled, none⟩
  else .error .malformedValue

def resolve (g : Given) : Except Stop Given :=
  match g.pending with
  | none => .ok g
  | some (_, none) => .error .missingValue
  | some (f, some v) => g.settle f v

def waiting? (g : Given) : Option Flag :=
  match g.pending with
  | some (f, none) => some f
  | _ => none

end Given

/-- Stops for help or the version, once the options before are in order. -/
def stopFor {α : Type} (g : Given) (reason : Stop) : Except Stop α := g.resolve.bind fun _ => .error reason

def splitLong (s : List Char) : String × Option String :=
  let name := s.takeWhile (· != '=')
  (String.ofList name, match s.drop name.length with
    | _ :: v => some (String.ofList v)
    | [] => none)

def takeLong (flags : List Flag) (g : Given) (s : List Char) : Except Stop Given :=
  let (name, value) := splitLong s
  match flags.find? (·.name == name), value with
  | some f, some v => g.resolve.bind fun g => g.settle f v
  | some f, none => g.resolve.map fun g => { g with pending := some (f, none) }
  | none, none =>
    if name = "help" then stopFor g .help else if name = "version" then stopFor g .version else .error .unknownArgument
  | none, some _ => .error (if name = "help" ∨ name = "version" then .needlessValue else .unknownArgument)

def takeShort {α : Type} (g : Given) (s : List Char) : Except Stop α :=
  match s with
  | 'h' :: _ => stopFor g .help
  | 'V' :: _ => stopFor g .version
  | _ => .error .unknownArgument

def helpOn (isTop : Bool) : List String → Stop
  | [] => .help
  | a :: r => if isTop && ((verb? a).isSome || a == "help") then helpOn false r else .unknownCommand

/-- What an argument is that is neither an option nor a value. Behind two hyphens, a command is one too late. -/
def misplaced (isTop behind : Bool) (a : String) : Stop :=
  if isTop && !(behind && ((verb? a).isSome || a == "help")) then .unknownCommand else .unknownArgument

/-- Reads the options of a level. At the top, a command ends it, with the arguments behind. `behind` says whether two
hyphens alone came before, behind which nothing is an option. -/
def scan (flags : List Flag) (isTop behind : Bool) (g : Given) :
    List String → Except Stop (Given × Option (Verb × List String))
  | [] => .ok (g, none)
  | a :: r =>
    if behind then .error (misplaced isTop true a)
    else if isTop ∧ g.waiting? = none ∧ a = "help" then .error (helpOn true r)
    else match if isTop ∧ g.waiting? = none then verb? a else none with
      | some v => .ok (g, some (v, r))
      | none =>
        match a.toList with
        | ['-', '-'] => scan flags isTop true g r
        | '-' :: '-' :: s => (takeLong flags g s).bind fun g => scan flags isTop false g r
        | '-' :: c :: s => takeShort g (c :: s)
        | _ =>
          match g.waiting? with
          | some f => scan flags isTop false { g with pending := some (f, some a) } r
          | none => .error (misplaced isTop false a)

/-! ### Commands -/

def commandOf (v : Verb) (values : List (Flag × String)) : Except Stop Command :=
  match v with
  | .serve => .ok .serve
  | .dispatch =>
    match values.lookup .event with
    | none => .error .missingOption
    | some e => .ok (.dispatch e ((values.lookup .data).getD "\x7b\x7d"))
  | .retry =>
    match values.lookup .delivery with
    | none => .error .missingOption
    | some s =>
      match delivery? s with
      | some id => .ok (.retry id)
      | none => .error .malformedValue
  | .cleanup =>
    match values.lookup .days with
    | none => .error .missingOption
    | some s =>
      match days? s with
      | some n => .ok (.cleanup n)
      | none => .error .malformedValue

/-- The file of settings: the one named behind the command, or before it, or in the environment. -/
def configOf (inner outer : List (Flag × String)) (fallback : Option String) : Option String :=
  (inner.lookup .config).or ((outer.lookup .config).or fallback)

/-- Reads the arguments behind the name of the program; `fallback` is the file of settings that the environment names,
if any. -/
def parse (args : List String) (fallback : Option String) : Except Stop CommandLine := do
  let (outer, rest) ← scan (flagsOf none) true false .empty args
  match rest with
  | none =>
    let outer ← outer.resolve
    .error (if outer.settled.isEmpty && fallback.isNone then .nothing else .noCommand)
  | some (v, r) =>
    let (inner, _) ← scan (flagsOf (some v)) false false .empty r
    let inner ← inner.resolve
    let command ← commandOf v inner.settled
    let outer ← outer.resolve
    .ok ⟨configOf inner.settled outer.settled fallback, command⟩

end CommandLine

end Courier
