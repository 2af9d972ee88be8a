import Courier.Decimal.Digits
import Courier.Url.Address
set_option autoImplicit false

namespace Courier

inductive Url.Host where
  | domain (name : List Char)
  | address32 (n : Nat)
  | address128 (groups : List Nat)
  deriving DecidableEq, Repr

def Url.Host.chars : Url.Host → List Char
  | .domain name => name
  | .address32 n => Url.address32Text n
  | .address128 groups => Url.address128Text groups

structure Url where
  scheme : List Char
  user : List Char := []
  password : List Char := []
  host : Option Url.Host := none
  port : Option Nat := none
  path : List Char := []
  query : Option (List Char) := none
  fragment : Option (List Char) := none
  deriving DecidableEq, Repr

namespace Url

inductive Fault where
  | relative
  | emptyHost
  | domain
  | port
  | address32
  | address128
  | hostCharacter
  deriving DecidableEq, Repr

def Fault.message : Fault → String
  | .relative => "relative URL without a base"
  | .emptyHost => "empty host"
  | .domain => "invalid international domain name"
  | .port => "invalid port number"
  | .address32 => "invalid IPv4 address"
  | .address128 => "invalid IPv6 address"
  | .hostCharacter => "invalid domain character"

inductive Family where
  | hosted
  | file
  | other
  deriving DecidableEq, Repr

def familyOf (scheme : List Char) : Family :=
  let s := String.ofList scheme
  if s = "file" then .file
  else if s = "http" ∨ s = "https" ∨ s = "ws" ∨ s = "wss" ∨ s = "ftp" then .hosted
  else .other

def Family.isSpecial (f : Family) : Bool := f != .other

def defaultPort? (scheme : List Char) : Option Nat :=
  let s := String.ofList scheme
  if s = "http" ∨ s = "ws" then some 80
  else if s = "https" ∨ s = "wss" then some 443
  else if s = "ftp" then some 21
  else none

def userChars (u : Url) : List Char :=
  if u.user.isEmpty ∧ u.password.isEmpty then []
  else u.user ++ (if u.password.isEmpty then [] else ':' :: u.password) ++ ['@']

def authorityChars (u : Url) : List Char :=
  match u.host with
  | some h =>
    '/' :: '/' :: (u.userChars ++ h.chars ++ (match u.port with | some p => ':' :: Nat.toDigits 10 p | none => []))
  | none =>
    if familyOf u.scheme = .file then ['/', '/']
    else if u.path.take 2 = ['/', '/'] then ['/', '.']
    else []

def chars (u : Url) : List Char :=
  u.scheme ++ ':' :: u.authorityChars ++ u.path
    ++ (match u.query with | some q => '?' :: q | none => [])
    ++ (match u.fragment with | some f => '#' :: f | none => [])

def anonymous (u : Url) : Url := { u with user := [], password := [] }

end Url

end Courier
