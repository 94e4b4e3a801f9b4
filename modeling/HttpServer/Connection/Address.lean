import HttpServer.Error
import HttpServer.Text.Split

/-!
# Addresses of peers and listeners

An IPv4 address is written as four decimal numbers. An IPv6 address is written as eight hexadecimal
groups, the first longest run of two or more zero groups shortened to `::`; an IPv4 address inside
it keeps its dots. With a port, an IPv6 address stands between brackets.
-/

namespace HttpServer

inductive IpAddress
  /-- Four bytes. -/
  | v4 (bytes : List Nat)
  /-- Eight groups of sixteen bits. -/
  | v6 (groups : List Nat)
  deriving DecidableEq

/-- The address of a peer: a host and a port. -/
structure PeerAddress where
  ip : IpAddress
  port : Nat
  deriving DecidableEq

namespace IpAddress

/-- Four numbers with dots between them. -/
def renderBytes (bytes : List Nat) : String := ".".intercalate (bytes.map decimal)

/-- Groups in lower-case hexadecimal with colons between them. -/
def renderGroups (groups : List Nat) : String :=
  ":".intercalate (groups.map fun group => String.ofList (Nat.toDigits 16 group))

/-- The length of the run of zeros at the front. -/
def zeroRun (groups : List Nat) : Nat := (groups.takeWhile (· = 0)).length

/-- Where the first longest run of zeros starts, and its length. -/
def longestRun (groups : List Nat) : Nat × Nat :=
  (List.range groups.length).foldl
    (fun best start =>
      let length := zeroRun (groups.drop start)
      if best.2 < length then (start, length) else best)
    (0, 0)

def render : IpAddress → String
  | .v4 bytes => renderBytes bytes
  | .v6 groups =>
    match groups with
    | [0, 0, 0, 0, 0, 0xFFFF, high, low] =>
      "::ffff:" ++ renderBytes [high / 256, high % 256, low / 256, low % 256]
    | _ =>
      let (start, length) := longestRun groups
      if 1 < length then
        renderGroups (groups.take start) ++ "::" ++ renderGroups (groups.drop (start + length))
      else renderGroups groups

/-- Reads a decimal number below `bound` without sign. -/
def readNumber? (bound : Nat) (cs : List Char) : Option Nat :=
  if cs ≠ [] ∧ cs.all Char.isDigit ∧ ofDigits cs < bound then some (ofDigits cs) else none

def hexDigit? (c : Char) : Option Nat :=
  if c.isDigit then some (c.toNat - 0x30)
  else if 'a' ≤ c ∧ c ≤ 'f' then some (c.toNat - 0x57)
  else if 'A' ≤ c ∧ c ≤ 'F' then some (c.toNat - 0x37)
  else none

/-- Reads a group of one to four hexadecimal digits. -/
def readGroup? (cs : List Char) : Option Nat :=
  if 1 ≤ cs.length ∧ cs.length ≤ 4 then
    (cs.mapM hexDigit?).map fun digits => digits.foldl (fun value digit => value * 16 + digit) 0
  else none

/-- Reads four bytes with dots between them. -/
def readBytes? (cs : List Char) : Option (List Nat) :=
  let parts := splitAll (· == '.') cs
  if parts.length = 4 then
    parts.mapM fun part =>
      if part.length = 1 ∨ part.head? ≠ some '0' then readNumber? 256 part else none
  else none

/-- Reads groups with colons between them; the last part may be four bytes. -/
def readGroups? : List (List Char) → Option (List Nat)
  | [] => some []
  | [last] =>
    match readBytes? last with
    | some [a, b, c, d] => some [a * 256 + b, c * 256 + d]
    | _ => (readGroup? last).map ([·])
  | part :: parts => do
    let group ← readGroup? part
    let groups ← readGroups? parts
    some (group :: groups)

/-- Cuts a text at the first double colon. -/
def splitGap? : List Char → Option (List Char × List Char)
  | ':' :: ':' :: rest => some ([], rest)
  | [] => none
  | c :: rest => (splitGap? rest).map fun (before, after) => (c :: before, after)

/-- Reads the groups of a text that may be empty. -/
def readSide? (cs : List Char) : Option (List Nat) :=
  if cs = [] then some [] else readGroups? (splitAll (· == ':') cs)

def readV6? (cs : List Char) : Option IpAddress :=
  match splitGap? cs with
  | some (before, after) => do
    let left ← readSide? before
    let right ← readSide? after
    if left.length + right.length < 8 then
      some (.v6 (left ++ List.replicate (8 - left.length - right.length) 0 ++ right))
    else none
  | none => (readSide? cs).bind fun groups =>
    if groups.length = 8 then some (.v6 groups) else none

end IpAddress

namespace PeerAddress

def render (a : PeerAddress) : String :=
  match a.ip with
  | .v4 _ => a.ip.render ++ ":" ++ decimal a.port
  | .v6 _ => "[" ++ a.ip.render ++ "]:" ++ decimal a.port

/-- Cuts a text at its last colon. -/
def splitPort? (cs : List Char) : Option (List Char × List Char) :=
  (splitFirst? (· == ':') cs.reverse).map fun (port, host) => (host.reverse, port.reverse)

def read? (text : String) : Option PeerAddress := do
  let (host, portText) ← splitPort? text.toList
  let port ← IpAddress.readNumber? 65536 portText
  match host with
  | '[' :: rest =>
    if rest.getLast? = some ']' then
      (IpAddress.readV6? rest.dropLast).map fun ip => { ip, port }
    else none
  | _ => (IpAddress.readBytes? host).map fun bytes => { ip := .v4 bytes, port }

/-- Checks that a listener's address has the form of a host with a port. -/
def check (text : String) : Except IoError Unit :=
  match splitPort? text.toList with
  | none => .error ⟨.invalidInput, some "invalid socket address"⟩
  | some (_, port) =>
    match readLength? port with
    | some number =>
      if number < 65536 then .ok () else .error ⟨.invalidInput, some "invalid port value"⟩
    | none => .error ⟨.invalidInput, some "invalid port value"⟩

end PeerAddress

end HttpServer
