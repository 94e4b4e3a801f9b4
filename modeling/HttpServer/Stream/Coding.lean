import HttpServer.Text.Blank
import HttpServer.Text.Caseless
import HttpServer.Text.Number
import HttpServer.Text.Split

/-!
# Choosing a content coding

A client lists the codings it accepts, separated by commas and each with parameters behind
semicolons. A coding with a parameter `q=` whose number is not positive is refused. Of the codings
offered the server takes the one that comes first in its own order (`ContentCoding.preference`).

The number of a parameter is read as a binary number of single precision, so a number counts as zero
when it is at most half of the least positive one, 2⁻¹⁵⁰ (`Quality.isPositive`).
-/

namespace HttpServer

/-- A number as it is written in a parameter. -/
inductive Quality
  | notANumber
  | infinite (negative : Bool)
  /-- The number `mantissa` times ten to the power of `exponent`, with a sign. -/
  | finite (negative : Bool) (mantissa : Nat) (exponent : Int)
  deriving DecidableEq

namespace Quality

/-- Takes a sign from the front; the flag says that it is a minus sign. -/
def readSign : List Char → Bool × List Char
  | '-' :: rest => (true, rest)
  | '+' :: rest => (false, rest)
  | other => (false, other)

/-- Reads what may stand behind the digits: nothing, or an exponent. -/
def readExponent? : List Char → Option Int
  | [] => some 0
  | c :: rest =>
    let (negative, digits) := readSign rest
    if (c = 'e' ∨ c = 'E') ∧ digits ≠ [] ∧ digits.all Char.isDigit then
      some (if negative then -(ofDigits digits : Int) else ofDigits digits)
    else none

/-- Reads digits with an optional point among them, and an optional exponent. -/
def readFinite? (negative : Bool) (cs : List Char) : Option Quality :=
  let whole := cs.takeWhile Char.isDigit
  let rest := cs.dropWhile Char.isDigit
  let (fraction, rest) := match rest with
    | '.' :: rest => (rest.takeWhile Char.isDigit, rest.dropWhile Char.isDigit)
    | other => ([], other)
  if whole = [] ∧ fraction = [] then none
  else (readExponent? rest).map fun exponent =>
    .finite negative (ofDigits (whole ++ fraction)) (exponent - fraction.length)

/-- Reads a number, in letters or in digits. -/
def read? (cs : List Char) : Option Quality :=
  let (negative, body) := readSign cs
  match String.ofList (body.map Char.toLower) with
  | "inf" => some (.infinite negative)
  | "infinity" => some (.infinite negative)
  | "nan" => some .notANumber
  | _ => readFinite? negative body

/-- The positive number `mantissa` with so many decimal places is at most 2⁻¹⁵⁰. A number below
10⁻⁴⁶ is settled by the count of its digits, so that no power grows out of hand. -/
def vanishes (mantissa places : Nat) : Bool :=
  (Nat.toDigits 10 mantissa).length + 45 < places || mantissa <<< 150 ≤ Nat.pow 10 places

/-- The number is zero or below it in single precision. -/
def isRefusal : Quality → Bool
  | .notANumber => false
  | .infinite negative => negative
  | .finite negative mantissa exponent =>
    negative || mantissa == 0 || (exponent < 0 && vanishes mantissa (-exponent).toNat)

end Quality

/-- A compression scheme for response bodies. -/
inductive ContentCoding
  | gzip | deflate | brotli | zstd
  deriving DecidableEq

namespace ContentCoding

/-- The codings in the server's order, best first. -/
def preference : List ContentCoding := [.zstd, .brotli, .gzip, .deflate]

def name : ContentCoding → String
  | .gzip => "gzip"
  | .deflate => "deflate"
  | .brotli => "br"
  | .zstd => "zstd"

/-- The coding of a name, whatever its case. -/
def ofName? (token : String) : Option ContentCoding :=
  (preference.find? fun coding => sameName token coding.name).orElse fun _ =>
    if sameName token "x-gzip" then some .gzip else none

/-- A parameter refuses the coding it stands behind. -/
def isRefusal (parameter : List Char) : Bool :=
  match trim parameter with
  | 'q' :: '=' :: number => (Quality.read? (trim number)).any Quality.isRefusal
  | _ => false

/-- The coding that one element of the list offers. -/
def offered? (item : List Char) : Option ContentCoding :=
  match splitAll (· == ';') item with
  | [] => none
  | token :: parameters =>
    if parameters.any isRefusal then none else ofName? (String.ofList (trim token))

/-- The codings that a client offers, in its order. -/
def offers (accepted : String) : List ContentCoding :=
  (splitAll (· == ',') accepted.toList).filterMap offered?

/-- The best coding among those that a client offers. -/
def select (accepted : String) : Option ContentCoding :=
  preference.find? fun coding => (offers accepted).contains coding

end ContentCoding

end HttpServer
