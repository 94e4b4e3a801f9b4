/-!
# Numbers in header fields

Lengths are written in decimal and chunk sizes in upper-case hexadecimal. A length is read as a
decimal number of at most 64 bits, with an optional plus sign and nothing else around the digits.
-/

namespace HttpServer

/-- The number that decimal digits spell, most significant first. -/
def ofDigits (digits : List Char) : Nat :=
  digits.foldl (fun value c => value * 10 + (c.toNat - '0'.toNat)) 0

/-- The least number that takes more than 64 bits. -/
def wordBound : Nat := 1 <<< 64

/-- Reads a number of at most 64 bits: an optional plus sign and at least one digit. -/
def readLength? (cs : List Char) : Option Nat :=
  let digits := match cs with
    | '+' :: rest => rest
    | other => other
  if digits ≠ [] ∧ digits.all Char.isDigit ∧ ofDigits digits < wordBound then some (ofDigits digits)
  else none

def decimal (n : Nat) : String := String.ofList (Nat.toDigits 10 n)

/-- The upper-case hexadecimal form of a number. -/
def hexadecimal (n : Nat) : String := String.ofList ((Nat.toDigits 16 n).map Char.toUpper)

end HttpServer
