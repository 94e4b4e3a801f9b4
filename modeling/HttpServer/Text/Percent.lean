import HttpServer.Text.Utf8

/-!
# Percent-encoding

A percent sign followed by two hexadecimal digits stands for one byte (`Percent.decode`); any other
percent sign stands for itself. A path is decoded as a whole or, if its bytes are then no text, kept
as it came (`Percent.decodeText`). `Percent.encode` writes chosen bytes by number, and forms also
write the space as a plus sign.
-/

namespace HttpServer.Percent

open HttpServer

/-- The value of a hexadecimal digit, given as a byte. -/
def digit? (b : UInt8) : Option Nat :=
  let n := b.toNat
  if 0x30 ≤ n ∧ n ≤ 0x39 then some (n - 0x30)
  else if 0x41 ≤ n ∧ n ≤ 0x46 then some (n - 0x37)
  else if 0x61 ≤ n ∧ n ≤ 0x66 then some (n - 0x57)
  else none

/-- The byte that two hexadecimal digits spell. -/
def byte? (high low : UInt8) : Option UInt8 := do
  let h ← digit? high
  let l ← digit? low
  some (h * 16 + l).toUInt8

def sign : UInt8 := 0x25

/-- Replaces each percent sign with two digits behind it by the byte they spell. -/
def decode : Bytes → Bytes
  | b :: high :: low :: rest =>
    if b = sign then
      match byte? high low with
      | some byte => byte :: decode rest
      | none => b :: decode (high :: low :: rest)
    else b :: decode (high :: low :: rest)
  | bs => bs

/-- The decoded text, or the text as it is if the decoded bytes are no text. -/
def decodeText (s : String) : String :=
  match Utf8.toStringStrict (decode (Utf8.ofString s)) with
  | .ok decoded => decoded
  | .error _ => s

/-- The upper-case hexadecimal digit of a number below sixteen. -/
def digit (n : Nat) : UInt8 := (if n < 10 then 0x30 + n else 0x37 + n).toUInt8

/-- Writes a byte by its number. -/
def encodeByte (b : UInt8) : Bytes := [sign, digit (b.toNat / 16), digit (b.toNat % 16)]

/-- Writes the chosen bytes by their number and all others as they are. -/
def encode (chosen : UInt8 → Bool) (bs : Bytes) : Bytes :=
  bs.flatMap fun b => if chosen b then encodeByte b else [b]

end HttpServer.Percent
