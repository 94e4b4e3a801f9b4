import HttpServer.Text.Utf8

/-!
# Base 64

Three bytes are written as four characters of the standard alphabet; a last group of one or two
bytes is padded with `=`. Reading is strict: the padding must be there, the bits it leaves over must
be zero and nothing else may occur, so each byte string has exactly one written form.
-/

namespace HttpServer.Base64

open HttpServer

/-- The character for a number below 64. -/
def letter (n : Nat) : Char :=
  if n < 26 then Char.ofNat (0x41 + n)
  else if n < 52 then Char.ofNat (0x61 + (n - 26))
  else if n < 62 then Char.ofNat (0x30 + (n - 52))
  else if n = 62 then '+'
  else '/'

/-- The number that a character of the alphabet stands for. -/
def value? (c : Char) : Option Nat :=
  if c.isUpper then some (c.toNat - 0x41)
  else if c.isLower then some (c.toNat - 0x61 + 26)
  else if c.isDigit then some (c.toNat - 0x30 + 52)
  else if c = '+' then some 62
  else if c = '/' then some 63
  else none

def encode : Bytes → List Char
  | [] => []
  | [a] => [letter (a.toNat / 4), letter (a.toNat % 4 * 16), '=', '=']
  | [a, b] =>
    [letter (a.toNat / 4), letter (a.toNat % 4 * 16 + b.toNat / 16), letter (b.toNat % 16 * 4), '=']
  | a :: b :: c :: rest =>
    letter (a.toNat / 4) :: letter (a.toNat % 4 * 16 + b.toNat / 16) ::
      letter (b.toNat % 16 * 4 + c.toNat / 64) :: letter (c.toNat % 64) :: encode rest

/-- The bytes of the last group, which may be padded. -/
def decodeLast (w x y z : Char) : Option Bytes := do
  let a ← value? w
  let b ← value? x
  if y = '=' then
    if z = '=' ∧ b % 16 = 0 then some [(a * 4 + b / 16).toUInt8] else none
  else
    let c ← value? y
    if z = '=' then
      if c % 4 = 0 then some [(a * 4 + b / 16).toUInt8, (b % 16 * 16 + c / 4).toUInt8] else none
    else
      let d ← value? z
      some [(a * 4 + b / 16).toUInt8, (b % 16 * 16 + c / 4).toUInt8, (c % 4 * 64 + d).toUInt8]

/-- The byte string of a written form, `none` if the text is not one. -/
def decode : List Char → Option Bytes
  | [] => some []
  | [w, x, y, z] => decodeLast w x y z
  | w :: x :: y :: z :: rest => do
    let a ← value? w
    let b ← value? x
    let c ← value? y
    let d ← value? z
    let bytes ← decode rest
    some ((a * 4 + b / 16).toUInt8 :: (b % 16 * 16 + c / 4).toUInt8 :: (c % 4 * 64 + d).toUInt8 ::
      bytes)
  | _ => none

end HttpServer.Base64
