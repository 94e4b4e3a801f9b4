import HttpServer.Text.Percent

/-!
# Form-encoded pairs

A query is a list of `name=value` pairs joined by `&`. `Form.decode` reads it: empty pairs are
skipped, a pair without `=` has the empty value, a plus sign is a space and percent-encoded bytes
are decoded, leniently where they spell no text. `Form.encode` writes pairs in that form.
-/

namespace HttpServer.Form

open HttpServer

/-- A plus sign is a space. -/
def plusToSpace (b : UInt8) : UInt8 := if b = 0x2B then 0x20 else b

/-- The text of one name or value. -/
def decodePart (bs : Bytes) : String :=
  Utf8.toStringLossy (Percent.decode (bs.map plusToSpace))

/-- Cuts a byte string at every ampersand. -/
def pairs : Bytes → List Bytes
  | [] => [[]]
  | b :: bs =>
    if b = 0x26 then [] :: pairs bs
    else match pairs bs with
      | [] => [[b]]
      | first :: rest => (b :: first) :: rest

/-- The parts of a pair before and after its first equals sign. -/
def decodePair (bs : Bytes) : String × String :=
  (decodePart (bs.takeWhile (· ≠ 0x3D)), decodePart ((bs.dropWhile (· ≠ 0x3D)).drop 1))

/-- The pairs of a query, in order. -/
def decode (query : String) : List (String × String) :=
  ((pairs (Utf8.ofString query)).filter (· ≠ [])).map decodePair

/-- The bytes that a form writes by number: all but letters, digits and `*-._`. -/
def isWrittenByNumber (b : UInt8) : Bool :=
  let n := b.toNat
  !((0x30 ≤ n && n ≤ 0x39) || (0x41 ≤ n && n ≤ 0x5A) || (0x61 ≤ n && n ≤ 0x7A) ||
    n == 0x2A || n == 0x2D || n == 0x2E || n == 0x5F)

/-- One name or value, written so that it holds no separator. -/
def encodePart (s : String) : Bytes :=
  (Utf8.ofString s).flatMap fun b =>
    if b = 0x20 then [0x2B] else if isWrittenByNumber b then Percent.encodeByte b else [b]

/-- Joins pairs with ampersands. -/
def encode : List (String × String) → Bytes
  | [] => []
  | [(name, value)] => encodePart name ++ 0x3D :: encodePart value
  | (name, value) :: rest => encodePart name ++ 0x3D :: encodePart value ++ 0x26 :: encode rest

end HttpServer.Form
