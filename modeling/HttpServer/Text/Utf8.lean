/-!
# Text on the wire

Bytes are read as UTF-8 in pieces: `Utf8.pieces` cuts a byte string into characters and into the
longest stretches that cannot belong to any character. Strict reading (`Utf8.decode`) fails at the
first such stretch and says where it stands; lenient reading (`Utf8.decodeLossy`) puts the
replacement character in its place. `Utf8.encode` is the way back.
-/

namespace HttpServer

/-- A string of bytes, as the wire carries it. -/
abbrev Bytes := List UInt8

namespace Utf8

/-- The bytes of one character: one below U+0080, two below U+0800, three below U+10000, four
otherwise. -/
def encodeChar (c : Char) : Bytes :=
  let n := c.toNat
  if n < 0x80 then [n.toUInt8]
  else if n < 0x800 then [(0xC0 + n / 64).toUInt8, (0x80 + n % 64).toUInt8]
  else if n < 0x10000 then
    [(0xE0 + n / 4096).toUInt8, (0x80 + n / 64 % 64).toUInt8, (0x80 + n % 64).toUInt8]
  else
    [(0xF0 + n / 262144).toUInt8, (0x80 + n / 4096 % 64).toUInt8, (0x80 + n / 64 % 64).toUInt8,
      (0x80 + n % 64).toUInt8]

def encode (cs : List Char) : Bytes := cs.flatMap encodeChar

/-- What the first byte of a longer character announces. -/
structure Lead where
  /-- The bits of the character that the first byte carries. -/
  bits : Nat
  /-- How many bytes follow the second one. -/
  more : Nat
  /-- The least second byte; it rules out spellings longer than needed. -/
  low : Nat
  /-- The greatest second byte; it rules out surrogates and numbers that are too large. -/
  high : Nat

/-- The announcement of a byte of 0x80 and above, `none` if no character starts with it. -/
def Lead.ofByte? (b : Nat) : Option Lead :=
  if b < 0xC2 then none
  else if b < 0xE0 then some ⟨b - 0xC0, 0, 0x80, 0xBF⟩
  else if b = 0xE0 then some ⟨0, 1, 0xA0, 0xBF⟩
  else if b = 0xED then some ⟨13, 1, 0x80, 0x9F⟩
  else if b < 0xF0 then some ⟨b - 0xE0, 1, 0x80, 0xBF⟩
  else if b = 0xF0 then some ⟨0, 2, 0x90, 0xBF⟩
  else if b < 0xF4 then some ⟨b - 0xF0, 2, 0x80, 0xBF⟩
  else if b = 0xF4 then some ⟨4, 2, 0x80, 0x8F⟩
  else none

/-- What stands at the front of a byte string, with the bytes behind it. -/
inductive Front
  | char (c : Char) (rest : Bytes)
  /-- So many bytes that belong to no character. -/
  | malformed (width : Nat) (rest : Bytes)
  /-- The start of a character whose end is missing. -/
  | truncated

/-- Reads `more` continuation bytes on top of the bits gathered so far. -/
def continued (bits width : Nat) : Nat → Bytes → Front
  | 0, bs => .char (Char.ofNat bits) bs
  | _ + 1, [] => .truncated
  | more + 1, b :: bs =>
    if 0x80 ≤ b.toNat ∧ b.toNat ≤ 0xBF then
      continued (bits * 64 + (b.toNat - 0x80)) (width + 1) more bs
    else .malformed width (b :: bs)

/-- What the non-empty byte string `b :: bs` starts with. -/
def front (b : UInt8) (bs : Bytes) : Front :=
  if b.toNat < 0x80 then .char (Char.ofNat b.toNat) bs
  else match Lead.ofByte? b.toNat, bs with
    | none, bs => .malformed 1 bs
    | some _, [] => .truncated
    | some lead, second :: bs =>
      if lead.low ≤ second.toNat ∧ second.toNat ≤ lead.high then
        continued (lead.bits * 64 + (second.toNat - 0x80)) 2 lead.more bs
      else .malformed 1 (second :: bs)

/-- The bytes behind the front, none if it is cut short. -/
def Front.rest : Front → Bytes
  | .char _ rest => rest
  | .malformed _ rest => rest
  | .truncated => []

theorem rest_continued_length (bits width more : Nat) (bs : Bytes) :
    (continued bits width more bs).rest.length ≤ bs.length := by
  induction more generalizing bits width bs with
  | zero => exact Nat.le_refl _
  | succ more ih =>
    cases bs with
    | nil => exact Nat.le_refl _
    | cons b bs =>
      unfold continued
      split
      · exact Nat.le_trans (ih _ _ _) (Nat.le_succ _)
      · exact Nat.le_refl _

theorem rest_front_length (b : UInt8) (bs : Bytes) : (front b bs).rest.length ≤ bs.length := by
  unfold front
  split
  · exact Nat.le_refl _
  · split
    · exact Nat.le_refl _
    · exact Nat.le_refl _
    · split
      · exact Nat.le_trans (rest_continued_length _ _ _ _) (Nat.le_succ _)
      · exact Nat.le_refl _

/-- A stretch of a byte string: a character, or bytes that belong to none. -/
inductive Piece
  | char (c : Char)
  | malformed (width : Nat)
  | truncated
  deriving DecidableEq

/-- A byte string cut into its pieces, from the front. -/
def pieces : Bytes → List Piece
  | [] => []
  | b :: bs =>
    match _h : front b bs with
    | .char c rest => .char c :: pieces rest
    | .malformed width rest => .malformed width :: pieces rest
    | .truncated => [.truncated]
termination_by bs => bs.length
decreasing_by
  all_goals
    have hrest := rest_front_length b bs
    rw [‹front b bs = _›] at hrest
    exact Nat.lt_succ_of_le hrest

/-- Where a byte string stops being text. -/
structure Error where
  /-- How many bytes of text come first. -/
  index : Nat
  /-- The length of the stretch that is no text, `none` if the end came inside a character. -/
  width : Option Nat
  deriving DecidableEq

/-- The text of pieces that are all characters; `index` bytes come before them. -/
def collect (index : Nat) : List Piece → Except Error (List Char)
  | [] => .ok []
  | .char c :: rest => (collect (index + (encodeChar c).length) rest).map (c :: ·)
  | .malformed width :: _ => .error ⟨index, some width⟩
  | .truncated :: _ => .error ⟨index, none⟩

/-- The text of a byte string, or where it stops being text. -/
def decode (bs : Bytes) : Except Error (List Char) := collect 0 (pieces bs)

/-- The character that stands for what could not be read. -/
def replacement : Char := '\uFFFD'

/-- The text of a byte string, with the replacement character for each stretch that is none. -/
def decodeLossy (bs : Bytes) : List Char :=
  (pieces bs).map fun
    | .char c => c
    | _ => replacement

def Error.message (e : Error) : String :=
  match e.width with
  | some width =>
    "invalid utf-8 sequence of " ++ toString width ++ " bytes from index " ++ toString e.index
  | none => "incomplete utf-8 byte sequence from index " ++ toString e.index

def ofString (s : String) : Bytes := encode s.toList

/-- The string a byte string spells, or where it stops being text. -/
def toStringStrict (bs : Bytes) : Except Error String := (decode bs).map String.ofList

/-- The string a byte string spells, with the replacement character for what is no text. -/
def toStringLossy (bs : Bytes) : String := String.ofList (decodeLossy bs)

end Utf8

end HttpServer
