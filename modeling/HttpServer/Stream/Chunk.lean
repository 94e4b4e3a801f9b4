import HttpServer.Text.Number
import HttpServer.Text.Utf8

/-!
# Chunked framing

A body of unknown length is sent in chunks: the size in upper-case hexadecimal, a line end, so many
bytes and a line end again. A chunk of size zero ends the body, so empty data is never framed as a
chunk, and nothing is written after the end. `Chunk.decode` is the reader's side: it gathers the
bytes of the chunks up to the end of the body.
-/

namespace HttpServer

/-- What a body consists of: data, held in one or more segments, and the end. -/
inductive BodyPart
  | data (segments : List Bytes)
  | last

namespace BodyPart

/-- How many bytes the segments hold. -/
def size (segments : List Bytes) : Nat := segments.flatten.length

/-- The segment that is there to be copied: the first one that holds anything. -/
def current (segments : List Bytes) : Bytes := (segments.find? (· ≠ [])).getD []

end BodyPart

def chunkLineEnd : Bytes := [0x0D, 0x0A]

/-- The chunk that ends a body, with the line end behind it. -/
def lastChunk : Bytes := [0x30, 0x0D, 0x0A, 0x0D, 0x0A]

/-- A chunk that announces `size` bytes and holds the bytes `data`. -/
def chunk (size : Nat) (data : Bytes) : Bytes :=
  Utf8.ofString (hexadecimal size) ++ chunkLineEnd ++ data ++ chunkLineEnd

/-- How far the framing of a body got. -/
structure ChunkEncoder where
  finished : Bool := false
  /-- How many bytes of data have been announced. -/
  sentSize : Nat := 0
  deriving DecidableEq

/-- Frames one part of a body; the bytes go to the wire. -/
def ChunkEncoder.encode (e : ChunkEncoder) (part : BodyPart) : ChunkEncoder × Bytes :=
  if e.finished then (e, [])
  else match part with
    | .last => ({ e with finished := true }, lastChunk)
    | .data segments =>
      let size := BodyPart.size segments
      if size = 0 then (e, [])
      else ({ e with sentSize := e.sentSize + size }, chunk size (BodyPart.current segments))

namespace Chunk

/-- The value of an upper-case hexadecimal digit. -/
def digit? (b : UInt8) : Option Nat :=
  let n := b.toNat
  if 0x30 ≤ n ∧ n ≤ 0x39 then some (n - 0x30)
  else if 0x41 ≤ n ∧ n ≤ 0x46 then some (n - 0x37)
  else none

/-- Reads the digits of a size on top of the value gathered so far, up to the line end. -/
def readSize (value : Nat) : Bytes → Option (Nat × Bytes)
  | 0x0D :: 0x0A :: rest => some (value, rest)
  | [] => none
  | b :: rest => (digit? b).bind fun digit => readSize (value * 16 + digit) rest

/-- Reads the data of a chunk of the given size and the line end behind it. -/
def readData (size : Nat) (bs : Bytes) : Option (Bytes × Bytes) :=
  if bs.length < size then none
  else match bs.drop size with
    | 0x0D :: 0x0A :: rest => some (bs.take size, rest)
    | _ => none

theorem length_readSize {value size : Nat} {bs rest : Bytes}
    (h : readSize value bs = some (size, rest)) : rest.length < bs.length := by
  fun_induction readSize value bs with
  | case1 value rest' =>
    cases h
    simp only [List.length_cons]
    omega
  | case2 => cases h
  | case3 value b rest' _ ih =>
    obtain ⟨digit, _, hread⟩ := Option.bind_eq_some_iff.1 h
    exact Nat.lt_succ_of_lt (ih _ hread)

theorem length_readData {size : Nat} {bs data rest : Bytes}
    (h : readData size bs = some (data, rest)) : rest.length < bs.length := by
  unfold readData at h
  split at h
  · cases h
  · split at h
    · rename_i hdrop
      cases h
      have := congrArg List.length hdrop
      simp only [List.length_drop, List.length_cons] at this
      omega
    · cases h

/-- The data of a chunked body and the bytes behind its end; `none` if it is not framed
completely. -/
def decode (bs : Bytes) : Option (Bytes × Bytes) :=
  match hsize : readSize 0 bs with
  | none => none
  | some (size, afterSize) =>
    match hdata : readData size afterSize with
    | none => none
    | some (data, rest) =>
      if size = 0 then some ([], rest)
      else
        have := length_readSize hsize
        have := length_readData hdata
        (decode rest).map fun (later, behind) => (data ++ later, behind)
termination_by bs.length

end Chunk

end HttpServer
