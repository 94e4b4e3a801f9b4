import HttpServer.Stream.Chunk

/-!
# Chunked framing can be undone

The size of a chunk reads back as the number that was written (`Chunk.readSize_hexadecimal`), so a
chunk that announces exactly the bytes it holds is read as these bytes, whatever follows it
(`Chunk.decode_chunk_append`). A body of such chunks is decoded to their concatenation, and reading
stops right behind its end (`Chunk.decode_chunks`).
-/

namespace HttpServer

namespace Chunk

/-- The byte of an upper-case hexadecimal digit. -/
def digitByte (digit : Nat) : Bytes := Utf8.encodeChar (Nat.digitChar digit).toUpper

/-- A digit is written as one byte, and read back from it. -/
theorem exists_digitByte {digit : Nat} (h : digit < 16) :
    ∃ b, digitByte digit = [b] ∧ digit? b = some digit := by
  have all : ∀ d : Fin 16, ∃ b, digitByte d.val = [b] ∧ digit? b = some d.val := by
    intro d
    refine ⟨(digitByte d.val).headD 0, ?_⟩
    revert d
    decide
  exact all ⟨digit, h⟩

/-- A number below sixteen is written as its only digit. -/
theorem ofString_hexadecimal_of_lt {n : Nat} (h : n < 16) :
    Utf8.ofString (hexadecimal n) = digitByte n := by
  simp [Utf8.ofString, Utf8.encode, hexadecimal, digitByte, Nat.toDigits_of_lt_base h]

/-- The last digit of any other stands behind those of its sixteenth. -/
theorem ofString_hexadecimal_of_le {n : Nat} (h : 16 ≤ n) :
    Utf8.ofString (hexadecimal n) =
      Utf8.ofString (hexadecimal (n / 16)) ++ digitByte (n % 16) := by
  simp [Utf8.ofString, Utf8.encode, hexadecimal, digitByte, Nat.toDigits_of_base_le (by decide) h]

/-- Reading a digit puts it behind those that were read. -/
theorem readSize_digitByte {digit : Nat} (h : digit < 16) (value : Nat) (rest : Bytes) :
    readSize value (digitByte digit ++ rest) = readSize (value * 16 + digit) rest := by
  obtain ⟨b, hb, hdigit⟩ := exists_digitByte h
  rw [hb, List.singleton_append, readSize]
  · simp [hdigit]
  · rintro _ rfl
    simp [digit?] at hdigit

/-- **The size of a chunk reads back**, by induction on the number: its last digit is read last. -/
theorem readSize_hexadecimal (n : Nat) (rest : Bytes) :
    readSize 0 (Utf8.ofString (hexadecimal n) ++ rest) = readSize n rest := by
  induction n using Nat.strongRecOn generalizing rest with
  | ind n ih =>
      by_cases h : n < 16
      · rw [ofString_hexadecimal_of_lt h, readSize_digitByte h, Nat.zero_mul, Nat.zero_add]
      · have hlt : n / 16 < n := by omega
        have hmod : n % 16 < 16 := Nat.mod_lt _ (by decide)
        rw [ofString_hexadecimal_of_le (by omega), List.append_assoc, ih _ hlt,
          readSize_digitByte hmod, Nat.div_add_mod']

theorem readSize_lineEnd (value : Nat) (rest : Bytes) :
    readSize value (chunkLineEnd ++ rest) = some (value, rest) := rfl

/-- As many bytes as the size says are read back, up to the line end behind them. -/
theorem readData_append (data rest : Bytes) :
    readData data.length (data ++ (chunkLineEnd ++ rest)) = some (data, rest) := by
  simp [readData, chunkLineEnd]

/-- A chunk that holds what it announces is read as its data, and reading goes on behind it. -/
theorem decode_chunk_append {data : Bytes} (h : data ≠ []) (rest : Bytes) :
    decode (chunk data.length data ++ rest) =
      (decode rest).map fun body => (data ++ body.1, body.2) := by
  have hsize : readSize 0 (chunk data.length data ++ rest) =
      some (data.length, data ++ (chunkLineEnd ++ rest)) := by
    simp only [chunk, List.append_assoc, readSize_hexadecimal, readSize_lineEnd]
  rw [decode]
  split
  · simp_all
  · rename_i size afterSize hread
    rw [hsize] at hread
    cases hread
    split
    · simp_all [readData_append]
    · rename_i first later hdata
      rw [readData_append] at hdata
      cases hdata
      simp [h]

/-- Reading stops at the chunk of size zero, whatever stands behind it. -/
theorem decode_lastChunk_append (rest : Bytes) : decode (lastChunk ++ rest) = some ([], rest) := by
  have hsize : readSize 0 (lastChunk ++ rest) = some (0, chunkLineEnd ++ rest) := rfl
  rw [decode]
  split
  · simp_all
  · rename_i size afterSize hread
    rw [hsize] at hread
    cases hread
    split
    · simp_all [readData, chunkLineEnd]
    · rename_i first later hdata
      cases hdata
      rfl

/-- The chunks of some pieces of data, one after another. -/
def ofPieces (pieces : List Bytes) : Bytes := pieces.flatMap fun data => chunk data.length data

/-- **Framing and back.** Chunks of data, none of them empty, and the end of the body are read as
all the data, and nothing behind the end is touched. -/
theorem decode_chunks {pieces : List Bytes} (h : ∀ data ∈ pieces, data ≠ []) (rest : Bytes) :
    decode (ofPieces pieces ++ (lastChunk ++ rest)) = some (pieces.flatten, rest) := by
  induction pieces with
  | nil => exact decode_lastChunk_append rest
  | cons data pieces ih =>
      have htail := ih fun other hother => h other (List.mem_cons_of_mem _ hother)
      rw [ofPieces, List.flatMap_cons, List.append_assoc, ← ofPieces,
        decode_chunk_append (h data List.mem_cons_self), htail]
      rfl

end Chunk

end HttpServer
