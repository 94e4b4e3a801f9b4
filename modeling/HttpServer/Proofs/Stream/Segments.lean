import HttpServer.Proofs.Stream.Framing

/-!
# Chunks of segmented data

The data of a chunk may lie in several segments, of which only the first that holds anything is
copied, while all of them are announced. A reader that gathers what it can of a chunked body
(`Chunk.gather`) recovers exactly what was to be sent as long as no data spreads over two segments
that hold bytes; and otherwise the encoder has counted more bytes than it put on the wire
(`ChunkEncoder.gathered_iff_inOneSegment`).
-/

namespace HttpServer

/-! ## Reading as far as possible -/

namespace Chunk

/-- What a reader has of a chunked body once it can read no further. -/
structure Gathered where
  data : Bytes
  /-- The end of the body was found. -/
  ended : Bool
  /-- The bytes that were not read. -/
  rest : Bytes
  deriving DecidableEq

/-- Reads one chunk: its data, which is empty at the end of the body, and what stands behind. -/
def next? (bs : Bytes) : Option (Bytes × Bytes) :=
  (readSize 0 bs).bind fun (size, later) => readData size later

/-- A chunk that was read makes what is left shorter; `gather` rests on that. -/
theorem length_next? {bs data rest : Bytes} (h : next? bs = some (data, rest)) :
    rest.length < bs.length := by
  obtain ⟨⟨size, later⟩, hsize, hdata⟩ := Option.bind_eq_some_iff.1 h
  exact Nat.lt_trans (length_readData hdata) (length_readSize hsize)

/-- Reads chunk after chunk, up to the end of the body or to bytes that are no chunk. -/
def gather (bs : Bytes) : Gathered :=
  match hnext : next? bs with
  | none => { data := [], ended := false, rest := bs }
  | some (data, rest) =>
    if data = [] then { data := [], ended := true, rest }
    else
      have := length_next? hnext
      let later := gather rest
      { later with data := data ++ later.data }
termination_by bs.length

/-- Gathering ends where no chunk can be read. -/
theorem gather_of_next?_eq_none {bs : Bytes} (h : next? bs = none) :
    gather bs = { data := [], ended := false, rest := bs } := by
  rw [gather]
  split
  · rfl
  · rename_i hsome
    rw [h] at hsome
    cases hsome

/-- Gathering goes on behind a chunk, unless that was the last one. -/
theorem gather_of_next? {bs data rest : Bytes} (h : next? bs = some (data, rest)) :
    gather bs = if data = [] then { data := [], ended := true, rest }
      else { gather rest with data := data ++ (gather rest).data } := by
  rw [gather]
  split
  · rename_i hnone
    rw [h] at hnone
    cases hnone
  · rename_i hsome
    rw [h] at hsome
    cases hsome
    rfl

/-- As many bytes are read as the size says. -/
theorem length_of_readData {size : Nat} {bs data rest : Bytes}
    (h : readData size bs = some (data, rest)) : data.length = size := by
  unfold readData at h
  split at h
  · cases h
  · rename_i hlong
    split at h
    · cases h
      rw [List.length_take, Nat.min_eq_left (by omega)]
    · cases h

/-- Decoding fails where no chunk can be read. -/
theorem decode_of_next?_eq_none {bs : Bytes} (h : next? bs = none) : decode bs = none := by
  rw [decode]
  split
  · rfl
  · rename_i hsize
    rw [next?, hsize, Option.bind_some] at h
    dsimp only at h
    split
    · rfl
    · rename_i hdata
      rw [hdata] at h
      cases h

/-- Decoding goes on behind a chunk as gathering does. -/
theorem decode_of_next? {bs data rest : Bytes} (h : next? bs = some (data, rest)) :
    decode bs = if data = [] then some ([], rest)
      else (decode rest).map fun (more, behind) => (data ++ more, behind) := by
  obtain ⟨⟨size, later⟩, hsize, hdata⟩ := Option.bind_eq_some_iff.1 h
  dsimp only at hdata
  have hempty : data = [] ↔ size = 0 := by
    rw [← length_of_readData hdata, List.length_eq_zero_iff]
  rw [decode]
  split
  · rename_i hnone
    rw [hsize] at hnone
    cases hnone
  · rename_i hsome
    rw [hsize] at hsome
    cases hsome
    split
    · rename_i hnone
      rw [hdata] at hnone
      cases hnone
    · rename_i hsome
      rw [hdata] at hsome
      cases hsome
      simp only [hempty]

/-- **Both readers agree.** A body is read as a whole exactly if its end is found. -/
theorem decode_eq_gather (bs : Bytes) :
    decode bs = if (gather bs).ended then some ((gather bs).data, (gather bs).rest) else none := by
  induction hlength : bs.length using Nat.strongRecOn generalizing bs with
  | ind length ih =>
      subst hlength
      cases hnext : next? bs with
      | none =>
          rw [gather_of_next?_eq_none hnext, decode_of_next?_eq_none hnext]
          rfl
      | some found =>
          obtain ⟨data, rest⟩ := found
          have hrest := ih rest.length (length_next? hnext) rest rfl
          rw [gather_of_next? hnext, decode_of_next? hnext, hrest]
          by_cases hlast : data = []
          · rw [if_pos hlast, if_pos hlast]
            rfl
          · rw [if_neg hlast, if_neg hlast]
            cases hended : (gather rest).ended with
            | true => rfl
            | false => rfl

theorem gather_nil : gather [] = { data := [], ended := false, rest := [] } :=
  gather_of_next?_eq_none rfl

/-- A chunk that holds what it announces is read back. -/
theorem next?_chunk_append (data rest : Bytes) :
    next? (chunk data.length data ++ rest) = some (data, rest) := by
  rw [next?]
  simp only [chunk, List.append_assoc, readSize_hexadecimal, readSize_lineEnd, Option.bind_some,
    readData_append]

/-- What is gathered of chunks are the bytes that they hold. -/
theorem gather_chunk_append {data : Bytes} (h : data ≠ []) (rest : Bytes) :
    gather (chunk data.length data ++ rest) =
      { gather rest with data := data ++ (gather rest).data } := by
  rw [gather_of_next? (next?_chunk_append data rest), if_neg h]

/-- Gathering ends right behind the chunk of size zero. -/
theorem gather_lastChunk_append (rest : Bytes) :
    gather (lastChunk ++ rest) = { data := [], ended := true, rest } := by
  have hnext : next? (lastChunk ++ rest) = some ([], rest) := rfl
  rw [gather_of_next? hnext, if_pos rfl]

/-- Chunks that hold what they announce are gathered in front of whatever comes behind them. -/
theorem gather_ofPieces_append {pieces : List Bytes} (h : ∀ data ∈ pieces, data ≠ [])
    (rest : Bytes) :
    gather (ofPieces pieces ++ rest) =
      { gather rest with data := pieces.flatten ++ (gather rest).data } := by
  induction pieces with
  | nil => rfl
  | cons data pieces ih =>
      obtain ⟨hdata, hpieces⟩ := List.forall_mem_cons.1 h
      rw [ofPieces, List.flatMap_cons, List.append_assoc, ← ofPieces, gather_chunk_append hdata,
        ih hpieces, List.flatten_cons, List.append_assoc]

end Chunk

/-! ## The parts of a body -/

namespace BodyPart

def isLast : BodyPart → Bool
  | .last => true
  | .data _ => false

/-- The bytes of the data in front of the end. -/
def content : List BodyPart → Bytes
  | [] => []
  | .last :: _ => []
  | .data segments :: parts => segments.flatten ++ content parts

/-- The data that is framed: what holds anything and stands in front of the end. -/
def framed : List BodyPart → List (List Bytes)
  | [] => []
  | .last :: _ => []
  | .data segments :: parts => if size segments = 0 then framed parts else segments :: framed parts

/-- The bytes that are put between the sizes and the line ends. -/
def copied (parts : List BodyPart) : Bytes := (framed parts).flatMap current

/-- At most one of the segments holds bytes. -/
def InOneSegment (segments : List Bytes) : Prop := (segments.filter (· ≠ [])).length ≤ 1

instance (segments : List Bytes) : Decidable (InOneSegment segments) := by
  unfold InOneSegment
  infer_instance

/-- A part counts as empty exactly if none of its segments holds anything. -/
theorem size_eq_zero_iff (segments : List Bytes) : size segments = 0 ↔ segments.flatten = [] :=
  List.length_eq_zero_iff

/-- The segment that is copied comes first, and is all there is if no other holds bytes. -/
theorem exists_flatten_eq (segments : List Bytes) :
    ∃ others, segments.flatten = current segments ++ others ∧
      (others = [] ↔ InOneSegment segments) := by
  induction segments with
  | nil => exact ⟨[], rfl, by simp [InOneSegment]⟩
  | cons segment segments ih =>
      by_cases hsegment : segment = []
      · obtain ⟨others, hflatten, hone⟩ := ih
        refine ⟨others, ?_, ?_⟩
        · rw [hsegment, List.flatten_cons, List.nil_append, hflatten]
          rfl
        · rw [hone, InOneSegment, InOneSegment, List.filter_cons_of_neg (by simpa using hsegment)]
      · refine ⟨segments.flatten, ?_, ?_⟩
        · rw [current, List.find?_cons_of_pos (by simpa using hsegment)]
          rfl
        · rw [InOneSegment, List.filter_cons_of_pos (by simpa using hsegment), List.length_cons,
            Nat.succ_le_succ_iff, Nat.le_zero, List.length_eq_zero_iff, List.filter_eq_nil_iff,
            List.flatten_eq_nil_iff]
          simp

/-- No more bytes are copied than are counted. -/
theorem length_current_le (segments : List Bytes) : (current segments).length ≤ size segments := by
  obtain ⟨others, hflatten, _⟩ := exists_flatten_eq segments
  rw [size, hflatten, List.length_append]
  omega

/-- **All bytes are copied** exactly if they lie in one segment. -/
theorem inOneSegment_iff (segments : List Bytes) :
    InOneSegment segments ↔ (current segments).length = size segments := by
  obtain ⟨others, hflatten, hone⟩ := exists_flatten_eq segments
  rw [← hone, size, hflatten, List.length_append, ← List.length_eq_zero_iff]
  omega

/-- Then what is copied are the bytes of the part. -/
theorem current_of_inOneSegment {segments : List Bytes} (h : InOneSegment segments) :
    current segments = segments.flatten := by
  obtain ⟨others, hflatten, hone⟩ := exists_flatten_eq segments
  rw [hflatten, hone.2 h, List.append_nil]

/-- Only parts that hold something are framed. -/
theorem size_ne_zero_of_mem_framed {parts : List BodyPart} {segments : List Bytes}
    (h : segments ∈ framed parts) : size segments ≠ 0 := by
  fun_induction framed parts with
  | case1 => cases h
  | case2 => cases h
  | case3 other parts hzero ih => exact ih h
  | case4 other parts hsize ih =>
      rcases List.mem_cons.1 h with rfl | hmem
      · exact hsize
      · exact ih hmem

/-- The content of a body is that of the parts that are framed. -/
theorem content_eq_flatten_framed (parts : List BodyPart) :
    content parts = ((framed parts).map List.flatten).flatten := by
  fun_induction framed parts with
  | case1 => rfl
  | case2 => rfl
  | case3 segments parts hzero ih =>
      rw [content, (size_eq_zero_iff segments).1 hzero, List.nil_append, ih]
  | case4 segments parts hsize ih => rw [content, ih, List.map_cons, List.flatten_cons]

/-- What chunks with these data announce in all. -/
def announced : List (List Bytes) → Nat
  | [] => 0
  | segments :: others => size segments + announced others

/-- Over a whole body, too, no more bytes are copied than are announced. -/
theorem length_flatMap_current_le (all : List (List Bytes)) :
    (all.flatMap current).length ≤ announced all := by
  induction all with
  | nil => exact Nat.le_refl 0
  | cons segments others ih =>
      rw [List.flatMap_cons, List.length_append, announced]
      exact Nat.add_le_add (length_current_le segments) ih

/-- What is announced is what is copied only if no size announces more. -/
theorem announced_eq_iff (all : List (List Bytes)) :
    announced all = (all.flatMap current).length ↔ ∀ segments ∈ all, InOneSegment segments := by
  induction all with
  | nil => simp [announced]
  | cons segments others ih =>
      have hfirst := length_current_le segments
      have hrest := length_flatMap_current_le others
      rw [List.forall_mem_cons]
      refine Iff.trans ?_ (and_congr (inOneSegment_iff segments).symm ih)
      rw [List.flatMap_cons, List.length_append, announced]
      omega

end BodyPart

/-! ## Framing a whole body -/

namespace ChunkEncoder

open BodyPart

/-- Frames parts one after another. -/
def encodeAll (e : ChunkEncoder) : List BodyPart → ChunkEncoder × Bytes
  | [] => (e, [])
  | part :: parts =>
    let (mid, out) := e.encode part
    let (later, more) := mid.encodeAll parts
    (later, out ++ more)

/-- Nothing is framed behind the end. -/
theorem encodeAll_of_finished {e : ChunkEncoder} (h : e.finished = true) (parts : List BodyPart) :
    e.encodeAll parts = (e, []) := by
  induction parts with
  | nil => rfl
  | cons part parts ih => simp only [encodeAll, encode, h, ↓reduceIte, ih, List.append_nil]

/-- Every size announces all segments, and only one of them follows it. -/
theorem encodeAll_eq {e : ChunkEncoder} (h : e.finished = false) (parts : List BodyPart) :
    (e.encodeAll parts).1.sentSize = e.sentSize + announced (framed parts) ∧
      (e.encodeAll parts).2 =
        ((framed parts).flatMap fun segments => chunk (size segments) (current segments)) ++
          (if parts.any isLast then lastChunk else []) := by
  induction parts generalizing e with
  | nil => exact ⟨rfl, rfl⟩
  | cons part parts ih =>
      cases part with
      | last =>
          have hclosed : e.encode .last = ({ e with finished := true }, lastChunk) := by
            simp [encode, h]
          rw [encodeAll, hclosed]
          dsimp only
          rw [encodeAll_of_finished rfl]
          exact ⟨rfl, List.append_nil _⟩
      | data segments =>
          have hany : (BodyPart.data segments :: parts).any isLast = parts.any isLast := rfl
          by_cases hzero : size segments = 0
          · have hskipped : e.encode (.data segments) = (e, []) := by simp [encode, h, hzero]
            rw [encodeAll, hskipped, framed, if_pos hzero, hany]
            exact ih h
          · have hframed : e.encode (.data segments) =
                ({ e with sentSize := e.sentSize + size segments },
                  chunk (size segments) (current segments)) := by
              simp [encode, h, hzero]
            obtain ⟨hsize, hout⟩ :=
              ih (e := { e with sentSize := e.sentSize + size segments }) h
            rw [encodeAll, hframed, framed, if_neg hzero, hany]
            dsimp only
            rw [hsize, hout]
            refine ⟨?_, ?_⟩
            · rw [announced, Nat.add_assoc]
            · rw [List.flatMap_cons, List.append_assoc]

/-- Data in one segment each is framed as it is. -/
theorem flatMap_chunk_of_inOneSegment {parts : List BodyPart}
    (h : ∀ segments ∈ framed parts, InOneSegment segments) :
    ((framed parts).flatMap fun segments => chunk (size segments) (current segments)) =
      Chunk.ofPieces ((framed parts).map List.flatten) := by
  rw [Chunk.ofPieces, List.flatMap_map, List.flatMap_def, List.flatMap_def]
  refine congrArg List.flatten (List.map_congr_left fun segments hmem => ?_)
  rw [current_of_inOneSegment (h segments hmem), size]

/-- **Framing can be undone exactly if the data is in one piece.** Whatever parts are given to an
encoder, a reader of its output gathers all data in front of the end, finds the end if one was given
and nothing behind it, and the encoder has counted what it copied, if and only if no data that was
framed has bytes in two segments. -/
theorem gathered_iff_inOneSegment (parts : List BodyPart) :
    (Chunk.gather (({} : ChunkEncoder).encodeAll parts).2 =
          { data := content parts, ended := parts.any isLast, rest := [] } ∧
        (({} : ChunkEncoder).encodeAll parts).1.sentSize = (copied parts).length) ↔
      ∀ segments ∈ framed parts, InOneSegment segments := by
  obtain ⟨hsize, hout⟩ := encodeAll_eq (e := {}) rfl parts
  have hcount : (({} : ChunkEncoder).encodeAll parts).1.sentSize = (copied parts).length ↔
      ∀ segments ∈ framed parts, InOneSegment segments := by
    rw [hsize, copied, ← announced_eq_iff]
    exact iff_of_eq (congrArg (· = _) (Nat.zero_add _))
  refine ⟨fun h => hcount.1 h.2, fun hone => ⟨?_, hcount.2 hone⟩⟩
  have hne : ∀ data ∈ (framed parts).map List.flatten, data ≠ [] := by
    intro data hmem
    obtain ⟨segments, hsegments, rfl⟩ := List.mem_map.1 hmem
    exact fun hnone => size_ne_zero_of_mem_framed hsegments ((size_eq_zero_iff segments).2 hnone)
  have hbehind : Chunk.gather (if parts.any isLast then lastChunk else []) =
      { data := [], ended := parts.any isLast, rest := [] } := by
    cases parts.any isLast with
    | false => exact Chunk.gather_nil
    | true => exact Chunk.gather_lastChunk_append []
  rw [hout, flatMap_chunk_of_inOneSegment hone, Chunk.gather_ofPieces_append hne, hbehind,
    ← content_eq_flatten_framed, List.append_nil]

/-- Data whose segments but one are empty, no data, the end, and more behind it. -/
def mostlyEmpty : List BodyPart :=
  [.data [[], [0x61, 0x62], []], .data [[], []], .last, .data [[0x63]], .last]

theorem gathered_mostlyEmpty :
    (∀ segments ∈ framed mostlyEmpty, InOneSegment segments) ∧
      Chunk.gather (({} : ChunkEncoder).encodeAll mostlyEmpty).2 =
        { data := [0x61, 0x62], ended := true, rest := [] } ∧
      (({} : ChunkEncoder).encodeAll mostlyEmpty).1.sentSize = 2 := by
  have hone : ∀ segments ∈ framed mostlyEmpty, InOneSegment segments := by decide
  exact ⟨hone, (gathered_iff_inOneSegment mostlyEmpty).2 hone⟩

/-- Four bytes in two segments, and the end. -/
def twoSegments : List BodyPart := [.data [[0x61, 0x62], [0x63, 0x64]], .last]

/-- **Data in two segments cannot be read back.** Four bytes are announced and counted, two of them
are written, and the reader finds neither data nor the end. -/
theorem lost_twoSegments :
    content twoSegments = [0x61, 0x62, 0x63, 0x64] ∧
      (({} : ChunkEncoder).encodeAll twoSegments).2 =
        Utf8.ofString "4\r\nab\r\n0\r\n\r\n" ∧
      (({} : ChunkEncoder).encodeAll twoSegments).1.sentSize = 4 ∧
      copied twoSegments = [0x61, 0x62] ∧
      (Chunk.gather (({} : ChunkEncoder).encodeAll twoSegments).2).data = [] ∧
      (Chunk.gather (({} : ChunkEncoder).encodeAll twoSegments).2).ended = false := by
  have hstuck : Chunk.next? (({} : ChunkEncoder).encodeAll twoSegments).2 = none := by
    decide +kernel
  refine ⟨rfl, by decide +kernel, rfl, rfl, ?_, ?_⟩
  · rw [Chunk.gather_of_next?_eq_none hstuck]
  · rw [Chunk.gather_of_next?_eq_none hstuck]

end ChunkEncoder

end HttpServer
