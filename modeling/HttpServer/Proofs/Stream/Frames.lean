import HttpServer.Proofs.Stream.Framing
import HttpServer.Stream.Writer

/-!
# What a writer puts on the wire

Each call of a writer puts at most the next frame on the wire (`Writer.goesOn_resume`): a chunk that
holds what it announces, or the end of the body. So whatever happens between two calls, all that
comes from a writer is chunks, with the end of the body behind them at most once (`Writer.Owes`).
-/

namespace HttpServer

/-- Chunks that hold what they announce, and perhaps the end of the body behind them. -/
def IsChunked (body : Bytes) : Prop :=
  ∃ pieces, (∀ data ∈ pieces, data ≠ []) ∧
    (body = Chunk.ofPieces pieces ∨ body = Chunk.ofPieces pieces ++ lastChunk)

/-- Nothing at all is the front of a chunked body. -/
theorem isChunked_nil : IsChunked [] := ⟨[], nofun, .inl rfl⟩

theorem isChunked_lastChunk : IsChunked lastChunk := ⟨[], nofun, .inr rfl⟩

/-- A chunk may stand in front of what is chunked. -/
theorem IsChunked.chunk_append {body : Bytes} (h : IsChunked body) {data : Bytes}
    (hdata : data ≠ []) : IsChunked (chunk data.length data ++ body) := by
  obtain ⟨pieces, hpieces, hbody⟩ := h
  refine ⟨data :: pieces, List.forall_mem_cons.2 ⟨hdata, hpieces⟩, ?_⟩
  rcases hbody with rfl | rfl
  · exact .inl rfl
  · exact .inr (List.append_assoc _ _ _).symm

namespace Writer

/-- The writer is through with the bytes of the body. -/
def isThrough (w : Writer) : Bool :=
  match w.stage with
  | .endingWell | .reporting _ | .endingBadly _ _ | .finished | .failed _ => true
  | _ => false

/-- The writer has the framing in hand that its stage tells of. -/
def Framed (w : Writer) : Prop :=
  match w.stage with
  | .writing _ framed =>
    w.encoder.finished = false ∧ ∃ data, data ≠ [] ∧ framed = chunk data.length data
  | .writingLast framed => framed = lastChunk
  | _ => w.isThrough = false → w.encoder.finished = false

/-- What may still come from the writer. -/
def Owes (w : Writer) (body : Bytes) : Prop :=
  if w.isThrough then body = [] else IsChunked body

/-- A writer may be cut off before it has put anything. -/
theorem owes_nil (w : Writer) : w.Owes [] := by
  unfold Owes
  split
  · rfl
  · exact isChunked_nil

end Writer

/-- What a call of the writer has put on the wire, by what it was answered. -/
def WriterCall.put : (call : WriterCall) → call.Reply → Bytes
  | .write bytes, .ok () => bytes
  | _, _ => []

namespace Writer

/-- The writer goes on framed as before, and owed what it has put on the wire in between. -/
def GoesOn (w : Writer) (put : Bytes) (later : Writer) : Prop :=
  later.Framed ∧ ∀ body, later.Owes body → w.Owes (put ++ body)

/-- A writer that is through puts nothing more. -/
theorem goesOn_of_through {w later : Writer} (h : later.isThrough = true) : w.GoesOn [] later := by
  refine ⟨?_, fun body hbody => ?_⟩
  · unfold Framed
    split
    · rename_i hstage
      rw [isThrough, hstage] at h
      cases h
    · rename_i hstage
      rw [isThrough, hstage] at h
      cases h
    · intro hthrough
      rw [h] at hthrough
      cases hthrough
  · rw [Owes, if_pos h] at hbody
    rw [hbody]
    exact w.owes_nil

/-- A failure is the end of a writer. -/
theorem isThrough_writeFailed (w : Writer) (e : ConnectionError) :
    (w.writeFailed e).isThrough = true := by
  unfold writeFailed
  split
  · rfl
  · rfl

/-- As long as nothing is framed, the writer owes the same at every stage. -/
theorem goesOn_goTo {w : Writer} {stage : WriterStage} (hbefore : w.isThrough = false)
    (hafter : (w.goTo stage).isThrough = false) (hframed : (w.goTo stage).Framed) :
    w.GoesOn [] (w.goTo stage) := by
  refine ⟨hframed, fun body hbody => ?_⟩
  rw [Owes, if_neg (by simp [hafter])] at hbody
  rw [Owes, if_neg (by simp [hbefore])]
  exact hbody

/-- Taking a chunk puts it into the buffer, from which it goes out with the next call. -/
theorem goesOn_takeChunk {w : Writer} {available : Nat} (hbefore : w.isThrough = false)
    (hopen : w.encoder.finished = false) (buffer : Bytes) :
    w.GoesOn [] (w.takeChunk available buffer) := by
  unfold takeChunk
  dsimp only
  split
  · exact goesOn_goTo hbefore rfl fun _ => hopen
  · rename_i hdata
    have hsize : BodyPart.size [buffer.take available] = (buffer.take available).length := by
      rw [BodyPart.size, List.flatten_singleton]
    have hpos : BodyPart.size [buffer.take available] ≠ 0 := by
      rw [hsize]
      exact fun hzero => hdata (List.eq_nil_of_length_eq_zero hzero)
    have hcurrent : BodyPart.current [buffer.take available] = buffer.take available := by
      rw [BodyPart.current, List.find?_cons_of_pos (by simpa using hdata)]
      rfl
    rw [ChunkEncoder.encode, if_neg (by simp [hopen])]
    dsimp only
    rw [if_neg hpos, hsize, hcurrent]
    refine ⟨⟨hopen, _, hdata, rfl⟩, fun body hbody => ?_⟩
    rw [Owes, if_neg (by simp [isThrough])] at hbody
    rw [Owes, if_neg (by simp [hbefore])]
    exact hbody

/-- Closing puts the end of the body into the buffer and nothing on the wire. -/
theorem goesOn_close {w : Writer} (hbefore : w.isThrough = false)
    (hopen : w.encoder.finished = false) : w.GoesOn [] w.close := by
  rw [close, ChunkEncoder.encode, if_neg (by simp [hopen])]
  refine ⟨rfl, fun body hbody => ?_⟩
  rw [Owes, if_neg (by simp [isThrough])] at hbody
  rw [Owes, if_neg (by simp [hbefore])]
  exact hbody

/-- Once the framing in hand is on the wire, the writer goes on without it. -/
theorem goesOn_wrote {w : Writer} {put : Bytes} {stage : WriterStage}
    (h : w.GoesOn put (w.goTo stage)) (reply : Except ConnectionError Unit) :
    w.GoesOn ((WriterCall.write put).put reply) (w.wrote stage reply) := by
  cases reply with
  | ok _ => exact h
  | error e => exact goesOn_of_through (w.isThrough_writeFailed e)

/-- **Each call of the writer** puts at most the next frame on the wire. -/
theorem goesOn_resume {w : Writer} (h : w.Framed) {call : WriterCall} (hcall : w.call = some call)
    (reply : call.Reply) : w.GoesOn (call.put reply) (w.resume call reply) := by
  obtain ⟨stage, encoder⟩ := w
  cases stage <;> simp only [Writer.call, Option.some.injEq, reduceCtorEq] at hcall <;> cases hcall
  case checkingLife =>
    change GoesOn _ [] (sawLife _ reply)
    unfold sawLife
    split
    · exact goesOn_goTo rfl rfl fun _ => h rfl
    · exact goesOn_of_through rfl
  case lookingForBytes =>
    change GoesOn _ [] (sawBytes _ reply)
    unfold sawBytes
    split
    · exact goesOn_goTo rfl rfl fun _ => h rfl
    · exact goesOn_goTo rfl rfl fun _ => h rfl
  case copying available => exact goesOn_takeChunk rfl (h rfl) reply
  case writing taken framed =>
    refine goesOn_wrote ?_ reply
    obtain ⟨hopen, data, hdata, hframed⟩ := h
    refine ⟨fun _ => hopen, fun body hbody => ?_⟩
    rw [hframed]
    exact IsChunked.chunk_append hbody hdata
  case consuming amount => exact goesOn_goTo rfl rfl fun _ => h rfl
  case checkingCompletion =>
    change GoesOn _ [] (sawCompletion _ reply)
    unfold sawCompletion
    split
    · exact goesOn_close rfl (h rfl)
    · exact goesOn_goTo rfl rfl fun _ => h rfl
  case writingLast framed =>
    refine goesOn_wrote ?_ reply
    refine ⟨nofun, fun body hbody => ?_⟩
    have hlast : framed = lastChunk := h
    have hnone : body = [] := hbody
    rw [hlast, hnone, List.append_nil]
    exact isChunked_lastChunk
  case endingWell | reporting | endingBadly => exact goesOn_of_through rfl
  case waiting => exact goesOn_goTo rfl rfl fun _ => h rfl

end Writer

end HttpServer
