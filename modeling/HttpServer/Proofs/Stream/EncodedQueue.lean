import HttpServer.Proofs.Stream.Queue
import HttpServer.Proofs.Text.Encoding
import HttpServer.Stream.Encoded

/-!
# A producer behind a codec

A compressor that loses nothing is a codec that loses nothing, although its output waits in a buffer
(`Compressor.isLossless_codec_iff`).

Until the stream ends, the bytes taken from the queue and those left in it are what the codec has
put out (`EncodedProducer.isOpen_after`). Finishing puts the trailer behind them before the queue is
complete, and from then on nothing is added (`EncodedProducer.record_of_isClosed`). So a codec that
loses nothing (`Codec.IsLossless`) makes a stream that loses nothing
(`EncodedProducer.lossless_up_to_codec`), whatever is taken in between.
-/

namespace HttpServer

variable {σ τ : Type}

/-! ## Codecs -/

namespace Codec

/-- A codec under way. -/
structure Run (σ : Type) where
  state : σ
  /-- What it has put out. -/
  output : Bytes := []
  /-- The data it has taken in. -/
  input : Bytes := []

/-- Writes to a codec. A write that fails puts nothing out and takes nothing in. -/
def Run.write (codec : Codec σ) (run : Run σ) (data : Bytes) : Run σ :=
  match codec.write run.state data with
  | (state, .ok output) => { state, output := run.output ++ output, input := run.input ++ data }
  | (state, .error _) => { run with state }

def run (codec : Codec σ) (writes : List Bytes) : Run σ :=
  writes.foldl (Run.write codec) { state := codec.start }

/-- **The codec loses nothing**: all it has put out, with the trailer behind, is decoded to all it
has taken in. -/
def IsLossless (codec : Codec σ) (decode : Bytes → Option Bytes) : Prop :=
  ∀ writes trailer, codec.finish (codec.run writes).state = .ok trailer →
    decode ((codec.run writes).output ++ trailer) = some (codec.run writes).input

theorem run_concat (codec : Codec σ) (writes : List Bytes) (data : Bytes) :
    codec.run (writes ++ [data]) = (codec.run writes).write codec data :=
  List.foldl_append

end Codec

/-! ## Compressors -/

/-- Pieces that are written are put behind one another. -/
theorem OutputBuffer.bytes_writeAll (buffer : OutputBuffer) (pieces : List Bytes) :
    (pieces.foldl write buffer).bytes = buffer.bytes ++ pieces.flatten := by
  induction pieces generalizing buffer with
  | nil => exact (List.append_nil _).symm
  | cons piece pieces ih =>
      rw [List.foldl_cons, ih, write, List.flatten_cons, List.append_assoc]

namespace Compressor

/-- A compressor under way, whatever becomes of its output. -/
structure Run (σ : Type) where
  state : σ
  /-- What it has written. -/
  written : Bytes := []
  /-- The data that it has taken in without a failure. -/
  input : Bytes := []

def Run.write (c : Compressor σ) (run : Run σ) (data : Bytes) : Run σ :=
  let (state, pieces, result) := c.compress run.state data
  { state
    written := run.written ++ pieces.flatten
    input := match result with
      | .ok () => run.input ++ data
      | .error _ => run.input }

def run (c : Compressor σ) (writes : List Bytes) : Run σ :=
  writes.foldl (Run.write c) { state := c.start }

/-- **The compressor loses nothing**: all it has written, when it has come to its end without a
failure, is decoded to all it has taken in. -/
def IsLossless (c : Compressor σ) (decode : Bytes → Option Bytes) : Prop :=
  ∀ writes, (c.finish (c.run writes).state).2 = .ok () →
    decode ((c.run writes).written ++ (c.finish (c.run writes).state).1.flatten) =
      some (c.run writes).input

theorem run_concat (c : Compressor σ) (writes : List Bytes) (data : Bytes) :
    c.run (writes ++ [data]) = (c.run writes).write c data :=
  List.foldl_append

/-- The codec is as far as its compressor, and what was written is what was put out and what is in
the buffer. -/
structure Follows (coded : Codec.Run (Encoder σ)) (run : Run σ) : Prop where
  state_eq : coded.state.state = run.state
  bytes_eq : coded.output ++ coded.state.buffer.bytes = run.written
  input_eq : coded.input = run.input

/-- A write that goes well empties the buffer, and one that fails leaves it as it is. -/
theorem Follows.write {c : Compressor σ} {coded : Codec.Run (Encoder σ)} {run : Run σ}
    (h : Follows coded run) (data : Bytes) :
    Follows (coded.write c.codec data) (run.write c data) := by
  obtain ⟨⟨state, buffer⟩, output, input⟩ := coded
  obtain ⟨same, written, taken⟩ := run
  obtain ⟨hstate, hbytes, hinput⟩ := h
  dsimp only at hstate hbytes hinput
  subst hstate hbytes hinput
  rcases hresult : c.compress state data with ⟨later, pieces, failure | _⟩
  · have hcoded : Codec.Run.write c.codec ⟨⟨state, buffer⟩, output, input⟩ data =
        ⟨⟨later, pieces.foldl OutputBuffer.write buffer⟩, output, input⟩ := by
      simp only [Codec.Run.write, codec, Encoder.write, hresult]
    rw [hcoded]
    simp only [Run.write, hresult]
    refine ⟨rfl, ?_, rfl⟩
    dsimp only
    rw [OutputBuffer.bytes_writeAll, List.append_assoc]
  · have hcoded : Codec.Run.write c.codec ⟨⟨state, buffer⟩, output, input⟩ data =
        ⟨⟨later, {}⟩, output ++ (pieces.foldl OutputBuffer.write buffer).bytes, input ++ data⟩ := by
      simp only [Codec.Run.write, codec, Encoder.write, hresult, Encoder.take, OutputBuffer.take]
    rw [hcoded]
    simp only [Run.write, hresult]
    refine ⟨rfl, ?_, rfl⟩
    dsimp only
    rw [List.append_nil, OutputBuffer.bytes_writeAll, List.append_assoc]

/-- **The coder follows its compressor**, by induction on the writes from the end. -/
theorem follows_run (c : Compressor σ) (writes : List Bytes) :
    Follows (c.codec.run writes) (c.run writes) := by
  induction writes using List.reverseRecOn with
  | nil => exact ⟨rfl, rfl, rfl⟩
  | append_singleton writes data ih =>
      rw [Codec.run_concat, run_concat]
      exact ih.write data

/-- The trailer has the rest of the output, however much of it has come together before the end. -/
theorem Follows.finish_eq {c : Compressor σ} {coded : Codec.Run (Encoder σ)} {run : Run σ}
    (h : Follows coded run) :
    (c.codec.finish coded.state).map (coded.output ++ ·) =
      (c.finish run.state).2.map fun _ => run.written ++ (c.finish run.state).1.flatten := by
  rw [← h.state_eq, ← h.bytes_eq]
  rcases hresult : c.finish coded.state.state with ⟨pieces, failure | _⟩
  · simp only [codec, Encoder.finish, hresult]
    rfl
  · simp only [codec, Encoder.finish, hresult, Except.map, OutputBuffer.take,
      OutputBuffer.bytes_writeAll, List.append_assoc]

/-- **A compressor loses nothing exactly if its codec does.** What waits in the buffer, even what a
failed write has left there, comes out before the end. -/
theorem isLossless_codec_iff {c : Compressor σ} {decode : Bytes → Option Bytes} :
    c.codec.IsLossless decode ↔ c.IsLossless decode := by
  refine forall_congr' fun writes => ?_
  have hfollows := c.follows_run writes
  have hfinish := hfollows.finish_eq (c := c)
  rw [hfollows.input_eq]
  rcases hresult : (c.finish (c.run writes).state).2 with failure | _
  · rw [hresult] at hfinish
    cases htrailer : c.codec.finish (c.codec.run writes).state with
    | error _ => exact iff_of_true nofun nofun
    | ok trailer =>
        rw [htrailer] at hfinish
        cases hfinish
  · rw [hresult] at hfinish
    cases htrailer : c.codec.finish (c.codec.run writes).state with
    | error _ =>
        rw [htrailer] at hfinish
        cases hfinish
    | ok trailer =>
        rw [htrailer] at hfinish
        have hbytes : (c.codec.run writes).output ++ trailer =
            (c.run writes).written ++ (c.finish (c.run writes).state).1.flatten :=
          Except.ok.inj hfinish
        rw [← hbytes]
        exact ⟨fun h _ => h trailer rfl, fun h other hother => by cases hother; exact h rfl⟩

end Compressor

/-! ## Calls -/

/-- One use of a producer behind a codec. -/
inductive EncodedCall
  | write (data : Bytes)
  /-- The writer has taken so many bytes, or all if there are not so many. -/
  | consume (amount : Nat)
  | finish
  | endProduction (failure : Option IoError)

namespace EncodedCall

/-- The call ends the stream. -/
def ends : EncodedCall → Bool
  | .finish => true
  | .endProduction _ => true
  | _ => false

/-- The data that a call wants to write. -/
def data? : EncodedCall → Option Bytes
  | .write data => some data
  | _ => none

/-- The bytes that a call takes. -/
def takes (call : EncodedCall) (q : Producer τ) : Bytes :=
  match call with
  | .consume amount => q.buffer.take amount
  | _ => []

/-- The data that a call has written. -/
def wrote (call : EncodedCall) (result : Except IoError Unit) : Bytes :=
  match call, result with
  | .write data, .ok _ => data
  | _, _ => []

end EncodedCall

namespace EncodedProducer

/-- Makes a call. Only writing and finishing can fail. -/
def perform (p : EncodedProducer σ τ) :
    EncodedCall → EncodedProducer σ τ × List (Signal τ) × Except IoError Unit
  | .write data => p.write data
  | .consume amount => ((p.consume amount).1, (p.consume amount).2, .ok ())
  | .finish => p.finish
  | .endProduction failure => ((p.endProduction failure).1, (p.endProduction failure).2, .ok ())

/-- A producer with what has come out of it and what has gone in. -/
structure Ledger (σ τ : Type) where
  producer : EncodedProducer σ τ
  /-- The bytes that the writer has taken. -/
  taken : Bytes := []
  /-- The data of the writes that went well. -/
  written : Bytes := []

namespace Ledger

def record (l : Ledger σ τ) (call : EncodedCall) : Ledger σ τ where
  producer := (l.producer.perform call).1
  taken := l.taken ++ call.takes l.producer.queue
  written := l.written ++ call.wrote (l.producer.perform call).2.2

/-- The bytes taken and those still in the queue. -/
def bytes (l : Ledger σ τ) : Bytes := l.taken ++ l.producer.queue.buffer

end Ledger

/-- What calls make of a producer. -/
def after (p : EncodedProducer σ τ) (calls : List EncodedCall) : Ledger σ τ :=
  calls.foldl Ledger.record { producer := p }

/-- A ledger is carried on by the later calls. -/
theorem after_append (p : EncodedProducer σ τ) (calls later : List EncodedCall) :
    after p (calls ++ later) = later.foldl Ledger.record (after p calls) :=
  List.foldl_append

/-- One of the calls has ended the stream. -/
def HasEnded (calls : List EncodedCall) : Prop := ∃ call ∈ calls, call.ends = true

/-- A stream has ended if it had before, or if the last call ends it. -/
theorem hasEnded_concat (calls : List EncodedCall) (call : EncodedCall) :
    HasEnded (calls ++ [call]) ↔ HasEnded calls ∨ call.ends = true := by
  simp [HasEnded, or_and_right, exists_or]

/-- The data that calls want to write. -/
def writes (calls : List EncodedCall) : List Bytes := calls.filterMap EncodedCall.data?

/-! ## Before the end -/

/-- Bytes are put behind those in the queue. -/
theorem buffer_push {q : Producer τ} (h : q.complete = false) (data : Bytes) :
    (q.push data).1.buffer = q.buffer ++ data := by
  have hbuffer := q.buffer_perform (.push data)
  rw [h] at hbuffer
  exact hbuffer

theorem complete_push (q : Producer τ) (data : Bytes) : (q.push data).1.complete = q.complete :=
  (q.complete_perform (.push data)).trans (Bool.or_false _)

section Open

variable {codec : Codec σ} {l : Ledger σ τ} {run : Codec.Run σ}

/-- The stream has not ended, and the codec is this far. -/
structure IsOpen (codec : Codec σ) (l : Ledger σ τ) (run : Codec.Run σ) : Prop where
  codec_eq : l.producer.codec = codec
  state_eq : l.producer.state = some run.state
  complete_eq : l.producer.queue.complete = false
  bytes_eq : l.bytes = run.output
  written_eq : l.written = run.input

/-- The codec's output reaches the queue at once. -/
theorem isOpen_write (h : IsOpen codec l run) (data : Bytes) :
    IsOpen codec (l.record (.write data)) (run.write codec data) := by
  cases hresult : codec.write run.state data with
  | mk state result =>
      cases result with
      | error e =>
          have hwrite : l.producer.write data =
              ({ l.producer with state := some state }, [], .error e) := by
            simp only [write, h.state_eq, h.codec_eq, hresult]
          have hrun : run.write codec data = { run with state } := by
            simp only [Codec.Run.write, hresult]
          have hrecord : l.record (.write data) =
              { l with producer := { l.producer with state := some state } } := by
            simp [Ledger.record, perform, hwrite, EncodedCall.takes, EncodedCall.wrote]
          rw [hrun, hrecord]
          exact { h with state_eq := rfl }
      | ok output =>
          have hwrite : l.producer.write data =
              ({ l.producer with queue := (l.producer.queue.push output).1, state := some state },
                (l.producer.queue.push output).2, .ok ()) := by
            simp only [write, h.state_eq, h.codec_eq, hresult]
          have hrun : run.write codec data =
              { state, output := run.output ++ output, input := run.input ++ data } := by
            simp only [Codec.Run.write, hresult]
          have hrecord : l.record (.write data) =
              { producer := { l.producer with
                  queue := (l.producer.queue.push output).1
                  state := some state }
                taken := l.taken
                written := l.written ++ data } := by
            simp [Ledger.record, perform, hwrite, EncodedCall.takes, EncodedCall.wrote]
          rw [hrun, hrecord]
          constructor
          case codec_eq => exact h.codec_eq
          case state_eq => rfl
          case complete_eq => exact (complete_push _ output).trans h.complete_eq
          case bytes_eq =>
            rw [Ledger.bytes, buffer_push h.complete_eq, ← List.append_assoc]
            exact congrArg (· ++ output) h.bytes_eq
          case written_eq => exact congrArg (· ++ data) h.written_eq

/-- Bytes that are consumed are noted as taken. -/
theorem isOpen_consume (h : IsOpen codec l run) (amount : Nat) :
    IsOpen codec (l.record (.consume amount)) run := by
  refine { h with bytes_eq := ?_, written_eq := ?_ }
  · rw [← h.bytes_eq]
    simp [Ledger.bytes, Ledger.record, perform, consume, Producer.consume, EncodedCall.takes]
  · rw [← h.written_eq]
    exact List.append_nil _

/-- Finishing goes as well as the codec's own end. -/
theorem finish_result (h : IsOpen codec l run) :
    l.producer.finish.2.2 = (codec.finish run.state).map fun _ => () := by
  simp only [finish, h.state_eq, h.codec_eq, close]

/-- The trailer is queued before the queue is complete. -/
theorem bytes_finish (h : IsOpen codec l run) {trailer : Bytes}
    (htrailer : codec.finish run.state = .ok trailer) :
    (l.record .finish).bytes = run.output ++ trailer := by
  have hqueue : l.producer.finish.1.queue = ((l.producer.queue.push trailer).1.finish).1 := by
    simp only [finish, h.state_eq, h.codec_eq, close, htrailer]
  have hbuffer : l.producer.finish.1.queue.buffer = l.producer.queue.buffer ++ trailer := by
    rw [hqueue, Producer.finish, buffer_push h.complete_eq]
  rw [← h.bytes_eq, Ledger.bytes, Ledger.bytes, Ledger.record, perform, hbuffer]
  simp [EncodedCall.takes]

end Open

/-- **Before the end** what has come out is the codec's output, and the data written is what the
codec has taken in. -/
theorem isOpen_after (codec : Codec σ) (encoding : String) {calls : List EncodedCall}
    (h : ¬ HasEnded calls) :
    IsOpen codec (after (new codec encoding : EncodedProducer σ τ) calls)
      (codec.run (writes calls)) := by
  induction calls using List.reverseRecOn with
  | nil => exact ⟨rfl, rfl, rfl, rfl, rfl⟩
  | append_singleton calls call ih =>
      obtain ⟨hcalls, hcall⟩ := not_or.1 (mt (hasEnded_concat calls call).2 h)
      rw [after_append, writes, List.filterMap_append]
      cases call with
      | write data =>
          rw [Codec.run, List.foldl_append]
          exact isOpen_write (ih hcalls) data
      | consume amount =>
          rw [List.filterMap_cons_none rfl, List.filterMap_nil, List.append_nil]
          exact isOpen_consume (ih hcalls) amount
      | finish | endProduction _ => exact absurd rfl hcall

/-! ## After the end -/

/-- The stream has ended and the codec is gone. -/
structure IsClosed (l : Ledger σ τ) : Prop where
  state_eq : l.producer.state = none
  complete_eq : l.producer.queue.complete = true

/-- A call that ends the stream does so even if it fails. -/
theorem isClosed_record (l : Ledger σ τ) {call : EncodedCall} (h : call.ends = true) :
    IsClosed (l.record call) := by
  cases call with
  | write _ | consume _ => cases h
  | finish =>
      rw [Ledger.record, perform, finish]
      cases l.producer.state <;> exact ⟨rfl, rfl⟩
  | endProduction failure => exact ⟨rfl, rfl⟩

section Closed

variable {l : Ledger σ τ} (h : IsClosed l)

include h

/-- Nothing is written to a stream that has ended. -/
theorem write_of_isClosed (data : Bytes) :
    l.producer.write data = (l.producer, [], .error alreadyFinished) := by
  simp only [write, h.state_eq]

/-- Finishing it again adds nothing. -/
theorem buffer_finish_of_isClosed :
    l.producer.finish.1.queue.buffer = l.producer.queue.buffer := by
  simp only [finish, h.state_eq, close, Producer.push, true_or, if_true, Producer.finish]

/-- **After the end** nothing is added. -/
theorem record_of_isClosed (call : EncodedCall) :
    IsClosed (l.record call) ∧ (l.record call).bytes = l.bytes ∧
      (l.record call).written = l.written := by
  cases call with
  | write data =>
      have hrecord : l.record (.write data) = l := by
        simp [Ledger.record, perform, write_of_isClosed h, EncodedCall.takes, EncodedCall.wrote]
      rw [hrecord]
      exact ⟨h, rfl, rfl⟩
  | consume amount =>
      refine ⟨⟨h.state_eq, h.complete_eq⟩, ?_, List.append_nil _⟩
      simp [Ledger.bytes, Ledger.record, perform, consume, Producer.consume, EncodedCall.takes]
  | finish =>
      refine ⟨isClosed_record l rfl, ?_, List.append_nil _⟩
      simp [Ledger.bytes, Ledger.record, perform, buffer_finish_of_isClosed h, EncodedCall.takes]
  | endProduction failure =>
      refine ⟨isClosed_record l rfl, ?_, List.append_nil _⟩
      simp [Ledger.bytes, Ledger.record, perform, endProduction, Producer.endProduction,
        EncodedCall.takes]

/-- **A stream that has ended stays as it is**, by induction on the later calls. -/
theorem foldl_record_of_isClosed (later : List EncodedCall) :
    IsClosed (later.foldl Ledger.record l) ∧ (later.foldl Ledger.record l).bytes = l.bytes ∧
      (later.foldl Ledger.record l).written = l.written := by
  induction later generalizing l with
  | nil => exact ⟨h, rfl, rfl⟩
  | cons call later ih =>
      obtain ⟨hclosed, hbytes, hwritten⟩ := record_of_isClosed h call
      obtain ⟨hend, hbytes', hwritten'⟩ := ih hclosed
      exact ⟨hend, hbytes'.trans hbytes, hwritten'.trans hwritten⟩

end Closed

/-- Once a call has ended the stream it is closed. -/
theorem isClosed_after (p : EncodedProducer σ τ) {calls : List EncodedCall} (h : HasEnded calls) :
    IsClosed (after p calls) := by
  obtain ⟨call, hcall, hends⟩ := h
  obtain ⟨before, later, rfl⟩ := List.append_of_mem hcall
  rw [after_append, List.foldl_cons]
  exact (foldl_record_of_isClosed (isClosed_record _ hends) later).1

/-! ## The laws -/

/-- **What holds after any calls** of a producer behind a codec. -/
structure KeepsStream (p : EncodedProducer σ τ) (decode : Bytes → Option Bytes)
    (calls : List EncodedCall) : Prop where
  /-- Once the stream was finished in good order, the bytes taken and those in the queue are decoded
  to the data of all writes that went well, and these came before. -/
  decodes : ∀ before later, calls = before ++ .finish :: later → ¬ HasEnded before →
    (after p before).producer.finish.2.2 = .ok () →
      decode ((after p calls).taken ++ (after p calls).producer.queue.buffer) =
        some (after p calls).written ∧
      (after p calls).written = (after p before).written
  /-- The first call to finish goes as well as the codec's own end. -/
  finish_result : ¬ HasEnded calls → (after p calls).producer.finish.2.2 =
    (p.codec.finish (p.codec.run (writes calls)).state).map fun _ => ()
  /-- After the end every write fails and changes nothing. -/
  write_refused : HasEnded calls → ∀ data, (after p calls).producer.write data =
    ((after p calls).producer, [], .error alreadyFinished)
  /-- After the end finishing adds no byte. -/
  finish_adds_nothing : HasEnded calls →
    (after p calls).producer.finish.1.queue.buffer = (after p calls).producer.queue.buffer
  /-- The queue is complete once the stream has ended, with or without a trailer. -/
  complete_iff : (after p calls).producer.queue.complete = true ↔ HasEnded calls

/-- **A codec that loses nothing makes a stream that loses nothing.** Whatever is written, taken,
finished and ended, in any order: what comes out of a stream that was finished is decoded to the
data of the writes that went well, nothing is added after the end, and the queue is complete from
then on. -/
theorem lossless_up_to_codec {codec : Codec σ} {decode : Bytes → Option Bytes}
    (h : codec.IsLossless decode) (encoding : String) (calls : List EncodedCall) :
    KeepsStream (new codec encoding : EncodedProducer σ τ) decode calls := by
  constructor
  case decodes =>
    rintro before later rfl hbefore hresult
    have hopen := isOpen_after (τ := τ) codec encoding hbefore
    rw [finish_result hopen] at hresult
    cases htrailer : codec.finish (codec.run (writes before)).state with
    | error e =>
        rw [htrailer] at hresult
        cases hresult
    | ok trailer =>
        have hclosed := isClosed_record (after (new codec encoding : EncodedProducer σ τ) before)
          (show EncodedCall.ends .finish = true from rfl)
        obtain ⟨-, hbytes, hwritten⟩ := foldl_record_of_isClosed hclosed later
        rw [after_append, List.foldl_cons, hwritten, ← Ledger.bytes, hbytes,
          bytes_finish hopen htrailer, h _ trailer htrailer, ← hopen.written_eq]
        have hsame : (Ledger.record (after (new codec encoding : EncodedProducer σ τ) before)
            .finish).written = (after (new codec encoding) before).written := List.append_nil _
        exact ⟨congrArg some hsame.symm, hsame⟩
  case finish_result =>
    exact fun hcalls => EncodedProducer.finish_result (isOpen_after codec encoding hcalls)
  case write_refused => exact fun hcalls => write_of_isClosed (isClosed_after _ hcalls)
  case finish_adds_nothing =>
    exact fun hcalls => buffer_finish_of_isClosed (isClosed_after _ hcalls)
  case complete_iff =>
    refine ⟨fun hcomplete => ?_, fun hcalls => (isClosed_after _ hcalls).complete_eq⟩
    by_contra hcalls
    rw [(isOpen_after codec encoding hcalls).complete_eq] at hcomplete
    cases hcomplete

/-! ### Frames of one block

Data too short to gain from compression is held back by the zstd coding until the end and then put
out as it is, behind the header of a frame and the header of its only block.
-/

namespace OneBlock

/-- The most that a block holds. -/
def limit : Nat := 131072

def header : Bytes := [0x28, 0xB5, 0x2F, 0xFD, 0x00, 0x58]

/-- The number in three bytes in front of a block: that it is the last one, that it is not
compressed, and how long it is. -/
def blockSize (data : Bytes) : Nat := data.length * 8 + 1

def sizeBytes (data : Bytes) : Bytes :=
  [(blockSize data % 256).toUInt8, (blockSize data / 256 % 256).toUInt8,
    (blockSize data / 65536).toUInt8]

def frame (data : Bytes) : Bytes := header ++ (sizeBytes data ++ data)

/-- The data of a frame, `none` if the bytes are none. -/
def decode (bs : Bytes) : Option Bytes :=
  match bs.drop header.length with
  | low :: middle :: high :: data =>
    if bs.take header.length = header ∧
        low.toNat + middle.toNat * 256 + high.toNat * 65536 = blockSize data then some data
    else none
  | _ => none

/-- The compressor refuses what does not fit into the block. -/
def compressor : Compressor Bytes where
  start := []
  compress held data :=
    if (held ++ data).length ≤ limit then (held ++ data, [], .ok ())
    else (held, [], .error ⟨.writeZero, none⟩)
  finish held := ([header, sizeBytes held, held], .ok ())

def codec : Codec (Encoder Bytes) := compressor.codec

/-- A frame of one block is decoded to what it holds. -/
theorem decode_frame {data : Bytes} (h : data.length ≤ limit) :
    decode (frame data) = some data := by
  have hsize : blockSize data < 65536 * 256 := by
    rw [limit] at h
    rw [blockSize]
    omega
  rw [decode, frame, List.drop_left, List.take_left]
  simp only [sizeBytes, List.cons_append, List.nil_append]
  refine if_pos ⟨trivial, ?_⟩
  rw [Utf8.toNat_toUInt8 (by omega), Utf8.toNat_toUInt8 (by omega), Utf8.toNat_toUInt8 (by omega)]
  omega

/-- Bytes are held back until the end, as long as one block can hold them. -/
theorem compress_eq (held data : Bytes) :
    compressor.compress held data =
      if (held ++ data).length ≤ limit then (held ++ data, [], .ok ())
      else (held, [], .error ⟨.writeZero, none⟩) :=
  rfl

/-- At the end the frame is put out. -/
theorem flatten_finish (held : Bytes) : (compressor.finish held).1.flatten = frame held := by
  simp [compressor, frame]

/-- Nothing is written before the end, and what is held back is the data taken in, which fits. -/
theorem run_held (writes : List Bytes) :
    (compressor.run writes).written = [] ∧
      (compressor.run writes).state = (compressor.run writes).input ∧
      (compressor.run writes).input.length ≤ limit := by
  induction writes using List.reverseRecOn with
  | nil => exact ⟨rfl, rfl, Nat.zero_le _⟩
  | append_singleton writes data ih =>
      rw [Compressor.run_concat]
      generalize compressor.run writes = run at ih ⊢
      obtain ⟨hwritten, hstate, hlength⟩ := ih
      by_cases hfits : (run.state ++ data).length ≤ limit
      · simp only [Compressor.Run.write, compress_eq, if_pos hfits]
        exact ⟨by rw [hwritten]; rfl, by rw [hstate], hstate ▸ hfits⟩
      · simp only [Compressor.Run.write, compress_eq, if_neg hfits]
        exact ⟨by rw [hwritten]; rfl, hstate, hlength⟩

/-- So the codec of one block loses nothing that it has accepted. -/
theorem isLossless : codec.IsLossless decode := by
  refine Compressor.isLossless_codec_iff.2 fun writes _ => ?_
  obtain ⟨hwritten, hstate, hlength⟩ := run_held writes
  rw [hwritten, hstate, List.nil_append, flatten_finish]
  exact decode_frame hlength

end OneBlock

/-- Five bytes in two pieces, with a look at the queue between them, and the end; more is taken than
has come out, and what is written after the end does not get through. -/
theorem lossless_up_to_codec_hello :
    OneBlock.codec.IsLossless OneBlock.decode ∧
      let calls : List EncodedCall := [.write (Utf8.ofString "hel"), .consume 4,
        .write (Utf8.ofString "lo"), .finish, .consume 9, .write (Utf8.ofString "x"), .finish]
      let l := after (new OneBlock.codec "zstd" : EncodedProducer (Encoder Bytes) Unit) calls
      l.producer.queue.buffer = Utf8.ofString "hello" ∧
        OneBlock.decode (l.taken ++ l.producer.queue.buffer) = some (Utf8.ofString "hello") := by
  have hkept := lossless_up_to_codec (τ := Unit) OneBlock.isLossless "zstd"
    ([.write (Utf8.ofString "hel"), .consume 4, .write (Utf8.ofString "lo")] ++
      .finish :: [.consume 9, .write (Utf8.ofString "x"), .finish])
  have hended : ¬ HasEnded [.write (Utf8.ofString "hel"), .consume 4,
      .write (Utf8.ofString "lo")] := by
    simp [HasEnded, EncodedCall.ends]
  exact ⟨OneBlock.isLossless, by decide, (hkept.decodes _ _ rfl hended rfl).1⟩

end EncodedProducer

end HttpServer
