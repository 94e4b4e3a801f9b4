import HttpServer.Stream.Producer

/-!
# Encoded streams

A compressor writes its output into a buffer, piece by piece and not always when it is given
something (`Compressor`). Whatever has come together there is taken out after each write that goes
well, and after the end (`Encoder`), which makes a codec of it (`Compressor.codec`).

An `EncodedProducer` runs what is written to it through a codec and queues the codec's output for
the writer. Finishing it adds the codec's trailer and completes the queue, even if the trailer could
not be produced, so the writer is never left waiting. After that, and after the end of production,
writing fails.
-/

namespace HttpServer

/-- A compression scheme, one piece at a time. -/
structure Codec (σ : Type) where
  start : σ
  /-- Takes bytes and gives the output they bring about. -/
  write : σ → Bytes → σ × Except IoError Bytes
  /-- Gives what remains to be output. -/
  finish : σ → Except IoError Bytes

/-- Collects what is written into it, until someone takes it. -/
structure OutputBuffer where
  bytes : Bytes := []

namespace OutputBuffer

/-- All that is written into the buffer is taken in. -/
def write (b : OutputBuffer) (data : Bytes) : OutputBuffer := ⟨b.bytes ++ data⟩

/-- Hands out what has come together, which leaves the buffer empty. -/
def take (b : OutputBuffer) : OutputBuffer × Bytes := ({}, b.bytes)

end OutputBuffer

/-- A compressor: what it writes, piece by piece, and whether it went well. A failure does not take
back what was written before it. -/
structure Compressor (σ : Type) where
  start : σ
  /-- Takes bytes in. -/
  compress : σ → Bytes → σ × List Bytes × Except IoError Unit
  /-- Writes what remains to be written. -/
  finish : σ → List Bytes × Except IoError Unit

/-- A compressor under way, with the buffer that it writes into. -/
structure Encoder (σ : Type) where
  state : σ
  buffer : OutputBuffer := {}

namespace Encoder

variable {σ : Type}

/-- Writes data to the compressor. -/
def write (c : Compressor σ) (e : Encoder σ) (data : Bytes) : Encoder σ × Except IoError Unit :=
  let (state, pieces, result) := c.compress e.state data
  ({ state, buffer := pieces.foldl OutputBuffer.write e.buffer }, result)

/-- Takes the output that has come together so far. -/
def take (e : Encoder σ) : Encoder σ × Bytes :=
  let (buffer, output) := e.buffer.take
  ({ e with buffer }, output)

/-- Ends the compressor and gives all the output that was not taken. -/
def finish (c : Compressor σ) (e : Encoder σ) : Except IoError Bytes :=
  let (pieces, result) := c.finish e.state
  result.map fun _ => (pieces.foldl OutputBuffer.write e.buffer).take.2

end Encoder

namespace Compressor

/-- **A compressor as a codec.** After a write that goes well all that is in the buffer is output;
what a failed one has left there waits for the next. -/
def codec {σ : Type} (c : Compressor σ) : Codec (Encoder σ) where
  start := { state := c.start }
  write encoder data :=
    match encoder.write c data with
    | (encoder, .error e) => (encoder, .error e)
    | (encoder, .ok ()) =>
      let (encoder, output) := encoder.take
      (encoder, .ok output)
  finish encoder := encoder.finish c

/-- Leaves bytes as they are. -/
def identity : Compressor Unit where
  start := ()
  compress _ data := ((), [data], .ok ())
  finish _ := ([], .ok ())

end Compressor

/-- A producer behind a codec. -/
structure EncodedProducer (σ τ : Type) where
  codec : Codec σ
  queue : Producer τ
  /-- The codec's state, until it is finished or production ends. -/
  state : Option σ

namespace EncodedProducer

variable {σ τ : Type}

/-- A producer for a content coding of the given name. -/
def new (codec : Codec σ) (encoding : String) : EncodedProducer σ τ where
  codec
  queue := { encoding }
  state := some codec.start

/-- Writing has come to its end. -/
def alreadyFinished : IoError := ⟨.other, some "encoding producer already finished"⟩

/-- Encodes bytes and queues the output. -/
def write (p : EncodedProducer σ τ) (data : Bytes) :
    EncodedProducer σ τ × List (Signal τ) × Except IoError Unit :=
  match p.state with
  | none => (p, [], .error alreadyFinished)
  | some state =>
    match p.codec.write state data with
    | (state, .error e) => ({ p with state := some state }, [], .error e)
    | (state, .ok output) =>
      let (queue, signals) := p.queue.push output
      ({ p with queue, state := some state }, signals, .ok ())

/-- Queues the trailer if there is one and completes the queue in any case. -/
def close (p : EncodedProducer σ τ) (trailer : Except IoError Bytes) :
    EncodedProducer σ τ × List (Signal τ) × Except IoError Unit :=
  let (pushed, signals) := match trailer with
    | .ok bytes => p.queue.push bytes
    | .error _ => (p.queue, [])
  let (queue, later) := pushed.finish
  ({ p with queue, state := none }, signals ++ later, trailer.map fun _ => ())

/-- Ends the encoded stream. -/
def finish (p : EncodedProducer σ τ) :
    EncodedProducer σ τ × List (Signal τ) × Except IoError Unit :=
  match p.state with
  | some state => p.close (p.codec.finish state)
  | none => p.close (.ok [])

def consume (p : EncodedProducer σ τ) (amount : Nat) : EncodedProducer σ τ × List (Signal τ) :=
  let (queue, signals) := p.queue.consume amount
  ({ p with queue }, signals)

/-- Ends production; the codec is dropped with whatever it still holds. -/
def endProduction (p : EncodedProducer σ τ) (failure : Option IoError) :
    EncodedProducer σ τ × List (Signal τ) :=
  let (queue, signals) := p.queue.endProduction failure
  ({ p with queue, state := none }, signals)

end EncodedProducer

end HttpServer
