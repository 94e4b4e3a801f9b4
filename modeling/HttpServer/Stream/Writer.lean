import HttpServer.Stream.Chunk
import HttpServer.Stream.Producer

/-!
# The writer of a chunked body

The writer is a machine that asks for one thing at a time (`Writer.call`) and goes on with the reply
(`Writer.resume`). It looks whether the connection lives, takes all that is available as one chunk,
writes it, and reports it consumed; once the producer is complete and drained it writes the last
chunk and ends production well. Where nothing is to be done it waits to be woken. Whoever runs the
machine decides what happens between two calls, so the same machine serves one fixed schedule and
every interleaving with the tasks that feed the producer.
-/

namespace HttpServer

/-- What the writer asks for. -/
inductive WriterCall
  /-- Whether the connection lives. -/
  | alive
  /-- How many bytes are available. -/
  | available
  | data
  | write (bytes : Bytes)
  /-- To drop bytes from the front of the buffer. -/
  | consume (amount : Nat)
  /-- Whether no more bytes will come. -/
  | complete
  | reportError (e : IoError)
  | endProduction (failure : Option IoError)
  /-- To wait until the producer or the end of the connection wakes it. -/
  | wait
  deriving DecidableEq

/-- What a call is answered with. -/
def WriterCall.Reply : WriterCall → Type
  | .alive => Bool
  | .available => Nat
  | .data => Bytes
  | .write _ => Except ConnectionError Unit
  | .consume _ => Unit
  | .complete => Bool
  | .reportError _ => Unit
  | .endProduction _ => Unit
  | .wait => Unit

/-- Where the writer stands. -/
inductive WriterStage
  | checkingLife
  | lookingForBytes
  /-- So many bytes were available. -/
  | copying (available : Nat)
  /-- Bytes of the buffer that go out as one chunk, framed. -/
  | writing (taken : Nat) (framed : Bytes)
  | consuming (amount : Nat)
  | checkingCompletion
  | writingLast (framed : Bytes)
  | endingWell
  | reporting (e : ConnectionError)
  /-- Production ends with a failure, and sending with an error. -/
  | endingBadly (failure : IoError) (e : ConnectionError)
  | waiting
  | finished
  | failed (e : ConnectionError)
  deriving DecidableEq

/-- A writer: where it stands, and how far the framing got. -/
structure Writer where
  stage : WriterStage := .checkingLife
  encoder : ChunkEncoder := {}
  deriving DecidableEq

namespace Writer

/-- What the writer asks for next; nothing once it is through. -/
def call (w : Writer) : Option WriterCall :=
  match w.stage with
  | .checkingLife => some .alive
  | .lookingForBytes => some .available
  | .copying _ => some .data
  | .writing _ framed => some (.write framed)
  | .consuming amount => some (.consume amount)
  | .checkingCompletion => some .complete
  | .writingLast framed => some (.write framed)
  | .endingWell => some (.endProduction none)
  | .reporting e => some (.reportError e.toIoError)
  | .endingBadly failure _ => some (.endProduction (some failure))
  | .waiting => some .wait
  | .finished => none
  | .failed _ => none

/-- How writing ended, once the writer asks for nothing more. -/
def result (w : Writer) : Except ConnectionError Unit :=
  match w.stage with
  | .failed e => .error e
  | _ => .ok ()

def goTo (w : Writer) (stage : WriterStage) : Writer := { w with stage }

/-- The connection died while the body was sent. -/
def abort (w : Writer) : Writer := w.goTo (.endingBadly ⟨.connectionReset, none⟩ .aborted)

/-- A write failed. The producer hears of it first, unless the connection was stopped. -/
def writeFailed (w : Writer) (e : ConnectionError) : Writer :=
  w.goTo (if e.isAborted then .endingBadly e.toIoError e else .reporting e)

/-- Takes up to `available` bytes of the buffer as one chunk. -/
def takeChunk (w : Writer) (available : Nat) (buffer : Bytes) : Writer :=
  let data := buffer.take available
  if data = [] then w.goTo .checkingCompletion
  else
    let (encoder, framed) := w.encoder.encode (.data [data])
    { stage := .writing data.length framed, encoder }

/-- Frames the end of the body. -/
def close (w : Writer) : Writer :=
  let (encoder, framed) := w.encoder.encode .last
  { stage := .writingLast framed, encoder }

/-- Goes on if the connection lives. -/
def sawLife (w : Writer) (alive : Bool) : Writer :=
  if alive then w.goTo .lookingForBytes else w.abort

/-- Goes on knowing how many bytes are available. -/
def sawBytes (w : Writer) (available : Nat) : Writer :=
  w.goTo (if available = 0 then .checkingCompletion else .copying available)

/-- Goes on knowing whether more bytes may come. -/
def sawCompletion (w : Writer) (complete : Bool) : Writer :=
  if complete then w.close else w.goTo .waiting

/-- Goes on after a write. -/
def wrote (w : Writer) (stage : WriterStage) (result : Except ConnectionError Unit) : Writer :=
  match result with
  | .ok () => w.goTo stage
  | .error e => w.writeFailed e

/-- Goes on with the answer to a call. An answer to another call than the one asked for changes
nothing. -/
def resume (w : Writer) (call : WriterCall) (reply : call.Reply) : Writer :=
  match w.stage, call, reply with
  | .checkingLife, .alive, alive => w.sawLife alive
  | .lookingForBytes, .available, available => w.sawBytes available
  | .copying available, .data, buffer => w.takeChunk available buffer
  | .writing taken _, .write _, result => w.wrote (.consuming taken) result
  | .consuming _, .consume _, _ => w.goTo .checkingLife
  | .checkingCompletion, .complete, complete => w.sawCompletion complete
  | .writingLast _, .write _, result => w.wrote .endingWell result
  | .endingWell, .endProduction _, _ => w.goTo .finished
  | .reporting e, .reportError _, _ => w.goTo (.endingBadly e.toIoError e)
  | .endingBadly _ e, .endProduction _, _ => w.goTo (.failed e)
  | .waiting, .wait, _ => w.goTo .checkingLife
  | _, _, _ => w

end Writer

end HttpServer
