import HttpServer.Exchange.Sending
import HttpServer.Stream.Writer

/-!
# Sending a body while it is produced

`Serving.sendChunked` sends a header for a chunked body and then runs a `Writer` on the producer
that other tasks feed. It answers the calls of the writer one by one (`Serving.answer`); while the
writer waits, the tasks go on. The calls are bounded by what the tasks can still do to the producer
(`ChunkedBody.calls`), since the writer never waits twice for the same signal.
-/

namespace HttpServer

/-- A body that is fed while it is sent. -/
structure ChunkedBody (ν : Type) where
  source : Source
  /-- What is done to the producer before it is given to the response. -/
  before : List Feed := []
  /-- What other tasks do: each batch a millisecond after the one before it. -/
  batches : List (List Feed) := []
  notes : StreamNotes ν
  /-- How many bytes the producer shows as available when it has so many. -/
  shown : Nat → Nat := id

/-- Bounds the chunks and signals that feeding once can lead to. -/
def Feed.weight : Feed → Nat
  | .push data => data.length + 1
  | _ => 1

/-- Bounds the calls of the writer: no round of it has more than eight, and each one takes a byte or
a signal of the producer, or is the last. -/
def ChunkedBody.calls {ν : Type} (b : ChunkedBody ν) : Nat :=
  let weights := (b.before ++ b.batches.flatten).map Feed.weight
  8 * (2 * (b.source.queue.available + weights.foldr (· + ·) 0) + b.batches.length + 4)

namespace ResponseHeader

/-- Announces a chunked body in the given coding. -/
def announceChunks (h : ResponseHeader) (encoding : String) : ResponseHeader :=
  let allowed := if h.code = 204 then h.setCode 200 else h
  let encoded :=
    if encoding = "" then allowed else allowed.trySetField "Content-Encoding" encoding
  (encoded.removeField "Content-Length").setField "Transfer-Encoding" "chunked"

end ResponseHeader

/-- Puts an entry into an agenda, behind all entries for the same time or an earlier one. -/
def insertOccurrence (entry : Nat × Occurrence) : List (Nat × Occurrence) → List (Nat × Occurrence)
  | [] => [entry]
  | first :: rest =>
    if first.1 ≤ entry.1 then first :: insertOccurrence entry rest else entry :: first :: rest

namespace Exchange

variable {ν : Type}

/-- Makes a body the one that is fed, and feeds it what it gets at first. -/
def openStream (e : Exchange ν) (body : ChunkedBody ν) : Exchange ν :=
  body.before.foldl feed
    { e with stream := some { source := body.source, notes := body.notes, shown := body.shown } }

/-- Puts the batches into the agenda, the first one a millisecond from now. -/
def schedule (e : Exchange ν) (batches : List (List Feed)) : Exchange ν :=
  let entries := (batches.zipIdx 1).map fun (batch, delay) => (e.now + delay, Occurrence.feed batch)
  { e with agenda := entries.foldl (fun agenda entry => insertOccurrence entry agenda) e.agenda }

/-- Forgets the body that is fed, and whatever would still be done to it. -/
def closeStream (e : Exchange ν) : Exchange ν :=
  { e with
    stream := none
    agenda := e.agenda.filter fun entry => entry.2 == .clearRegistry }

def source (e : Exchange ν) : Source := (e.stream.map BodyStream.source).getD (.ofEncoding "")

/-- Replaces the producer and runs its callbacks. -/
def putSource (e : Exchange ν) (changed : Source × List (Signal FeedTag)) : Exchange ν :=
  changed.2.foldl signal (e.changeStream fun stream => { stream with source := changed.1 })

def endProduction (e : Exchange ν) (failure : Option IoError) : Exchange ν :=
  e.putSource (e.source.endProduction failure)

def available (e : Exchange ν) : Nat :=
  (e.stream.map fun stream => stream.shown stream.source.queue.available).getD 0

def isWoken (e : Exchange ν) : Bool := e.stream.any BodyStream.woken

/-- The producer wakes the writer from now on. -/
def connectStream (e : Exchange ν) : Exchange ν :=
  e.changeStream fun stream => { stream with source := stream.source.connect }

end Exchange

namespace Serving

variable {ν : Type}

/-- Answers a call of the writer. -/
def answer : (call : WriterCall) → Serving ν call.Reply
  | .alive => do
    modify Exchange.checkpoint
    return (← get).handle.conclusion.alive
  | .available => do return (← get).available
  | .data => do return (← get).source.queue.buffer
  | .write bytes => (transmit bytes).run
  | .consume amount => modify fun e => e.putSource (e.source.consume amount)
  | .complete => do return (← get).source.queue.complete
  | .reportError failure => modify fun e =>
    e.putSource (e.source, e.source.queue.reportError failure)
  | .endProduction failure => modify fun e => e.endProduction failure
  | .wait => do
    let _ ← await (fun e => e.isStopped || e.isWoken) none
    modify fun e => e.changeStream fun stream => { stream with woken := false }

/-- Runs a writer for a number of calls. -/
def runWriter : Nat → Writer → Serving ν (Except ConnectionError Unit)
  | 0, _ => never
  | calls + 1, writer =>
    match writer.call with
    | none => pure writer.result
    | some call => do
      let reply ← answer call
      runWriter calls (writer.resume call reply)

/-- Sends the header of a chunked body and the body that is being fed, and finishes. -/
def sendStream (calls : Nat) : ExceptT SendError (Serving ν) Unit := do
  modify fun e =>
    (e.changeHeader fun h => h.announceChunks e.source.queue.encoding).connectStream
  match ← ExceptT.lift sendHeader.run with
  | .error e =>
    modify fun exchange => exchange.endProduction (some e.toIoError)
    throw e
  | .ok () =>
    (ExceptT.mk (runWriter calls {})).adapt .connection
    finish

/-- Sends a body while it is produced, and finishes. The producer is handed back. -/
def sendChunked (body : ChunkedBody ν) : Serving ν (Source × Except SendError Unit) := do
  modify fun e => (e.openStream body).schedule body.batches
  let result ← (sendStream body.calls).run
  let source := (← get).source
  modify Exchange.closeStream
  return (source, result)

end Serving

end HttpServer
