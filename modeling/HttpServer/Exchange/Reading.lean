import HttpServer.Exchange.Waiting
import HttpServer.Request.Reader
import HttpServer.Request.Sink

/-!
# Reading from the connection

A single read races the transport against its deadline and the end of the connection
(`Serving.read`). The header is read until its reader has finished (`Serving.readHeader`). The body
is read on demand and into a sink: first what arrived with the header, then further reads, until as
many bytes were taken as the request announces or the caller allows (`Serving.readBody`).
-/

namespace HttpServer

namespace Exchange

variable {ν : Type}

/-- A read of the connection has missed its deadline. -/
def markTimedOut (e : Exchange ν) : Exchange ν :=
  { e with registry := e.registry.modify e.connection Handle.markTimedOut }

def readSize (e : Exchange ν) : Nat := max e.settings.readBufferSize 1

/-- The moment by which a read that starts now has to end. -/
def readDeadline (e : Exchange ν) : Option Nat :=
  e.settings.readTimeout.map fun timeout => e.now + timeout.milliseconds

end Exchange

/-- The earlier of two moments, either of which may never come. -/
def earlier (a b : Option Nat) : Option Nat :=
  match a, b with
  | some a, some b => some (min a b)
  | some a, none => some a
  | none, b => b

namespace Serving

variable {ν : Type}

/-- Reads once by a deadline. Each round ends at least one pause of the transport. -/
def readBy (deadline : Option Nat) : Nat → ExceptT ConnectionError (Serving ν) Bytes
  | 0 => never
  | rounds + 1 => do
    modify Exchange.checkpoint
    let e ← get
    if e.isStopped then throw .aborted
    let (incoming, delivery) := e.incoming.poll e.readSize e.now
    set { e with incoming }
    match delivery with
    | .bytes [] => throw .closed
    | .bytes data => return data
    | .failure failure => throw (.io failure)
    | .later due =>
      match ← (await Exchange.isStopped (earlier due deadline) : Serving ν Awaited) with
      | .fulfilled => throw .aborted
      | .expired =>
        if due.any (· ≤ (← get).now) then readBy deadline rounds
        else
          modify Exchange.markTimedOut
          throw .timedOut

/-- Reads once: at least one byte, or the reason why there is none. -/
def read : ExceptT ConnectionError (Serving ν) Bytes := do
  let e ← get
  readBy e.readDeadline (e.incoming.script.length + 1)

/-- Reads with the given number of reads until the header is complete. -/
def readHeaderWithin : Nat → HeaderReader → ExceptT HttpError (Serving ν) HeaderReader
  | 0, _ => never
  | reads + 1, reader => do
    let data ← read.adapt .connection
    match reader.feed data with
    | (_, .error e) => throw (.request e)
    | (reader, .ok .finished) => return reader
    | (reader, .ok .needMoreData) => readHeaderWithin reads reader

/-- Reads until the header is complete. Every read brings at least one byte, so there is one more
read than the header may have bytes at most. -/
def readHeader : ExceptT HttpError (Serving ν) HeaderReader := do
  let limits := (← get).settings.limits
  readHeaderWithin (limits.maxBytes + 1) { limits }

/-- Gives bytes to a sink and what it took of them to its file. -/
def pour (sink : Sink) (record : SinkRecord) (data : Bytes) :
    Serving ν (SinkRecord × Except IoError Unit) := do
  let (filled, result) := sink.fill record data
  let taken := filled.received.drop record.received.length
  modify fun e => { e with
    files := match sink.file with
      | some path => e.files.append path taken
      | none => e.files }
  return (filled, result)

/-- Reads `left` more bytes into a sink. Every read brings at least one byte, so as many rounds are
enough. -/
def readOnward (sink : Sink) :
    (rounds left : Nat) → SinkRecord → Serving ν (SinkRecord × Except BodyError Unit)
  | 0, _, record => pure (record, .ok ())
  | rounds + 1, left, record =>
    if left = 0 then pure (record, .ok ())
    else do
      match ← read.run with
      | .error e => return (record, .error (.connection e))
      | .ok data =>
        match ← pour sink record (data.take left) with
        | (record, .error e) => return (record, .error (.sink e))
        | (record, .ok ()) => readOnward sink rounds (left - data.length) record

/-- Reads exactly `cap` bytes of the body into a sink, those first that arrived with the header. -/
def readCapped (sink : Sink) (cap : Nat) : Serving ν (SinkRecord × Except BodyError Nat) := do
  let leftover := ((← get).request.map Request.leftover).getD []
  modify fun e => e.changeRequest fun request => { request with leftover := leftover.drop cap }
  match ← pour sink {} (leftover.take cap) with
  | (record, .error e) => return (record, .error (.sink e))
  | (record, .ok ()) =>
    let left := cap - leftover.length
    match ← readOnward sink left left record with
    | (record, .error e) => return (record, .error e)
    | (record, .ok ()) =>
      let (record, result) := sink.conclude record
      return (record, (result.mapError .sink).map fun _ => cap)

/-- Reads the body into a sink, at most `limit` bytes of it unless `limit` is zero. Less than the
whole body is no error. -/
def readBody (sink : Sink) (limit : Nat) : Serving ν (SinkRecord × Except BodyError Nat) := do
  match (← get).request.bind fun request => request.header.contentLength? with
  | none => return ({}, .error .lengthRequired)
  | some announced => readCapped sink (if limit = 0 then announced else min announced limit)

end Serving

end HttpServer
