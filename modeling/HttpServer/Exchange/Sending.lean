import HttpServer.Exchange.Waiting
import HttpServer.Response.MediaType

/-!
# Sending a response

The header of a response goes out exactly once: `Serving.sendHeader` writes it the first time and
does nothing after that. Every way to answer sends the header first and finishes the exchange
(`Serving.finish`): the writing side is shut down and the connection leaves the registry.

A status that goes without a body is corrected when there is one, and the other way round
(`ResponseHeader.correctStatus`).
-/

namespace HttpServer

namespace ResponseHeader

/-- Lets the status agree with whether there is a body. -/
def correctStatus (h : ResponseHeader) (hasBody : Bool) : ResponseHeader :=
  if h.code = 204 ∧ hasBody then h.setCode 200
  else if h.code = 200 ∧ !hasBody then h.setCode 204
  else h

/-- Announces the length of the body, if the status allows it and nothing else was said. -/
def announceLength (h : ResponseHeader) (length : Nat) : ResponseHeader :=
  if announcesLength h.code then h.trySetField "Content-Length" (decimal length) else h

/-- Announces that there is no body, if the status allows it and nothing was said of one. -/
def announceNoBody (h : ResponseHeader) : ResponseHeader :=
  if h.hasField "Content-Length" || h.hasField "Transfer-Encoding" then h else h.announceLength 0

/-- The line that allows a client to send its body. -/
def interimLine (h : ResponseHeader) : Bytes :=
  Utf8.ofString (protocol ++ "/" ++ h.version ++ " 100 Continue\r\n\r\n")

end ResponseHeader

namespace Exchange

variable {ν : Type}

/-- Shuts the writing side down, unless the connection was stopped. -/
def shutDown (e : Exchange ν) : Exchange ν :=
  if e.isStopped then e
  else { e with outgoing := { e.outgoing with shutdowns := e.outgoing.shutdowns + 1 } }

/-- The header counts as sent, and the response as concluded. -/
def markHeaderSent (e : Exchange ν) : Exchange ν :=
  { e with
    response := { e.response with headerSent := true }
    registry := (e.registry.conclude e.connection).1 }

def writeSize (e : Exchange ν) : Nat := max e.settings.writeBufferSize 1

end Exchange

namespace Serving

variable {ν : Type}

/-- Writes bytes to the peer and flushes them. -/
def transmit (data : Bytes) : ExceptT ConnectionError (Serving ν) Unit := do
  modify Exchange.checkpoint
  let e ← get
  if e.isStopped then throw .aborted
  let (outgoing, refusal) := e.outgoing.write data
  set { e with outgoing }
  match refusal with
  | some (.failure failure) => throw (.io failure)
  | some .silence =>
    (awaitStop : Serving ν Unit)
    throw .aborted
  | none =>
    match outgoing.flushFailure with
    | some failure => throw (.io failure)
    | none => return

/-- Allows the client to send its body, unless the header was sent. -/
def sendContinue : ExceptT SendError (Serving ν) Unit := do
  let response := (← get).response
  if !response.headerSent then (transmit response.header.interimLine).adapt .connection

/-- Sends the header, unless it was sent. A header that cannot be written leaves everything as it
is. -/
def sendHeader : ExceptT SendError (Serving ν) Unit := do
  let response := (← get).response
  if !response.headerSent then
    match response.header.writeTo [] with
    | (_, .error e) => throw e
    | (bytes, .ok ()) =>
      modify Exchange.markHeaderSent
      (transmit bytes).adapt .connection

/-- Finishes the exchange and releases the connection, whether or not the header could be sent. -/
def finish : ExceptT SendError (Serving ν) Unit := do
  modify fun e => if e.response.headerSent then e else e.changeHeader (·.announceNoBody)
  let sent ← ExceptT.lift sendHeader.run
  modify fun e => e.shutDown.unregister
  ExceptT.mk (pure sent)

/-- Sends a body of the given media type, if no other was set, and finishes. -/
def sendBody (mediaType : String) (body : Bytes) : ExceptT SendError (Serving ν) Unit := do
  modify fun e => e.changeHeader fun h =>
    ((h.trySetField "Content-Type" mediaType).correctStatus (body ≠ [])).announceLength body.length
  sendHeader
  if body ≠ [] then (transmit body).adapt .connection
  finish

def sendText (body : String) : ExceptT SendError (Serving ν) Unit :=
  sendBody plainTextType (Utf8.ofString body)

def sendBytes (body : Bytes) : ExceptT SendError (Serving ν) Unit := sendBody binaryType body

/-- Reads once from a source, however long it takes. -/
def readSource (size : Nat) : Nat → Incoming → ExceptT IoError (Serving ν) (Bytes × Incoming)
  | 0, _ => never
  | rounds + 1, source => do
    match source.poll size (← get).now with
    | (source, .bytes data) => return (data, source)
    | (_, .failure failure) => throw failure
    | (source, .later (some time)) =>
      (sleepUntil time : Serving ν Unit)
      readSource size rounds source
    | (_, .later none) => never

/-- Sends all that a source delivers, piece by piece. -/
def copySource : Nat → Incoming → ExceptT SendError (Serving ν) Unit
  | 0, _ => never
  | pieces + 1, source => do
    let size := (← get).writeSize
    let (data, source) ← (readSource size (source.script.length + 1) source).adapt .io
    if data ≠ [] then
      (transmit data).adapt .connection
      copySource pieces source

/-- Sends what a source delivers, announcing `length` bytes, and finishes. -/
def sendReader (source : Incoming) (length : Nat) : ExceptT SendError (Serving ν) Unit := do
  modify fun e => e.changeHeader fun h =>
    ((h.correctStatus (0 < length)).trySetField "Content-Type" binaryType).announceLength length
  sendHeader
  copySource (source.weight + 1) source
  finish

/-- Sends a file and finishes. False if no such file can be opened; then nothing was sent. -/
def sendFile (path : String) : ExceptT SendError (Serving ν) Bool := do
  match (← get).files.openRead path with
  | .ok (_, .file data) =>
    modify fun e => e.changeHeader fun h =>
      (h.trySetField "Content-Type" (mediaType path)).setCode 200
    sendReader (Incoming.ofBytes data) data.length
    return true
  | _ => return false

/-- Answers with a status and its reason phrase, or without a body if the status has none. -/
def sendStatus (code : Nat) : ExceptT SendError (Serving ν) Unit := do
  modify fun e => e.changeHeader fun h => h.setCode code
  if code = 204 then finish else sendText (reasonPhrase code)

/-- Points the client elsewhere and finishes. -/
def redirect (url : String) (code : Nat) : ExceptT SendError (Serving ν) Unit := do
  modify fun e => e.changeHeader fun h => (h.setField "Location" url).setCode code
  finish

end Serving

end HttpServer
