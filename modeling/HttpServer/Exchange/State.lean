import HttpServer.Connection.Registry
import HttpServer.Connection.Transport
import HttpServer.Files.Tree
import HttpServer.Request.Basic
import HttpServer.Response.Header
import HttpServer.Server.Settings
import HttpServer.Session.Store
import HttpServer.Stream.Feed

/-!
# Exchanges

An `Exchange` is everything that one request and its response touch: both directions of the
transport, the registry of connections, the request and the response, a body that other tasks feed,
the files and the sessions, and the journal in which the application notes what it saw. Serving an
exchange is a computation on this state (`Serving`). It may also never come to an end, because
someone waits for what never happens.

Time is counted in milliseconds from the start of the exchange and passes only while the exchange
waits. What other tasks do at set times stands in the agenda. Another thread may also stop the
connection between two of its uses, while no time passes at all (`Exchange.checkpoint`).
-/

namespace HttpServer

/-- The notes that the callbacks of a fed body leave in the journal. -/
structure StreamNotes (ν : Type) where
  ended : Option IoError → ν
  writeFailed : IoError → ν
  feedFailed : IoError → ν

/-- A body that is being fed while it is sent. -/
structure BodyStream (ν : Type) where
  source : Source
  /-- The writer has been woken since it last waited. -/
  woken : Bool := false
  notes : StreamNotes ν
  /-- How many bytes the source shows as available when it has so many. -/
  shown : Nat → Nat := id

/-- Something that another task does. -/
inductive Occurrence
  /-- Every connection is taken out of the registry. -/
  | clearRegistry
  | feed (batch : List Feed)
  deriving DecidableEq

/-- The sessions of a server, with the ids that it will give to new ones. -/
structure SessionPool where
  store : SessionStore BasicSession := {}
  /-- The id of the session that is created after so many others. -/
  mint : Nat → String
  minted : Nat := 0
  /-- The clock by which sessions age, in nanoseconds. -/
  clock : Nat := 0

/-- What exchanges have in common. -/
structure Premises where
  registry : Registry := {}
  files : FileTree := {}
  sessions : SessionPool

/-- A response: its header, and whether the header was sent. -/
structure Response where
  header : ResponseHeader := {}
  headerSent : Bool := false
  deriving DecidableEq

/-- The state of one exchange. -/
structure Exchange (ν : Type) extends Premises where
  settings : Settings := {}
  /-- The number of the connection. -/
  connection : Nat
  incoming : Incoming
  outgoing : Outgoing
  /-- The time in milliseconds. -/
  now : Nat := 0
  /-- What other tasks will do and when, soonest first. -/
  agenda : List (Nat × Occurrence) := []
  /-- How many more uses of the connection begin before another thread stops it, if one does. -/
  cutOff : Option Nat := none
  /-- The request, once its header is complete. -/
  request : Option Request := none
  response : Response := {}
  /-- The body that is being fed. -/
  stream : Option (BodyStream ν) := none
  /-- The notes of the application, oldest first. -/
  journal : List ν := []

/-- A computation on an exchange that may never end. -/
abbrev Serving (ν : Type) := OptionT (StateM (Exchange ν))

namespace Exchange

variable {ν : Type}

/-- A new exchange on a fresh connection. -/
def accept (premises : Premises) (settings : Settings) (remote : Option PeerAddress)
    (incoming : Incoming) (outgoing : Outgoing) (agenda : List (Nat × Occurrence)) : Exchange ν :=
  let (registry, handle) := premises.registry.create remote
  { premises with registry, settings, connection := handle.id, incoming, outgoing, agenda }

def handle (e : Exchange ν) : Handle :=
  (e.registry.handle? e.connection).getD (Handle.fresh e.connection none)

def isStopped (e : Exchange ν) : Bool := e.handle.stopped

/-- The header was sent, or someone concluded the response, or the connection died. -/
def hasConcluded (e : Exchange ν) : Bool :=
  e.response.headerSent || e.handle.conclusion.hasConcluded

def note (e : Exchange ν) (entry : ν) : Exchange ν := { e with journal := e.journal ++ [entry] }

/-- Takes the connection out of the registry, which stops it. -/
def unregister (e : Exchange ν) : Exchange ν :=
  { e with registry := (e.registry.remove e.connection).1 }

/-- A use of the connection begins. Another thread may be faster and stop it. -/
def checkpoint (e : Exchange ν) : Exchange ν :=
  match e.cutOff with
  | none => e
  | some 0 => { e with cutOff := none, registry := (e.registry.stop e.connection).1 }
  | some (uses + 1) => { e with cutOff := some uses }

def changeHeader (e : Exchange ν) (change : ResponseHeader → ResponseHeader) : Exchange ν :=
  { e with response := { e.response with header := change e.response.header } }

def changeRequest (e : Exchange ν) (change : Request → Request) : Exchange ν :=
  { e with request := e.request.map change }

def changeStream (e : Exchange ν) (change : BodyStream ν → BodyStream ν) : Exchange ν :=
  { e with stream := e.stream.map change }

/-- Binds the exchange to a request whose header is complete. -/
def bind (e : Exchange ν) (reader : HeaderReader) : Exchange ν :=
  { e with request := some {
      header := RequestHeader.ofSection reader.header
      leftover := reader.buffer } }

end Exchange

end HttpServer
