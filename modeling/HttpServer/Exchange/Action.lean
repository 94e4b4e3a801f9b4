import HttpServer.Exchange.Reading
import HttpServer.Exchange.Streaming
import HttpServer.Response.Change

/-!
# What handlers do

A handler is an `Action`: a program that performs one `Operation` at a time and goes on with its
reply. The operations are all that a handler can do to its exchange, so whatever holds of every
operation holds of every handler. A program can also panic; then nothing of it is done any more
(`Action.recover`).

Running a program performs its operations one after the other (`Action.run`).
-/

namespace HttpServer

/-- What a handler sees of its exchange. -/
structure View where
  request : Option Request
  response : Response
  handle : Handle
  /-- What proxies say about host and client is believed. -/
  trustProxy : Bool

namespace View

/-- The header was sent, or someone concluded the response, or the connection died. -/
def hasConcluded (v : View) : Bool := v.response.headerSent || v.handle.conclusion.hasConcluded

def path (v : View) : String := (v.request.map fun request => request.header.path).getD ""

def method (v : View) : String := (v.request.map fun request => request.header.method).getD ""

def field? (v : View) (name : String) : Option String :=
  v.request.bind fun request => request.header.field? name

def cookie? (v : View) (name : String) : Option String :=
  v.request.bind fun request => request.cookie? name

/-- The host name that the client addressed. -/
def hostname? (v : View) : Option String :=
  v.request.bind fun request => request.header.hostname? v.trustProxy

def ip? (v : View) : Option String :=
  (v.request.bind fun request => request.header.forwardedFor? v.trustProxy).orElse fun _ =>
    v.handle.remote.map fun address => address.ip.render

def port? (v : View) : Option Nat := v.handle.remote.map PeerAddress.port

end View

def Exchange.view {ν : Type} (e : Exchange ν) : View where
  request := e.request
  response := e.response
  handle := e.handle
  trustProxy := e.settings.trustProxy

/-- A way to send something to the peer. -/
inductive ResponseCall
  /-- Allows the client to send its body. -/
  | interim
  | header
  | text (body : String)
  | bytes (body : Bytes)
  | reader (source : Incoming) (length : Nat)
  | status (code : Nat)
  | redirect (url : String) (code : Nat)
  | finish

/-- A use of the files. -/
inductive FileCall
  /-- Looks up what a path leads to. -/
  | find (path : String)
  /-- Opens what a path leads to, for reading. -/
  | openRead (path : String)
  /-- Creates an empty file, or empties the one that is there. -/
  | create (path : String)
  /-- Removes a file, or a directory with all that is in it. -/
  | remove (path : String)

/-- What a use of the files is answered with. -/
def FileCall.Reply : FileCall → Type
  | .find _ => Except IoError FileEntry
  | .openRead _ => Except IoError FileEntry
  | .create _ => Except IoError (List String)
  | .remove _ => Except IoError Unit

def FileCall.path : FileCall → String
  | .find path => path
  | .openRead path => path
  | .create path => path
  | .remove path => path

/-- A use of the session pool. -/
inductive SessionCall
  /-- What an id refers to. -/
  | state (id : Option String)
  /-- What an id refers to, expired sessions being no different from unknown ones. -/
  | plainState (id : Option String)
  | create
  | get (id : String)
  | size

def SessionCall.Reply : SessionCall → Type
  | .state _ => SessionState
  | .plainState _ => SessionState
  | .create => String
  | .get _ => Option BasicSession
  | .size => Nat

/-- Something that a handler does. -/
inductive Operation (ν : Type)
  | note (entry : ν)
  | look
  | setParameters (parameters : NameMap)
  | patchCookie (name value : String)
  | readBody (sink : Sink) (limit : Nat)
  | change (change : HeaderChange)
  | respond (call : ResponseCall)
  | sendFile (path : String)
  | sendChunked (body : ChunkedBody ν)
  | stop
  | conclude
  /-- Marks the response as dead. -/
  | die
  /-- Takes the connection out of the registry. -/
  | unregister
  | sleep (ms : Nat)
  | file (call : FileCall)
  | session (call : SessionCall)

def Operation.Reply {ν : Type} : Operation ν → Type
  | .look => View
  | .readBody .. => SinkRecord × Except BodyError Nat
  | .respond _ => Except SendError Unit
  | .sendFile _ => Except SendError Bool
  | .sendChunked _ => Source × Except SendError Unit
  | .stop => Bool
  | .conclude => Bool
  | .unregister => Bool
  | .file call => call.Reply
  | .session call => call.Reply
  | _ => Unit

namespace SessionPool

/-- Creates a session under a fresh id. -/
def create (p : SessionPool) : SessionPool × String :=
  let id := p.mint p.minted
  ({ p with store := p.store.create id { id } p.clock p.clock, minted := p.minted + 1 }, id)

def perform (p : SessionPool) : (call : SessionCall) → SessionPool × call.Reply
  | .state id => let (store, state) := p.store.state id p.clock; ({ p with store }, state)
  | .plainState id => let (store, state) := p.store.plainState id p.clock; ({ p with store }, state)
  | .create => p.create
  | .get id => let (store, session) := p.store.get id p.clock; ({ p with store }, session)
  | .size => (p, p.store.size)

end SessionPool

namespace FileTree

/-- A failure of which the kind is known. -/
def failure {α : Type} (result : Except IoKind α) : Except IoError α :=
  result.mapError fun kind => ⟨kind, none⟩

def perform (t : FileTree) : (call : FileCall) → FileTree × call.Reply
  | .find path => (t, failure ((t.find path).map Prod.snd))
  | .openRead path => (t, failure ((t.openRead path).map Prod.snd))
  | .create path =>
    match t.create path with
    | .ok (tree, file) => (tree, .ok file)
    | .error kind => (t, .error ⟨kind, none⟩)
  | .remove path => let (tree, result) := t.remove path; (tree, failure result)

end FileTree

namespace Serving

variable {ν : Type}

def respond : ResponseCall → ExceptT SendError (Serving ν) Unit
  | .interim => sendContinue
  | .header => sendHeader
  | .text body => sendText body
  | .bytes body => sendBytes body
  | .reader source length => sendReader source length
  | .status code => sendStatus code
  | .redirect url code => redirect url code
  | .finish => finish

/-- Changes the registry and tells what came of it. -/
def changeRegistry (change : Registry → Nat → Registry × Bool) : Serving ν Bool := do
  let e ← get
  let (registry, done) := change e.registry e.connection
  set { e with registry }
  return done

def perform : (op : Operation ν) → Serving ν op.Reply
  | .note entry => modify fun e => e.note entry
  | .look => do return (← get).view
  | .setParameters parameters => modify fun e =>
    e.changeRequest fun request => { request with parameters }
  | .patchCookie name value => modify fun e => e.changeRequest (·.patchCookie name value)
  | .readBody sink limit => readBody sink limit
  | .change change => modify fun e => e.changeHeader change.apply
  | .respond call => (respond call).run
  | .sendFile path => (sendFile path).run
  | .sendChunked body => sendChunked body
  | .stop => changeRegistry Registry.stop
  | .conclude => changeRegistry Registry.conclude
  | .die => modify fun e => { e with registry := e.registry.modify e.connection Handle.die }
  | .unregister => changeRegistry Registry.remove
  | .sleep ms => sleep ms
  | .file call => do
    let e ← get
    let (files, reply) := e.files.perform call
    set { e with files }
    return reply
  | .session call => do
    let e ← get
    let (sessions, reply) := e.sessions.perform call
    set { e with sessions }
    return reply

end Serving

/-- A program of operations with a result. -/
inductive Action (ν : Type) (α : Type) : Type
  | done (result : α)
  /-- The program breaks off. -/
  | panic
  | perform (op : Operation ν) (next : op.Reply → Action ν α)

namespace Action

variable {ν α β : Type}

/-- Goes on with the result of a program. -/
def bind : Action ν α → (α → Action ν β) → Action ν β
  | .done result, next => next result
  | .panic, _ => .panic
  | .perform op rest, next => .perform op fun reply => (rest reply).bind next

instance : Monad (Action ν) where
  pure := .done
  bind := bind

/-- The result of a program, or nothing if it panicked. -/
def recover : Action ν α → Action ν (Option α)
  | .done result => .done (some result)
  | .panic => .done none
  | .perform op next => .perform op fun reply => (next reply).recover

/-- Runs a program: its result, or nothing if it panicked. -/
def run : Action ν α → Serving ν (Option α)
  | .done result => pure (some result)
  | .panic => pure none
  | .perform op next => do
    let reply ← Serving.perform op
    (next reply).run

def ofOperation (op : Operation ν) : Action ν op.Reply := .perform op .done

end Action

/-- Programs that can perform operations. -/
class Performs (ν : outParam Type) (m : Type → Type) where
  perform : (op : Operation ν) → m op.Reply

instance {ν : Type} : Performs ν (Action ν) where
  perform := Action.ofOperation

instance {ν ε : Type} : Performs ν (ExceptT ε (Action ν)) where
  perform op := ExceptT.lift (Action.ofOperation op)

/-- A program that can fail to answer a request. -/
abbrev Handling (ν : Type) := ExceptT HandlerError (Action ν)

/-- What answers a request. -/
abbrev Handler (ν : Type) := Handling ν Unit

/-- A program that can fail to send. -/
abbrev Answering (ν : Type) := ExceptT SendError (Action ν)

namespace Action

variable {ν : Type} {m : Type → Type} [Performs ν m]

def note (entry : ν) : m Unit := Performs.perform (.note entry)

/-- Looks at the exchange. -/
def look : m View := Performs.perform .look

def change (change : HeaderChange) : m Unit := Performs.perform (.change change)

/-- Makes a cookie visible to everyone who handles the request later. -/
def patchCookie (name value : String) : m Unit := Performs.perform (.patchCookie name value)

/-- Gives the request its parameters. -/
def setParameters (parameters : NameMap) : m Unit := Performs.perform (.setParameters parameters)

def file (call : FileCall) : m call.Reply := Performs.perform (.file call)

def session (call : SessionCall) : m call.Reply := Performs.perform (.session call)

/-- Sends something to the peer. -/
def respond (call : ResponseCall) : Answering ν Unit := ExceptT.mk (ofOperation (.respond call))

/-- Sends something to the peer, a failure of which becomes that of the handler. -/
def send (call : ResponseCall) : Handler ν := (respond call).adapt .send

/-- Reads the body into a sink, a failure of which becomes that of the handler. -/
def readBody (sink : Sink) (limit : Nat) : Handling ν Nat :=
  ExceptT.mk do
    let reply ← ofOperation (.readBody sink limit)
    return reply.2.mapError .body

end Action

end HttpServer
