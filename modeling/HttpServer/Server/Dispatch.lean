import HttpServer.Routing.Router
import HttpServer.Exchange.Action

/-!
# Serving a connection

A connection carries one exchange. Its request header is read, the first route that agrees with it
answers if the session middleware lets the request pass, and whatever the handler did not finish is
finished for it (`Server.answer`). Errors that are nobody's intention go to the error hook. In the
end the connection leaves the registry (`Server.serve`).
-/

namespace HttpServer

/-- A server: what it answers and how. -/
structure Server (ν : Type) where
  router : Router (Handler ν)
  settings : Settings := {}
  /-- Hears of failures of the transport and the protocol. -/
  onError : Handle → HttpError → Action ν Unit := fun _ _ => pure ()
  /-- Runs when a read has missed its deadline. -/
  onTimeout : Action ν Unit := pure ()
  /-- Answers requests whose path no route covers. -/
  onMissing : Option (Handler ν) := none
  /-- Decides whether the handler of a matching route runs. -/
  guard : Answering ν Bool := pure true

namespace Server

variable {ν : Type}

/-- Tells the error hook of a failure. -/
def report (s : Server ν) (e : HttpError) : Action ν Unit := do
  s.onError (← Action.look).handle e

/-- Tells the error hook that sending failed, unless the connection was stopped on purpose. -/
def reportSend (s : Server ν) (e : SendError) : Action ν Unit :=
  if e.isAborted then pure () else s.report (.response e)

/-- Sends something; the error hook hears of it if that fails. -/
def send (s : Server ν) (call : ResponseCall) : Action ν Unit := do
  match ← (Action.respond call).run with
  | .ok () => return ()
  | .error e => s.reportSend e

/-- Sends something, unless the response is over. -/
def sendUnlessConcluded (s : Server ν) (call : ResponseCall) : Action ν Unit := do
  if !(← Action.look).hasConcluded then s.send call

/-- Answers an internal failure, unless the response is over. -/
def sendInternalError (s : Server ν) (call : ResponseCall) : Action ν Unit := do
  if !(← Action.look).hasConcluded then
    Action.change (.setCode 500)
    s.send call

/-- Deals with the failure of a handler. -/
def handlerFailed (s : Server ν) (e : HandlerError) : Action ν Unit := do
  match e with
  | .status code => s.sendUnlessConcluded (.status code)
  | .send e => s.reportSend e
  | .other reason =>
    s.sendInternalError (if s.settings.exposeFailures then .text reason else .finish)
  | .body e =>
    if e.isAborted then return ()
    else if (← Action.look).handle.timedOut then return ()
    else match e with
      | .connection _ =>
        s.report (.body e)
        s.sendUnlessConcluded .finish
      | _ => s.sendUnlessConcluded (.status e.status)

/-- Runs a handler and deals with its failure; one that panicked is answered for. -/
def invoke (s : Server ν) (handler : Handler ν) : Action ν Unit := do
  match ← handler.run.recover with
  | some (.ok ()) => return ()
  | some (.error e) => s.handlerFailed e
  | none => s.sendInternalError .finish

/-- Asks the session middleware; a failure of it refuses the request. -/
def permits (s : Server ν) : Action ν Bool := do
  match ← s.guard.run with
  | .ok permitted => return permitted
  | .error e =>
    s.reportSend e
    return false

/-- Finds the route of the request and lets it answer. -/
def dispatch (s : Server ν) : Action ν Unit := do
  let view ← Action.look
  match s.router.find? view.method view.path with
  | some route =>
    Action.setParameters (route.pattern.captures view.path)
    if ← s.permits then s.invoke route.handler
  | none =>
    match s.router.level view.method view.path, s.onMissing with
    | .path, _ => s.sendUnlessConcluded (.status 405)
    | _, some handler => s.invoke handler
    | _, none => s.sendUnlessConcluded (.status 404)

/-- Answers a request and finishes what was left unfinished. -/
def answer (s : Server ν) : Action ν Unit := do
  s.dispatch
  if (← Action.look).handle.timedOut then s.onTimeout else s.sendUnlessConcluded .finish

/-- Deals with a request header that never got complete. -/
def headerFailed (s : Server ν) (e : HttpError) : Action ν Unit := do
  match e with
  | .request _ =>
    s.report e
    s.send (.status 400)
  | .connection .timedOut => s.onTimeout
  | .connection .aborted => return ()
  | .connection .closed => return ()
  | _ => s.report e

/-- Serves the exchange of one connection. Nothing is left of it unless a hook panicked. -/
def serve (s : Server ν) : Serving ν (Option Unit) := do
  let program ← match ← Serving.readHeader.run with
    | .ok reader =>
      modify fun e => e.bind reader
      pure s.answer
    | .error e => pure (s.headerFailed e)
  match ← program.run with
  | none => return none
  | some () =>
    modify Exchange.unregister
    return some ()

/-- A new exchange of the server. -/
def accept (s : Server ν) (premises : Premises) (remote : Option PeerAddress) (incoming : Incoming)
    (outgoing : Outgoing) (agenda : List (Nat × Occurrence)) : Exchange ν :=
  Exchange.accept premises s.settings remote incoming outgoing agenda

end Server

end HttpServer
