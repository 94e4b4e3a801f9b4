import HttpServer.Exchange.Action
import HttpServer.Session.Credentials

/-!
# The session middleware

A request with a live session passes. Without one the authorizer decides; if it allows the request,
a session is created, its id goes to the client in a cookie, and the request is treated as if it had
come with that cookie (`SessionControl.permits`). Where the authorizer has concluded the response
itself, its verdict does not count.
-/

namespace HttpServer

/-- Where sessions are kept. -/
structure SessionStorage (ν : Type) where
  /-- What the id that a client sent refers to. -/
  state : Option String → Action ν SessionState
  create : Action ν String
  /-- The live session of an id. -/
  get : String → Action ν (Option BasicSession)

/-- The session pool of the server as a storage. -/
def SessionStorage.pool {ν : Type} : SessionStorage ν where
  state id := Action.session (.state id)
  create := Action.session .create
  get id := Action.session (.get id)

/-- What an authorizer makes of a request without a live session. -/
inductive Verdict
  /-- A session is created, and the request goes on to its handler. -/
  | allowed
  /-- A session is created, but the request ends here. -/
  | allowedButStop
  /-- The credentials are wrong. -/
  | denied
  /-- There are no credentials of a known scheme. -/
  | negotiate
  /-- The credentials are malformed. -/
  | badRequest
  deriving DecidableEq

/-- Decides about requests without a live session. -/
structure Authorizer (ν : Type) where
  /-- Tells the client how to authenticate. -/
  negotiate : Answering ν Unit
  authorize : Answering ν Verdict

namespace Authorizer

variable {ν : Type}

/-- The challenge of basic authentication. -/
def basicChallenge (realm : String) : String :=
  "Basic realm=\"" ++ realm ++ "\", charset=\"UTF-8\""

/-- Basic authentication against a check of user and password. -/
def basic (realm : String) (check : Credentials → Bool) : Authorizer ν where
  negotiate := do
    Action.change (.appendField "WWW-Authenticate" (basicChallenge realm))
    Action.change (.setCode 401)
    Action.respond .finish
  authorize := do
    let view ← Action.look
    match (view.field? "Authorization").map Credentials.decode with
    | none => return .negotiate
    | some (.ok none) => return .negotiate
    | some (.ok (some credentials)) =>
      if check credentials then return .allowed
      else
        Action.change (.setCode 401)
        Action.respond .finish
        return .denied
    | some (.error fault) =>
      Action.change (.setCode 400)
      Action.respond (.text fault.message)
      return .badRequest

end Authorizer

/-- The session middleware and its settings. -/
structure SessionControl (ν : Type) where
  storage : SessionStorage ν
  authorizer : Authorizer ν
  cookieName : String := "session"
  /-- The attributes of the cookie that carries the id. -/
  cookieTemplate : Cookie := { path := some "/", httpOnly := true }
  /-- Requests for the options of a resource pass without a session. -/
  allowsOptions : Bool := false
  /-- Runs before the authorizer. -/
  conditioner : Action ν Unit := pure ()
  /-- The only path on which sessions can be started. -/
  authenticationPath : Option String := none

namespace SessionControl

variable {ν : Type}

/-- The cookie that carries an id. -/
def cookie (c : SessionControl ν) (id : String) : Cookie :=
  { c.cookieTemplate with name := c.cookieName, value := id }

/-- The live session of the request, if it has one. -/
def session? (c : SessionControl ν) : Action ν (Option BasicSession) := do
  match (← Action.look).cookie? c.cookieName with
  | some id => c.storage.get id
  | none => return none

/-- Creates a session for the request. -/
def startSession (c : SessionControl ν) : Action ν Unit := do
  let id ← c.storage.create
  Action.change (.addCookie (c.cookie id))
  Action.patchCookie c.cookieName id

/-- Ends the response with a status, unless it is over. The request does not pass. -/
def refuse (code : Nat) : Answering ν Bool := do
  let view ← Action.look
  if !view.hasConcluded then
    Action.change (.setCode code)
    Action.respond .finish
  return false

/-- Acts on the verdict of the authorizer. -/
def enforce (c : SessionControl ν) (verdict : Verdict) : Answering ν Bool :=
  match verdict with
  | .allowed => do
    c.startSession
    return true
  | .allowedButStop => do
    c.startSession
    refuse 204
  | .denied => refuse 401
  | .badRequest => refuse 400
  | .negotiate => do
    c.authorizer.negotiate
    return false

/-- Lets the authorizer decide. -/
def authenticate (c : SessionControl ν) : Answering ν Bool := do
  c.conditioner
  let verdict ← c.authorizer.authorize
  let view ← Action.look
  if view.handle.conclusion.hasConcluded then return false
  c.enforce verdict

/-- Decides whether the handler of a request runs. -/
def permits (c : SessionControl ν) : Answering ν Bool := do
  let view ← Action.look
  let state ← c.storage.state (view.cookie? c.cookieName)
  if state = .live then return true
  else if c.allowsOptions ∧ view.method = "OPTIONS" then return true
  else if c.authenticationPath.any (· != view.path) then refuse 401
  else c.authenticate

end SessionControl

end HttpServer
