import HttpServer.Exchange.State

/-!
# Waiting

An exchange waits until a condition holds or a deadline passes, whichever comes first
(`Serving.await`). Meanwhile other tasks do what the agenda says, in its order; at the deadline the
exchange goes on before any task that is due at the same time. Nobody waits beyond the horizon: an
exchange that would have to never ends.
-/

namespace HttpServer

namespace Exchange

variable {ν : Type}

/-- The time after which nothing is waited for. -/
def horizon : Nat := 100000 * 1000

/-- Runs a callback of the producer that is fed. -/
def signal (e : Exchange ν) (s : Signal FeedTag) : Exchange ν :=
  match e.stream, s with
  | none, _ => e
  | some _, .produced _ => e.changeStream fun stream => { stream with woken := true }
  | some stream, .ended _ failure => e.note (stream.notes.ended failure)
  | some stream, .failed _ failure => e.note (stream.notes.writeFailed failure)

/-- Does one thing to the body that is fed. -/
def feed (e : Exchange ν) (f : Feed) : Exchange ν :=
  match e.stream with
  | none => e
  | some stream =>
    let (source, signals, result) := stream.source.feed f
    let fed := signals.foldl signal (e.changeStream fun stream => { stream with source })
    match f, result with
    | .unregister, _ => fed.unregister
    | _, .ok () => fed
    | _, .error failure => fed.note (stream.notes.feedFailed failure)

/-- Another task does its part. -/
def undergo (e : Exchange ν) : Occurrence → Exchange ν
  | .clearRegistry => { e with registry := e.registry.clear }
  | .feed batch => batch.foldl feed e

/-- Lets time pass up to a moment that may lie in the past. -/
def passTo (e : Exchange ν) (time : Nat) : Exchange ν := { e with now := max e.now time }

end Exchange

/-- How waiting came to its end. -/
inductive Awaited
  | fulfilled
  | expired
  deriving DecidableEq

namespace Serving

variable {ν : Type}

/-- Nothing happens before the deadline, if there is one. -/
def expire (deadline : Option Nat) (e : Exchange ν) : Option Awaited × Exchange ν :=
  match deadline with
  | some time =>
    if time ≤ Exchange.horizon then (some .expired, e.passTo time) else (none, e)
  | none => (none, e)

/-- Waits while other tasks go through their agenda. -/
def awaitAmong (ready : Exchange ν → Bool) (deadline : Option Nat) :
    List (Nat × Occurrence) → Exchange ν → Option Awaited × Exchange ν
  | [], e => if ready e then (some .fulfilled, e) else expire deadline e
  | (time, occurrence) :: rest, e =>
    if ready e then (some .fulfilled, e)
    else if deadline.any (· ≤ time) then expire deadline e
    else if Exchange.horizon < time then (none, e)
    else awaitAmong ready deadline rest
      (({ e with agenda := rest }.passTo time).undergo occurrence)

/-- Waits until a condition holds or a deadline passes. -/
def await (ready : Exchange ν → Bool) (deadline : Option Nat) : Serving ν Awaited :=
  OptionT.mk fun e => awaitAmong ready deadline e.agenda e

/-- Waits until the connection is stopped. -/
def awaitStop : Serving ν Unit := do
  let _ ← await Exchange.isStopped none

/-- Waits until a moment has come. -/
def sleepUntil (time : Nat) : Serving ν Unit := do
  let _ ← await (fun _ => false) (some time)

def sleep (ms : Nat) : Serving ν Unit := do
  sleepUntil ((← get).now + ms)

/-- Waits for nothing, so it never ends. -/
def never {α : Type} : Serving ν α := do
  let _ ← await (fun _ => false) none
  failure

end Serving

end HttpServer
