import HttpServer.Error

/-!
# Producers

A producer is a queue of bytes between an application, which pushes, and a writer, which takes from
the front. It is complete once the application finishes it or production ends; what is pushed after
that is dropped. Callbacks are named by tags. Each operation says which of them ran, and why: the
produce callback whenever the writer should look again, the finish callback once at the end of
production, the error callback when a write failed.
-/

namespace HttpServer

/-- A callback that ran. -/
inductive Signal (τ : Type)
  /-- The writer should look again. -/
  | produced (tag : τ)
  /-- Production ended, well or with a failure. -/
  | ended (tag : τ) (failure : Option IoError)
  /-- A write failed. -/
  | failed (tag : τ) (e : IoError)
  deriving DecidableEq

/-- Bytes on their way from an application to a writer. -/
structure Producer (τ : Type) where
  /-- The bytes that the writer has not taken yet. -/
  buffer : Bytes := []
  /-- No more bytes will be appended. -/
  complete : Bool := false
  /-- How the bytes are encoded, empty if they are not. -/
  encoding : String := ""
  onProduce : Option τ := none
  onFinish : Option τ := none
  onError : Option τ := none
  deriving DecidableEq

namespace Producer

variable {τ : Type}

def available (p : Producer τ) : Nat := p.buffer.length

/-- The produce callback runs. -/
def signals (p : Producer τ) : List (Signal τ) := p.onProduce.toList.map .produced

/-- Appends bytes, unless there are none or the producer is complete. -/
def push (p : Producer τ) (data : Bytes) : Producer τ × List (Signal τ) :=
  if data = [] ∨ p.complete then (p, [])
  else ({ p with buffer := p.buffer ++ data }, p.signals)

/-- Makes the writer look again. -/
def flush (p : Producer τ) : Producer τ × List (Signal τ) := (p, p.signals)

/-- Ends the stream of bytes; those in the buffer can still be taken. -/
def finish (p : Producer τ) : Producer τ × List (Signal τ) :=
  ({ p with complete := true }, p.signals)

/-- Takes bytes from the front; the writer should look again if some are left. -/
def consume (p : Producer τ) (amount : Nat) : Producer τ × List (Signal τ) :=
  let rest := p.buffer.drop amount
  ({ p with buffer := rest }, if rest = [] then [] else p.signals)

/-- Ends production. The finish callback runs and is forgotten. -/
def endProduction (p : Producer τ) (failure : Option IoError) : Producer τ × List (Signal τ) :=
  ({ p with complete := true, onFinish := none },
    p.onFinish.toList.map fun tag => .ended tag failure)

def reportError (p : Producer τ) (e : IoError) : List (Signal τ) :=
  p.onError.toList.map fun tag => .failed tag e

/-- The producer's name in logs. -/
def render (p : Producer τ) : String :=
  "StreamingProducer \x7b available: " ++ decimal p.available ++
    ", completed: " ++ (if p.complete then "true" else "false") ++
    ", encoding: " ++ quoted p.encoding ++ ", .. \x7d"

end Producer

end HttpServer
