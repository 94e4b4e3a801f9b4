import HttpServer.Error

/-!
# What a peer sends and accepts

The incoming side of a transport is the list of what will arrive, in order. Time passes only where
the list says so; a pause starts when someone first waits for what follows it and goes on while
nobody does. The outgoing side takes bytes up to a limit, if it has one, and does not take more.
-/

namespace HttpServer

/-- Something that arrives, or the time until something does. -/
inductive Arrival
  /-- Bytes that one read can deliver. -/
  | bytes (data : Bytes)
  /-- The next arrival comes so many milliseconds after someone waits for it. -/
  | pause (ms : Nat)
  | failure (e : IoError)
  | close
  /-- Nothing arrives, and the stream does not end either. -/
  | silence
  deriving DecidableEq

/-- A stream of bytes that is still to arrive. After the last arrival the stream has ended. -/
structure Incoming where
  script : List Arrival := []
  /-- When the pause in front is over, if it has started. -/
  due : Option Nat := none
  deriving DecidableEq

/-- What a read finds. -/
inductive Delivery
  /-- Bytes; none means that the stream has ended. -/
  | bytes (data : Bytes)
  | failure (e : IoError)
  /-- Nothing yet; something may come at the given time. -/
  | later (due : Option Nat)
  deriving DecidableEq

namespace Incoming

/-- A stream that delivers bytes and ends. -/
def ofBytes (data : Bytes) : Incoming := { script := if data = [] then [] else [.bytes data] }

/-- Bounds the reads that a stream can answer before it has ended. -/
def weight (i : Incoming) : Nat :=
  (i.script.map fun
    | .bytes data => data.length + 1
    | _ => 1).foldr (· + ·) 0

/-- Looks for what follows once the pauses in front are over. -/
def pollScript (size now : Nat) (due : Option Nat) : List Arrival → Incoming × Delivery
  | [] => ({}, .bytes [])
  | .close :: rest => ({ script := .close :: rest }, .bytes [])
  | .silence :: rest => ({ script := .silence :: rest }, .later none)
  | .failure e :: rest => ({ script := rest }, .failure e)
  | .bytes data :: rest =>
    if data.length ≤ size then ({ script := rest }, .bytes data)
    else ({ script := .bytes (data.drop size) :: rest }, .bytes (data.take size))
  | .pause ms :: rest =>
    let ending := due.getD (now + ms)
    if ending ≤ now then pollScript size now none rest
    else ({ script := .pause ms :: rest, due := some ending }, .later (some ending))

/-- Reads up to `size` bytes at a time, if there is anything to read. -/
def poll (i : Incoming) (size now : Nat) : Incoming × Delivery :=
  pollScript size now i.due i.script

end Incoming

/-- What becomes of bytes beyond the limit. -/
inductive Refusal
  | failure (e : IoError)
  /-- The write never ends. -/
  | silence
  deriving DecidableEq

/-- The peer's side of what is written. -/
structure Outgoing where
  written : Bytes := []
  /-- How many bytes are accepted in all; without bound if absent. -/
  limit : Option Nat := none
  refusal : Refusal := .failure ⟨.brokenPipe, none⟩
  /-- Each flush fails in this way. -/
  flushFailure : Option IoError := none
  /-- How often the writing side was shut down. -/
  shutdowns : Nat := 0
  deriving DecidableEq

namespace Outgoing

/-- How many of the bytes still fit. -/
def room (o : Outgoing) (data : Bytes) : Nat :=
  match o.limit with
  | none => data.length
  | some limit => min data.length (limit - o.written.length)

/-- Writes bytes as far as they fit; what stood in the way, if they did not. -/
def write (o : Outgoing) (data : Bytes) : Outgoing × Option Refusal :=
  let fitting := o.room data
  ({ o with written := o.written ++ data.take fitting },
    if fitting < data.length then some o.refusal else none)

end Outgoing

end HttpServer
