import HttpServer.Connection.Address
import HttpServer.Response.Conclusion

/-!
# Connection handles and their registry

A `Handle` is the part of a connection that everyone may hold: it can be stopped once, which marks
the response behind it as dead. The `Registry` numbers the connections it creates and knows which of
them live. Taking a connection out of the registry stops it, and that is the only way it ends.
Handles stay known after that, since others may still hold them.
-/

namespace HttpServer

/-- The shared part of a connection. -/
structure Handle where
  id : Nat
  remote : Option PeerAddress := none
  /-- The connection was stopped. -/
  stopped : Bool := false
  /-- A read of the connection missed its deadline. -/
  timedOut : Bool := false
  conclusion : Conclusion := {}
  /-- A stopped connection leaves no response alive. -/
  dead_of_stopped : stopped = true → conclusion.alive = false := by simp
  deriving DecidableEq

namespace Handle

def fresh (id : Nat) (remote : Option PeerAddress) : Handle := { id, remote }

/-- Stops a connection; true for the first one to do so. -/
def stop (h : Handle) : Handle × Bool :=
  if h.stopped then (h, false)
  else ({ h with
    stopped := true
    conclusion := h.conclusion.die
    dead_of_stopped := fun _ => rfl }, true)

def markTimedOut (h : Handle) : Handle := { h with timedOut := true }

/-- Concludes the response; true for the first one to do so. -/
def conclude (h : Handle) : Handle × Bool :=
  ({ h with
    conclusion := h.conclusion.conclude.1
    dead_of_stopped := h.dead_of_stopped }, h.conclusion.conclude.2)

/-- Marks the response as dead without stopping the connection. -/
def die (h : Handle) : Handle :=
  { h with conclusion := h.conclusion.die, dead_of_stopped := fun _ => rfl }

/-- The handle's name in logs. -/
def render (h : Handle) : String :=
  match h.remote with
  | some address => "#" ++ decimal h.id ++ " (" ++ address.render ++ ")"
  | none => "#" ++ decimal h.id

end Handle

/-- All connections ever created, and which of them are registered. -/
structure Registry where
  /-- The handles, oldest first; the number of a connection is its place. -/
  handles : List Handle := []
  /-- The numbers of the registered connections, oldest first. -/
  live : List Nat := []

namespace Registry

/-- Registers a new connection under the next number. -/
def create (r : Registry) (remote : Option PeerAddress) : Registry × Handle :=
  let handle := Handle.fresh r.handles.length remote
  ({ handles := r.handles ++ [handle], live := r.live ++ [handle.id] }, handle)

/-- The handle of a connection, registered or not. -/
def handle? (r : Registry) (id : Nat) : Option Handle := r.handles[id]?

def modify (r : Registry) (id : Nat) (change : Handle → Handle) : Registry :=
  { r with handles := r.handles.modify id change }

def contains (r : Registry) (id : Nat) : Bool := r.live.contains id

def size (r : Registry) : Nat := r.live.length

/-- Stops a connection; true if it ran until now. -/
def stop (r : Registry) (id : Nat) : Registry × Bool :=
  (r.modify id fun h => h.stop.1, (r.handle? id).any fun h => h.stop.2)

/-- Concludes the response of a connection; true for the first one to do so. -/
def conclude (r : Registry) (id : Nat) : Registry × Bool :=
  (r.modify id fun h => h.conclude.1, (r.handle? id).any fun h => h.conclude.2)

/-- Takes a connection out and stops it; false if it was not registered. -/
def remove (r : Registry) (id : Nat) : Registry × Bool :=
  if r.contains id then ({ (r.stop id).1 with live := r.live.filter (· != id) }, true)
  else (r, false)

/-- Takes out and stops every registered connection. -/
def clear (r : Registry) : Registry :=
  { r.live.foldl (fun registry id => (registry.stop id).1) r with live := [] }

end Registry

end HttpServer
