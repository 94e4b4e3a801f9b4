import HttpServer.Connection.Address
import HttpServer.Server.Dispatch

/-!
# Building servers

A server needs a router. An address is optional, but a server without one cannot be started; one
that does not have the form of an address keeps the server from being built.
-/

namespace HttpServer

/-- Why a server could not be built. -/
inductive BuildError
  | missingRouter
  | invalidAddress (e : IoError)
  deriving DecidableEq

def BuildError.message : BuildError → String
  | .missingRouter => "router must be set"
  | .invalidAddress e => "address cannot be resolved: " ++ e.message

/-- What a server is built from. -/
structure ServerBuilder (ν : Type) where
  router : Option (Router (Handler ν)) := none
  settings : Settings := {}
  /-- The address to listen on, as it is written. -/
  address : Option String := none

/-- A server with the address it listens on. -/
structure Listener (ν : Type) where
  server : Server ν
  address : Option String := none

def ServerBuilder.build {ν : Type} (b : ServerBuilder ν) : Except BuildError (Listener ν) := do
  match b.router with
  | none => throw .missingRouter
  | some router =>
    match b.address.map PeerAddress.check with
    | some (.error e) => throw (.invalidAddress e)
    | _ => return { server := { router, settings := b.settings }, address := b.address }

/-- The address that a server can be started on. -/
def Listener.startAddress {ν : Type} (l : Listener ν) : Except IoError String :=
  match l.address with
  | some address => .ok address
  | none => .error ⟨.invalidInput, some "no address configured"⟩

end HttpServer
