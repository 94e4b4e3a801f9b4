import HttpServer.Response.Header

/-!
# Changes to a response header

Everything that a handler can do to the header of its response before it is sent, as data. The
header goes out as it is at that moment; later changes stay without effect on the wire.
-/

namespace HttpServer

/-- A change to a response header. -/
inductive HeaderChange
  | setCode (code : Nat)
  | setField (name value : String)
  /-- Sets a field that is not there yet. -/
  | trySetField (name value : String)
  | appendField (name value : String)
  | removeField (name : String)
  | addCookie (cookie : Cookie)
  | setMessage (message : String)
  | setVersion (version : String)
  deriving DecidableEq

def HeaderChange.apply (c : HeaderChange) (h : ResponseHeader) : ResponseHeader :=
  match c with
  | .setCode code => h.setCode code
  | .setField name value => h.setField name value
  | .trySetField name value => h.trySetField name value
  | .appendField name value => h.appendField name value
  | .removeField name => h.removeField name
  | .addCookie cookie => h.addCookie cookie
  | .setMessage message => h.setMessage message
  | .setVersion version => h.setVersion version

end HttpServer
