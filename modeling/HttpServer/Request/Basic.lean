import HttpServer.Request.Header

/-!
# Requests

A request is its received header, which never changes, together with what handling adds to it: the
parameters of the matching route, cookies patched in by the session middleware, and the bytes that
arrived with the header and belong to the body.
-/

namespace HttpServer

/-- A request being handled. -/
structure Request where
  header : RequestHeader
  /-- The parameters that the route captured. -/
  parameters : NameMap := .empty
  /-- Cookies that count as sent although the client did not send them. -/
  patchedCookies : NameMap := .empty
  /-- Body bytes that arrived with the header and were not read yet. -/
  leftover : Bytes := []
  deriving DecidableEq

namespace Request

/-- The value of a cookie; one that was patched in comes first. -/
def cookie? (r : Request) (name : String) : Option String :=
  (r.patchedCookies.get? name).orElse fun _ => r.header.cookie? name

/-- Makes a cookie visible to everyone who handles the request later. -/
def patchCookie (r : Request) (name value : String) : Request :=
  { r with patchedCookies := r.patchedCookies.insert name value }

end Request

end HttpServer
