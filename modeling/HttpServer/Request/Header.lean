import HttpServer.Request.NameMap
import HttpServer.Text.Blank
import HttpServer.Text.Form
import HttpServer.Text.Number
import HttpServer.Text.Split

/-!
# Request headers

A `HeaderSection` holds a request header as it was received: the four parts of the request line, the
fields under the names they were sent with, and the cookies of all cookie lines. A `RequestHeader`
adds what the target says: the decoded path and the query. Both are read off the target alone, so
the received header stays as it is (`RequestHeader.ofSection`).
-/

namespace HttpServer

/-- A request header as it was received. -/
structure HeaderSection where
  method : String := ""
  target : String := ""
  protocol : String := ""
  version : String := ""
  fields : NameMap := .empty
  cookies : NameMap := .empty
  deriving DecidableEq

/-- The name and value of one cookie, trimmed; a cookie without `=` has the empty value. -/
def cookiePair (cs : List Char) : String × String :=
  match splitFirst? (· == '=') cs with
  | some (name, value) => (String.ofList (trim name), String.ofList (trim value))
  | none => (String.ofList cs, "")

/-- The cookies that the value of a cookie line names, in order. -/
def cookiePairs (value : String) : List (String × String) :=
  (((splitAll (· == ';') value.toList).map trim).filter (· ≠ [])).map cookiePair

/-- Records the cookies of one cookie line; a later cookie replaces an earlier one of its name. -/
def HeaderSection.addCookies (h : HeaderSection) (value : String) : HeaderSection :=
  { h with cookies := (cookiePairs value).foldl (fun m pair => m.insert pair.1 pair.2) h.cookies }

/-- Cuts a target at its first question mark or number sign: the path, and the query if there is
one. What follows a number sign belongs to neither. -/
def splitTarget (target : String) : String × Option String :=
  let cs := target.toList
  let path := cs.takeWhile fun c => c ≠ '?' && c ≠ '#'
  let query := match cs.dropWhile fun c => c ≠ '?' && c ≠ '#' with
    | '?' :: rest => some (String.ofList (rest.takeWhile (· ≠ '#')))
    | _ => none
  (String.ofList path, query)

/-- A request header with its target decoded. -/
structure RequestHeader extends HeaderSection where
  /-- The decoded path, without query and fragment. -/
  path : String
  /-- The decoded query; of several values for a name the last one stays. -/
  queries : NameMap
  deriving DecidableEq

namespace RequestHeader

/-- Decodes the target of a received header. -/
def ofSection (h : HeaderSection) : RequestHeader :=
  let (path, query) := splitTarget h.target
  { h with
    path := Percent.decodeText path
    queries := NameMap.ofList ((query.map Form.decode).getD []) }

/-- The value of a header field, whatever the case of its name. -/
def field? (h : RequestHeader) (name : String) : Option String := h.fields.field? name

def query? (h : RequestHeader) (name : String) : Option String := h.queries.get? name

def cookie? (h : RequestHeader) (name : String) : Option String := h.cookies.get? name

def line (h : RequestHeader) : String :=
  h.method ++ " " ++ h.target ++ " " ++ h.protocol ++ "/" ++ h.version

/-- The announced length of the body, if it is a number of at most 64 bits. -/
def contentLength? (h : RequestHeader) : Option Nat :=
  (h.field? "Content-Length").bind fun value => readLength? (trim value.toList)

/-- The client waits for permission before it sends the body. -/
def expectsContinue (h : RequestHeader) : Bool :=
  (h.field? "Expect").any fun value => sameName value "100-continue"

/-- A host without its port; a bracketed address loses its brackets too. -/
def stripPort (host : List Char) : List Char :=
  match host with
  | '[' :: rest =>
    match splitFirst? (· == ']') rest with
    | some (address, _) => address
    | none => host
  | _ =>
    match splitFirst? (· == ':') host.reverse with
    | some (_, name) => name.reverse
    | none => host

/-- The first element of a list separated by commas, trimmed. -/
def firstListed (value : String) : List Char := trim (value.toList.takeWhile (· ≠ ','))

/-- The host name that the client addressed. What a proxy says takes precedence where proxies are
trusted. -/
def hostname? (h : RequestHeader) (trustProxy : Bool) : Option String :=
  let forwarded := if trustProxy then h.field? "X-Forwarded-Host" else none
  (forwarded.orElse fun _ => h.field? "Host").map fun host =>
    String.ofList (stripPort (firstListed host))

/-- The client's address as a trusted proxy gives it. -/
def forwardedFor? (h : RequestHeader) (trustProxy : Bool) : Option String :=
  if trustProxy then
    ((h.field? "X-Forwarded-For").map firstListed).bind fun client =>
      if client = [] then none else some (String.ofList client)
  else none

end RequestHeader

end HttpServer
