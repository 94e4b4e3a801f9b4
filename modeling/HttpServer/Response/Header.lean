import HttpServer.Error
import HttpServer.Response.Cookie
import HttpServer.Response.Status
import HttpServer.Text.Caseless

/-!
# Response headers

A `ResponseHeader` is an ordered list of fields whose names are compared without case: setting a
known field replaces its value where it stands, appending joins the new value to the old one with a
comma, and a new field goes to the end under the spelling it came with. `ResponseHeader.writeTo`
puts the status line, the fields, one line per cookie and the closing empty line behind what a
buffer already holds, or leaves the buffer alone if some piece could break the framing.
-/

namespace HttpServer

/-- The fields of a response, in the order in which they were first set. -/
abbrev FieldList := List (String × String)

namespace FieldList

/-- The value of a field, whatever the case of its name. -/
def get? (fields : FieldList) (name : String) : Option String :=
  (fields.find? fun field => sameName field.1 name).map Prod.snd

def has (fields : FieldList) (name : String) : Bool := (get? fields name).isSome

/-- Gives a field a value: where it stands, or at the end. -/
def set (name value : String) : FieldList → FieldList
  | [] => [(name, value)]
  | (key, old) :: rest =>
    if sameName key name then (key, value) :: rest else (key, old) :: set name value rest

/-- Adds a value to a field, behind a comma if it has one already. -/
def append (name value : String) : FieldList → FieldList
  | [] => [(name, value)]
  | (key, old) :: rest =>
    if sameName key name then (key, old ++ ", " ++ value) :: rest
    else (key, old) :: append name value rest

def remove (name : String) : FieldList → FieldList
  | [] => []
  | (key, old) :: rest => if sameName key name then rest else (key, old) :: remove name rest

end FieldList

/-- The status line, the fields and the cookies of a response. -/
structure ResponseHeader where
  version : String := "1.1"
  code : Nat := 204
  /-- The status message if it is not the reason phrase of the code. -/
  customMessage : Option String := none
  fields : FieldList := []
  cookies : List Cookie := []
  deriving DecidableEq

namespace ResponseHeader

/-- The protocol of every response. -/
def protocol : String := "HTTP"

/-- The status message: the custom one, or the reason phrase of the code. -/
def message (h : ResponseHeader) : String := h.customMessage.getD (reasonPhrase h.code)

/-- Sets the status code, which takes back a custom message. -/
def setCode (h : ResponseHeader) (code : Nat) : ResponseHeader :=
  { h with code, customMessage := none }

def setMessage (h : ResponseHeader) (message : String) : ResponseHeader :=
  { h with customMessage := some message }

def setVersion (h : ResponseHeader) (version : String) : ResponseHeader := { h with version }

def field? (h : ResponseHeader) (name : String) : Option String := h.fields.get? name

def hasField (h : ResponseHeader) (name : String) : Bool := h.fields.has name

def setField (h : ResponseHeader) (name value : String) : ResponseHeader :=
  { h with fields := h.fields.set name value }

/-- Gives a field a value unless it has one. -/
def trySetField (h : ResponseHeader) (name value : String) : ResponseHeader :=
  if h.hasField name then h else h.setField name value

/-- Adds a value to a field. -/
def appendField (h : ResponseHeader) (name value : String) : ResponseHeader :=
  { h with fields := h.fields.append name value }

def removeField (h : ResponseHeader) (name : String) : ResponseHeader :=
  { h with fields := h.fields.remove name }

def addCookie (h : ResponseHeader) (cookie : Cookie) : ResponseHeader :=
  { h with cookies := h.cookies ++ [cookie] }

/-- The value of a link field for pairs of a relation and an address. -/
def linkValue (links : List (String × String)) : String :=
  ", ".intercalate (links.map fun (rel, url) => "<" ++ url ++ ">; rel=\"" ++ rel ++ "\"")

/-- A character that may occur in a header name. -/
def isTokenChar (c : Char) : Bool :=
  c.isAlphanum || "!#$%&'*+-.^_\x60|~".toList.contains c

/-- The greatest length of a header name. -/
def maxNameLength : Nat := 65535

/-- A header name: at least one character, all of them allowed, and no more than fit. Each of them
is one byte, so characters count as bytes. -/
def isToken (name : String) : Bool :=
  name.toList != [] && name.toList.all isTokenChar && name.toList.length ≤ maxNameLength

/-- A byte that may occur in a header value: no control but the tab. -/
def isValueByte (b : UInt8) : Bool := (0x20 ≤ b.toNat && b.toNat != 0x7F) || b.toNat == 9

/-- A text that may stand as a header value. -/
def isValue (value : String) : Bool := (Utf8.ofString value).all isValueByte

/-- What keeps one header line from being written, the name coming first. -/
def lineFault? (name value : String) : Option HeaderFault :=
  if !isToken name then some (.fieldName name)
  else if !isValue value then some (.fieldValue name)
  else none

/-- The name of the line that sets a cookie. -/
def cookieField : String := "Set-Cookie"

/-- The lines behind the status line: the fields, then the cookies. -/
def lines (h : ResponseHeader) : FieldList :=
  h.fields ++ h.cookies.map fun cookie => (cookieField, cookie.render)

/-- The first thing that keeps a header from being written. -/
def fault? (h : ResponseHeader) : Option HeaderFault :=
  if h.message.toList.any fun c => c == '\r' || c == '\n' then some (.statusMessage h.message)
  else h.lines.findSome? fun line => lineFault? line.1 line.2

/-- The end of a line on the wire. -/
def lineEnd : Bytes := [0x0D, 0x0A]

/-- The status line without its end. -/
def statusLine (h : ResponseHeader) : String :=
  protocol ++ "/" ++ h.version ++ " " ++ decimal h.code ++ " " ++ h.message

/-- A header on the wire, whatever its pieces hold. -/
def toBytes (h : ResponseHeader) : Bytes :=
  Utf8.ofString h.statusLine ++ lineEnd ++
    (h.lines.flatMap fun line => Utf8.ofString (line.1 ++ ": " ++ line.2) ++ lineEnd) ++ lineEnd

/-- Writes a header behind the contents of a buffer; a header that cannot be written leaves the
buffer alone. -/
def writeTo (h : ResponseHeader) (buffer : Bytes) : Bytes × Except SendError Unit :=
  match h.fault? with
  | some fault => (buffer, .error (.invalidHeader fault))
  | none => (buffer ++ h.toBytes, .ok ())

/-- Cuts what was sent in two: the header with the empty line that closes it, and the rest. -/
def cutBlock : Bytes → Bytes × Bytes
  | 0x0D :: 0x0A :: 0x0D :: 0x0A :: rest => (lineEnd ++ lineEnd, rest)
  | b :: rest => let (block, rest) := cutBlock rest; (b :: block, rest)
  | [] => ([], [])

end ResponseHeader

end HttpServer
