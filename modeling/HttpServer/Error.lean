import HttpServer.Text.Utf8
import HttpServer.Text.Quoted
import HttpServer.Text.Number

/-!
# What can go wrong

One type per layer, its constructors the causes: operations of the system underneath (`IoError`),
reading a request header (`ParseError`), the connection (`ConnectionError`), reading a body
(`BodyError`), sending a response (`SendError`), and a route handler (`HandlerError`). `HttpError`
joins the first ones for the error hook. Each has its wording in a function `message`.
-/

namespace HttpServer

/-- The kinds of failure of the system underneath. -/
inductive IoKind
  | notFound | permissionDenied | connectionReset | connectionAborted | brokenPipe | unexpectedEof
  | timedOut | writeZero | invalidInput | invalidData | interrupted | notADirectory | isADirectory
  | invalidFilename | other
  deriving DecidableEq

/-- The wording of a failure about which only the kind is known. -/
def IoKind.message : IoKind → String
  | .notFound => "entity not found"
  | .permissionDenied => "permission denied"
  | .connectionReset => "connection reset"
  | .connectionAborted => "connection aborted"
  | .brokenPipe => "broken pipe"
  | .unexpectedEof => "unexpected end of file"
  | .timedOut => "timed out"
  | .writeZero => "write zero"
  | .invalidInput => "invalid input parameter"
  | .invalidData => "invalid data"
  | .interrupted => "operation interrupted"
  | .notADirectory => "not a directory"
  | .isADirectory => "is a directory"
  | .invalidFilename => "invalid filename"
  | .other => "other error"

/-- A failure of the system underneath, with its own wording if it has one. -/
structure IoError where
  kind : IoKind
  text : Option String := none
  deriving DecidableEq

def IoError.message (e : IoError) : String := e.text.getD e.kind.message

/-- The parts of a request line that end with a space. -/
inductive LinePart
  | method | target
  deriving DecidableEq

def LinePart.name : LinePart → String
  | .method => "method"
  | .target => "request target"

/-- Why a request header was refused. -/
inductive ParseError
  /-- The request line ended before a part did. -/
  | endedBefore (part : LinePart)
  | emptyPart (part : LinePart)
  /-- A part of the request line is no text. -/
  | notText (e : Utf8.Error)
  /-- No slash stands between protocol and version. -/
  | missingSlash
  /-- Nothing but blanks stands behind the slash. -/
  | missingVersion
  /-- The version has blanks inside. -/
  | extraTokens (version : String)
  /-- A field line starts with something other than a letter or digit. -/
  | fieldStart (line : String)
  /-- A field line has no colon. -/
  | fieldColon (line : String)
  /-- Any other violation of the protocol, in the words of who found it. -/
  | protocol (reason : String)
  | tooLarge (size limit : Nat)
  | tooManyFields (limit : Nat)
  deriving DecidableEq

namespace ParseError

/-- The error is about a limit; the header may have been well-formed. -/
def isLimit : ParseError → Bool
  | .tooLarge .. => true
  | .tooManyFields _ => true
  | _ => false

def reason : ParseError → String
  | .endedBefore part => "request line ended before the " ++ part.name
  | .emptyPart part => "empty " ++ part.name
  | .notText e => e.message
  | .missingSlash => "protocol token is missing '/'"
  | .missingVersion => "missing protocol version"
  | .extraTokens version => "more tokens than expected in request line: " ++ quoted version
  | .fieldStart line => "header field must start with an alphanumeric character: " ++ quoted line
  | .fieldColon line => "header field without colon: " ++ quoted line
  | .protocol reason => reason
  | .tooLarge size limit =>
    "header size " ++ decimal size ++ " exceeds the limit " ++ decimal limit
  | .tooManyFields limit => "header field count exceeds the limit " ++ decimal limit

def message (e : ParseError) : String :=
  (if e.isLimit then "header limit exceeded: " else "protocol error: ") ++ e.reason

def status (_ : ParseError) : Nat := 400

end ParseError

/-- Why a read or a write of a connection failed. -/
inductive ConnectionError
  /-- The peer sends nothing more. -/
  | closed
  /-- The connection was stopped. -/
  | aborted
  /-- A read took longer than its deadline. -/
  | timedOut
  | io (e : IoError)
  deriving DecidableEq

namespace ConnectionError

def message : ConnectionError → String
  | .closed => "connection closed by peer"
  | .aborted => "operation aborted"
  | .timedOut => "read timed out"
  | .io e => "io error: " ++ e.message

/-- The connection was stopped on purpose. -/
def isAborted : ConnectionError → Bool
  | .aborted => true
  | _ => false

/-- The error as a failure of the system underneath. -/
def toIoError : ConnectionError → IoError
  | .closed => ⟨.unexpectedEof, none⟩
  | .aborted => ⟨.connectionReset, none⟩
  | .timedOut => ⟨.timedOut, none⟩
  | .io e => ⟨e.kind, some e.message⟩

end ConnectionError

/-- Why a request body could not be read. -/
inductive BodyError
  /-- The request does not say how long its body is. -/
  | lengthRequired
  | connection (e : ConnectionError)
  /-- The sink refused the bytes. -/
  | sink (e : IoError)
  deriving DecidableEq

namespace BodyError

def message : BodyError → String
  | .lengthRequired => "content-length is missing or invalid"
  | .connection e => "body read failed: " ++ e.message
  | .sink e => "body sink failed: " ++ e.message

def isAborted : BodyError → Bool
  | .connection e => e.isAborted
  | _ => false

def status : BodyError → Nat
  | .lengthRequired => 411
  | _ => 500

end BodyError

/-- The rule for header names that a name violates. -/
def invalidNameText : String := "invalid HTTP header name"

/-- The rule for header values that a value violates. -/
def invalidValueText : String := "failed to parse header value"

/-- What keeps a response header from being written. -/
inductive HeaderFault
  /-- The status message holds a line break. -/
  | statusMessage (message : String)
  /-- A field name is no token. -/
  | fieldName (name : String)
  /-- A field value or a cookie holds a control character. -/
  | fieldValue (name : String)
  /-- Any other fault, in the words of who found it. -/
  | other (reason : String)
  deriving DecidableEq

def HeaderFault.reason : HeaderFault → String
  | .statusMessage message => "status message " ++ quoted message
  | .fieldName name => "field name " ++ quoted name ++ ": " ++ invalidNameText
  | .fieldValue name => "value of " ++ name ++ ": " ++ invalidValueText
  | .other reason => reason

/-- Why a response could not be sent. -/
inductive SendError
  /-- The response is already over. -/
  | concluded
  /-- The header would break its own framing. -/
  | invalidHeader (fault : HeaderFault)
  | connection (e : ConnectionError)
  /-- The source of the body failed. -/
  | io (e : IoError)
  deriving DecidableEq

namespace SendError

def message : SendError → String
  | .concluded => "response already concluded"
  | .invalidHeader fault => "invalid header: " ++ fault.reason
  | .connection e => "write failed: " ++ e.message
  | .io e => "io error: " ++ e.message

def isAborted : SendError → Bool
  | .connection e => e.isAborted
  | _ => false

def toIoError : SendError → IoError
  | .concluded => ⟨.connectionReset, none⟩
  | .invalidHeader fault => ⟨.invalidInput, some fault.reason⟩
  | .connection e => e.toIoError
  | .io e => ⟨e.kind, some e.message⟩

end SendError

/-- Any failure of an exchange, as the error hook sees it. -/
inductive HttpError
  | request (e : ParseError)
  | connection (e : ConnectionError)
  | body (e : BodyError)
  | response (e : SendError)
  deriving DecidableEq

namespace HttpError

def message : HttpError → String
  | .request e => "request error: " ++ e.message
  | .connection e => "connection error: " ++ e.message
  | .body e => "body error: " ++ e.message
  | .response e => "response error: " ++ e.message

def isAborted : HttpError → Bool
  | .request _ => false
  | .connection e => e.isAborted
  | .body e => e.isAborted
  | .response e => e.isAborted

end HttpError

/-- What a route handler reports when it does not succeed. -/
inductive HandlerError
  /-- Answer with this status, unless the response is already over. -/
  | status (code : Nat)
  | body (e : BodyError)
  | send (e : SendError)
  /-- The application failed, in its own words. -/
  | other (reason : String)
  deriving DecidableEq

def HandlerError.message : HandlerError → String
  | .status code => "respond with status " ++ decimal code
  | .body e => e.message
  | .send e => e.message
  | .other reason => reason

end HttpServer
