import HttpServer.Error
import HttpServer.Request.Header

/-!
# Reading a request header

A `HeaderReader` is given bytes as they come, cut anywhere, and goes through the phases

```text
method, target, protocol, version, fields, body
```

without ever going back. Each round of `feed` (`HeaderReader.advance`) takes one token with its
delimiter from the front of the buffer; where no delimiter has come yet it asks for more data. After
the empty line that ends the header everything is kept for the body. Two limits guard the reader:
the bytes of the header, checked when bytes are given to it, and the number of field lines.
-/

namespace HttpServer

/-- Bounds on the header of a request. -/
structure HeaderLimits where
  /-- Bytes that may be given to a reader before the header is complete. -/
  maxBytes : Nat := 8 * 1024
  /-- Field lines of one header. -/
  maxFields : Nat := 64
  deriving DecidableEq

/-- What a reader waits for. -/
inductive Phase
  | method | target | protocol | version | fields | body
  deriving DecidableEq

/-- The place of a phase in the order in which they follow each other. -/
def Phase.rank : Phase → Nat
  | .method => 0
  | .target => 1
  | .protocol => 2
  | .version => 3
  | .fields => 4
  | .body => 5

/-- How far a reader got. -/
inductive Progress
  /-- A token is incomplete. -/
  | needMoreData
  | finished
  deriving DecidableEq

/-- A request header being read. -/
structure HeaderReader where
  limits : HeaderLimits := {}
  phase : Phase := .method
  /-- The bytes that no token has taken yet; once the header is complete, the start of the body. -/
  buffer : Bytes := []
  /-- How many bytes tokens and their delimiters have taken. -/
  consumed : Nat := 0
  fieldCount : Nat := 0
  header : HeaderSection := {}

/-- Cuts a byte string at the first byte of a class: what comes before it, the byte, and the
rest. -/
def cutAt? (isDelimiter : UInt8 → Bool) : Bytes → Option (Bytes × UInt8 × Bytes)
  | [] => none
  | b :: bs =>
    if isDelimiter b then some ([], b, bs)
    else (cutAt? isDelimiter bs).map fun (before, delimiter, after) =>
      (b :: before, delimiter, after)

/-- A cut loses nothing: the token, its delimiter and the rest are the buffer. -/
theorem append_of_cutAt? {isDelimiter : UInt8 → Bool} {bs before after : Bytes} {delimiter : UInt8}
    (h : cutAt? isDelimiter bs = some (before, delimiter, after)) :
    bs = before ++ delimiter :: after := by
  induction bs generalizing before with
  | nil => simp [cutAt?] at h
  | cons b bs ih =>
    unfold cutAt? at h
    split at h
    · simp_all
    · obtain ⟨⟨first, second, third⟩, hcut, heq⟩ := Option.map_eq_some_iff.1 h
      cases heq
      simp [ih hcut]

namespace HeaderReader

def lineFeed : UInt8 := 0x0A

def carriageReturn : UInt8 := 0x0D

def space : UInt8 := 0x20

def slash : UInt8 := 0x2F

def isFinished (r : HeaderReader) : Bool := r.phase == .body

/-- Takes a token and its delimiter from the front of the buffer, leaving `rest`. -/
def take (r : HeaderReader) (token rest : Bytes) : HeaderReader :=
  { r with buffer := rest, consumed := r.consumed + token.length + 1 }

/-- One round of reading. -/
inductive Round
  /-- A token was taken and reading goes on. -/
  | next (r : HeaderReader)
  /-- Nothing more can be done for now. -/
  | stop (r : HeaderReader) (result : Except ParseError Progress)

/-- The text of a line: without the carriage return at its end, read leniently. -/
def lineText (line : Bytes) : String :=
  Utf8.toStringLossy (if line.getLast? = some carriageReturn then line.dropLast else line)

/-- Records one field line. Cookie lines go into the cookies, all others into the fields. -/
def recordField (r : HeaderReader) (line : String) : Except ParseError HeaderReader :=
  if r.limits.maxFields ≤ r.fieldCount then .error (.tooManyFields r.limits.maxFields)
  else if !(line.toList.head?.any Char.isAlphanum) then .error (.fieldStart line)
  else match splitFirst? (· == ':') line.toList with
    | none => .error (.fieldColon line)
    | some (before, after) =>
      let name := String.ofList (trimEnd before)
      let value := String.ofList (trim after)
      let header :=
        if sameName name "cookie" then r.header.addCookies value
        else { r.header with fields := r.header.fields.insert name value }
      .ok { r with fieldCount := r.fieldCount + 1, header }

/-- Reads the method or the target: everything before the next space. -/
def advanceWord (r : HeaderReader) (part : LinePart)
    (record : HeaderSection → String → HeaderSection) (phase : Phase) : Round :=
  match cutAt? (fun b => b == space || b == lineFeed) r.buffer with
  | none => .stop r (.ok .needMoreData)
  | some (word, delimiter, rest) =>
    if delimiter ≠ space then .stop r (.error (.endedBefore part))
    else if word = [] then .stop r (.error (.emptyPart part))
    else match Utf8.toStringStrict word with
      | .error e => .stop (r.take word rest) (.error (.notText e))
      | .ok text => .next { r.take word rest with header := record r.header text, phase }

/-- Reads the protocol: everything before the next slash. -/
def advanceProtocol (r : HeaderReader) : Round :=
  match cutAt? (fun b => b == slash || b == lineFeed) r.buffer with
  | none => .stop r (.ok .needMoreData)
  | some (word, delimiter, rest) =>
    if delimiter ≠ slash then .stop r (.error .missingSlash)
    else match Utf8.toStringStrict word with
      | .error e => .stop (r.take word rest) (.error (.notText e))
      | .ok text =>
        .next { r.take word rest with
          header := { r.header with protocol := text }
          phase := .version }

/-- Reads the version: the rest of the request line, trimmed. -/
def advanceVersion (r : HeaderReader) : Round :=
  match cutAt? (· == lineFeed) r.buffer with
  | none => .stop r (.ok .needMoreData)
  | some (line, _, rest) =>
    let version := trim (lineText line).toList
    if version = [] then .stop (r.take line rest) (.error .missingVersion)
    else if version.any isAsciiBlank then
      .stop (r.take line rest) (.error (.extraTokens (String.ofList version)))
    else
      .next { r.take line rest with
        header := { r.header with version := String.ofList version }, phase := .fields }

/-- Reads one field line, or the empty line that ends the header. -/
def advanceField (r : HeaderReader) : Round :=
  match cutAt? (· == lineFeed) r.buffer with
  | none => .stop r (.ok .needMoreData)
  | some (line, _, rest) =>
    let text := lineText line
    if text = "" then .stop { r.take line rest with phase := .body } (.ok .finished)
    else match (r.take line rest).recordField text with
      | .error e => .stop (r.take line rest) (.error e)
      | .ok next => .next next

/-- Takes one token from the buffer, as the phase asks for. -/
def advance (r : HeaderReader) : Round :=
  match r.phase with
  | .method => r.advanceWord .method (fun h text => { h with method := text }) .target
  | .target => r.advanceWord .target (fun h text => { h with target := text }) .protocol
  | .protocol => r.advanceProtocol
  | .version => r.advanceVersion
  | .fields => r.advanceField
  | .body => .stop r (.ok .finished)

/-- A token that is taken makes the buffer shorter, if only by its delimiter. -/
theorem buffer_length_take {r : HeaderReader} {isDelimiter : UInt8 → Bool} {token rest : Bytes}
    {delimiter : UInt8} (h : cutAt? isDelimiter r.buffer = some (token, delimiter, rest)) :
    (r.take token rest).buffer.length < r.buffer.length := by
  rw [append_of_cutAt? h]
  simp only [take, List.length_append, List.length_cons]
  omega

/-- Recording a field leaves the buffer to those who took the line from it. -/
theorem buffer_recordField {r next : HeaderReader} {line : String}
    (h : r.recordField line = .ok next) : next.buffer = r.buffer := by
  unfold recordField at h
  split at h
  · cases h
  · split at h
    · cases h
    · split at h <;> cases h
      rfl

/-- A round that goes on makes the buffer shorter, which is why `run` comes to an end. -/
theorem buffer_length_advanceWord {r next : HeaderReader} {part : LinePart}
    {record : HeaderSection → String → HeaderSection} {phase : Phase}
    (h : r.advanceWord part record phase = .next next) :
    next.buffer.length < r.buffer.length := by
  unfold advanceWord at h
  repeat' split at h
  all_goals cases h
  rename_i hcut _ _ _ _ _
  exact buffer_length_take hcut

theorem buffer_length_advanceProtocol {r next : HeaderReader}
    (h : r.advanceProtocol = .next next) : next.buffer.length < r.buffer.length := by
  unfold advanceProtocol at h
  repeat' split at h
  all_goals cases h
  rename_i hcut _ _ _ _
  exact buffer_length_take hcut

theorem buffer_length_advanceVersion {r next : HeaderReader}
    (h : r.advanceVersion = .next next) : next.buffer.length < r.buffer.length := by
  unfold advanceVersion at h
  dsimp only at h
  repeat' split at h
  all_goals cases h
  rename_i hcut _ _
  exact buffer_length_take hcut

theorem buffer_length_advanceField {r next : HeaderReader}
    (h : r.advanceField = .next next) : next.buffer.length < r.buffer.length := by
  unfold advanceField at h
  dsimp only at h
  repeat' split at h
  all_goals cases h
  rename_i hcut _ _ hrecord
  rw [buffer_recordField hrecord]
  exact buffer_length_take hcut

/-- Every round that goes on has made the buffer shorter. -/
theorem buffer_length_advance {r next : HeaderReader} (h : r.advance = .next next) :
    next.buffer.length < r.buffer.length := by
  unfold advance at h
  split at h
  · exact buffer_length_advanceWord h
  · exact buffer_length_advanceWord h
  · exact buffer_length_advanceProtocol h
  · exact buffer_length_advanceVersion h
  · exact buffer_length_advanceField h
  · cases h

/-- Reads tokens for as long as the buffer holds them. -/
def run (r : HeaderReader) : HeaderReader × Except ParseError Progress :=
  match h : r.advance with
  | .next next =>
    have := buffer_length_advance h
    next.run
  | .stop final result => (final, result)
termination_by r.buffer.length

/-- Gives bytes to the reader. A complete header takes them as body without any check; otherwise
they are refused as a whole if the header would exceed its limit. -/
def feed (r : HeaderReader) (bytes : Bytes) : HeaderReader × Except ParseError Progress :=
  if r.isFinished then ({ r with buffer := r.buffer ++ bytes }, .ok .finished)
  else
    let size := r.consumed + r.buffer.length + bytes.length
    if r.limits.maxBytes < size then (r, .error (.tooLarge size r.limits.maxBytes))
    else run { r with buffer := r.buffer ++ bytes }

/-- Gives pieces of a byte string to the reader, one after another up to the first error. The last
answer counts; without a piece more data is needed. -/
def feedAll (r : HeaderReader) : List Bytes → HeaderReader × Except ParseError Progress
  | [] => (r, .ok .needMoreData)
  | [piece] => r.feed piece
  | piece :: pieces =>
    match r.feed piece with
    | (r, .ok _) => r.feedAll pieces
    | refused => refused

end HeaderReader

end HttpServer
