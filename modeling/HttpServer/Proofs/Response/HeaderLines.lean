import HttpServer.Proofs.Text.Encoding
import HttpServer.Response.Change

/-!
# The lines of a response header

A header that can be written is one line for the status, one for each field and one for each cookie,
behind which an empty line closes it. The pieces are checked before anything is written, all but the
version. So a reader that cuts at the line ends finds just the fields and cookies that were set,
exactly if the version holds no line break (`ResponseHeader.framed_iff_version`); otherwise a
version can spell out a response of its own (`ResponseHeader.version_splits_response`).
-/

namespace HttpServer

/-- The bytes hold no part of a line end. -/
def OneLine (line : Bytes) : Prop := 0x0D ∉ line ∧ 0x0A ∉ line

instance (line : Bytes) : Decidable (OneLine line) :=
  inferInstanceAs (Decidable (0x0D ∉ line ∧ 0x0A ∉ line))

namespace OneLine

/-- Pieces of one line are one line. -/
theorem append {line more : Bytes} (h : OneLine line) (hmore : OneLine more) :
    OneLine (line ++ more) :=
  ⟨List.not_mem_append h.1 hmore.1, List.not_mem_append h.2 hmore.2⟩

/-- A text is written on one line exactly if it has no line break. -/
theorem ofString_iff (s : String) :
    OneLine (Utf8.ofString s) ↔ '\r' ∉ s.toList ∧ '\n' ∉ s.toList := by
  have hcr : (0x0D : UInt8) ∈ Utf8.ofString s ↔ '\r' ∈ s.toList :=
    Utf8.mem_ofString_iff (by decide) s
  have hlf : (0x0A : UInt8) ∈ Utf8.ofString s ↔ '\n' ∈ s.toList :=
    Utf8.mem_ofString_iff (by decide) s
  rw [OneLine, hcr, hlf]

end OneLine

/-- The pieces of a byte string between its line ends. -/
def splitLines : Bytes → List Bytes
  | 0x0D :: 0x0A :: rest => [] :: splitLines rest
  | b :: rest =>
    match splitLines rest with
    | [] => [[b]]
    | line :: lines => (b :: line) :: lines
  | [] => [[]]

/-- A line is cut off at the first line end. -/
theorem splitLines_line_append {line : Bytes} (h : OneLine line) (rest : Bytes) :
    splitLines (line ++ (ResponseHeader.lineEnd ++ rest)) = line :: splitLines rest := by
  induction line with
  | nil => rfl
  | cons b line ih =>
      have hb : b ≠ 0x0D := fun hcr => h.1 (hcr ▸ List.mem_cons_self)
      have hline : OneLine line :=
        ⟨fun hmem => h.1 (List.mem_cons_of_mem _ hmem),
          fun hmem => h.2 (List.mem_cons_of_mem _ hmem)⟩
      rw [List.cons_append, splitLines, ih hline]
      intro later hcr
      exact absurd hcr hb

/-- Lines that are ended one by one are cut apart again. -/
theorem splitLines_lines_append {lines : List Bytes} (h : ∀ line ∈ lines, OneLine line)
    (rest : Bytes) :
    splitLines (lines.flatMap (· ++ ResponseHeader.lineEnd) ++ rest) =
      lines ++ splitLines rest := by
  induction lines with
  | nil => rfl
  | cons line lines ih =>
      have htail := ih fun other hmem => h other (List.mem_cons_of_mem _ hmem)
      rw [List.flatMap_cons, List.append_assoc, List.append_assoc,
        splitLines_line_append (h line List.mem_cons_self), htail]
      rfl

/-- A byte that no line holds is counted once for each line end that holds it. -/
theorem count_lines {lines : List Bytes} {b : UInt8} (hend : ResponseHeader.lineEnd.count b = 1)
    (h : ∀ line ∈ lines, b ∉ line) :
    (lines.flatMap (· ++ ResponseHeader.lineEnd)).count b = lines.length := by
  induction lines with
  | nil => rfl
  | cons line lines ih =>
      have htail := ih fun other hmem => h other (List.mem_cons_of_mem _ hmem)
      have hhead : line.count b = 0 := List.count_eq_zero.2 (h line List.mem_cons_self)
      rw [List.flatMap_cons, List.count_append, List.count_append, hhead, hend, htail,
        List.length_cons]
      omega

namespace ResponseHeader

/-- A header that can be written is all that is written. -/
theorem writeTo_nil_of_fits {h : ResponseHeader} (hnone : h.fault? = none) :
    h.writeTo [] = (h.toBytes, .ok ()) := by
  rw [writeTo, hnone, List.nil_append]

/-- A header with a fault is not written at all. -/
theorem writeTo_nil_of_fault {h : ResponseHeader} {fault : HeaderFault}
    (hsome : h.fault? = some fault) : h.writeTo [] = ([], .error (.invalidHeader fault)) := by
  rw [writeTo, hsome]

/-- Cuts a line behind its name: at the first colon with a blank behind it. -/
def cutField : Bytes → Option (Bytes × Bytes)
  | 0x3A :: 0x20 :: value => some ([], value)
  | b :: rest => (cutField rest).map fun (name, value) => (b :: name, value)
  | [] => none

/-- The name and the value in a line. -/
def readField? (line : Bytes) : Option (String × String) := do
  let (name, value) ← cutField line
  return (← (Utf8.toStringStrict name).toOption, ← (Utf8.toStringStrict value).toOption)

/-- A reader that cuts at line ends: the first line, and the fields of the other ones up to the
empty line that closes the header. Nothing may stand behind that. -/
def readBack (bytes : Bytes) : Option (String × FieldList) :=
  match splitLines bytes with
  | [] => none
  | status :: lines =>
    if lines.dropWhile (· ≠ []) = [[], []] then do
      return (← (Utf8.toStringStrict status).toOption,
        ← (lines.takeWhile (· ≠ [])).mapM readField?)
    else none

/-- **The shape of a header on the wire.** One line for the status, for each field and for each
cookie, each with something in it, and no byte of a line end but behind these lines. -/
def Framed (h : ResponseHeader) (bytes : Bytes) : Prop :=
  ∃ lines : List Bytes, lines.length = 1 + h.fields.length + h.cookies.length ∧
    (∀ line ∈ lines, line ≠ [] ∧ OneLine line) ∧ bytes = lines.flatMap (· ++ lineEnd) ++ lineEnd

/-- A line is cut at the colon behind its name. -/
theorem cutField_append {name : Bytes} (h : 0x3A ∉ name) (value : Bytes) :
    cutField (name ++ (0x3A :: 0x20 :: value)) = some (name, value) := by
  induction name with
  | nil => rfl
  | cons b name ih =>
      have hb : b ≠ 0x3A := fun hcolon => h (hcolon ▸ List.mem_cons_self)
      have hname : 0x3A ∉ name := fun hmem => h (List.mem_cons_of_mem _ hmem)
      rw [List.cons_append, cutField, ih hname]
      · rfl
      · intro later hcolon
        exact absurd hcolon hb

/-- Digits break no line. -/
theorem decimal_noBreak (n : Nat) : '\r' ∉ (decimal n).toList ∧ '\n' ∉ (decimal n).toList := by
  have hdigit : ∀ c ∈ (decimal n).toList, c.isDigit = true := by
    intro c hc
    rw [decimal, String.toList_ofList] at hc
    exact Nat.isDigit_of_mem_toDigits (by decide) (by decide) hc
  constructor
  · intro hcr
    exact absurd (hdigit _ hcr) (by decide)
  · intro hlf
    exact absurd (hdigit _ hlf) (by decide)

/-- A field name holds no line break and no colon, and it is not empty. -/
theorem token_chars {name : String} (h : isToken name = true) :
    name.toList ≠ [] ∧ '\r' ∉ name.toList ∧ '\n' ∉ name.toList ∧ ':' ∉ name.toList := by
  rw [isToken, Bool.and_eq_true, Bool.and_eq_true, List.all_eq_true] at h
  obtain ⟨⟨hne, hall⟩, _⟩ := h
  refine ⟨by simpa using hne, ?_, ?_, ?_⟩
  · intro hcr
    exact absurd (hall _ hcr) (by decide)
  · intro hlf
    exact absurd (hall _ hlf) (by decide)
  · intro hcolon
    exact absurd (hall _ hcolon) (by decide)

/-- A value that passes is on one line. -/
theorem oneLine_of_isValue {value : String} (h : isValue value = true) :
    OneLine (Utf8.ofString value) := by
  rw [isValue, List.all_eq_true] at h
  constructor
  · intro hcr
    exact absurd (h _ hcr) (by decide)
  · intro hlf
    exact absurd (h _ hlf) (by decide)

/-- A line that can be written. -/
def LineFits (line : String × String) : Prop := isToken line.1 = true ∧ isValue line.2 = true

/-- A line without a fault is in order. -/
theorem lineFits_of_lineFault? {name value : String} (h : lineFault? name value = none) :
    LineFits (name, value) := by
  unfold lineFault? at h
  split at h
  · cases h
  · rename_i hname
    split at h
    · cases h
    · rename_i hvalue
      exact ⟨by simpa using hname, by simpa using hvalue⟩

/-- What was checked of a header that can be written. -/
theorem checked_of_fault? {h : ResponseHeader} (hnone : h.fault? = none) :
    ('\r' ∉ h.message.toList ∧ '\n' ∉ h.message.toList) ∧ ∀ line ∈ h.lines, LineFits line := by
  unfold fault? at hnone
  split at hnone
  · cases hnone
  · rename_i hmessage
    rw [List.findSome?_eq_none_iff] at hnone
    refine ⟨?_, fun line hline => lineFits_of_lineFault? (hnone line hline)⟩
    rw [List.any_eq_true] at hmessage
    constructor
    · intro hcr
      exact hmessage ⟨_, hcr, rfl⟩
    · intro hlf
      exact hmessage ⟨_, hlf, rfl⟩

/-- **A header can be written** if there is no line break in its message and all of its lines can
be. -/
theorem fault?_eq_none_iff (h : ResponseHeader) : h.fault? = none ↔
    ('\r' ∉ h.message.toList ∧ '\n' ∉ h.message.toList) ∧ ∀ line ∈ h.lines, LineFits line := by
  refine ⟨checked_of_fault?, fun ⟨hmessage, hfits⟩ => ?_⟩
  have hclean : ¬ (h.message.toList.any fun c => c == '\r' || c == '\n') = true := by
    intro hbreak
    obtain ⟨c, hc, hends⟩ := List.any_eq_true.1 hbreak
    rcases Bool.or_eq_true_iff.1 hends with hends | hends
    · exact hmessage.1 (eq_of_beq hends ▸ hc)
    · exact hmessage.2 (eq_of_beq hends ▸ hc)
  rw [fault?, if_neg hclean, List.findSome?_eq_none_iff]
  intro line hline
  obtain ⟨hname, hvalue⟩ := hfits line hline
  rw [lineFault?, hname, hvalue]
  rfl

/-- The status line is one line if the version holds no line break. -/
theorem oneLine_statusLine_iff {h : ResponseHeader}
    (hmessage : '\r' ∉ h.message.toList ∧ '\n' ∉ h.message.toList) :
    OneLine (Utf8.ofString h.statusLine) ↔ '\r' ∉ h.version.toList ∧ '\n' ∉ h.version.toList := by
  obtain ⟨hcr, hlf⟩ := decimal_noBreak h.code
  rw [OneLine.ofString_iff]
  simp only [statusLine, protocol, String.toList_append, List.mem_append, hmessage.1, hmessage.2,
    hcr, hlf]
  simp

/-- The bytes of a line behind the status line, without its end. -/
def lineBytes (line : String × String) : Bytes := Utf8.ofString (line.1 ++ ": " ++ line.2)

/-- A line in bytes: the name, a colon with a space, and the value. -/
theorem lineBytes_eq (line : String × String) :
    lineBytes line = Utf8.ofString line.1 ++ (0x3A :: 0x20 :: Utf8.ofString line.2) := by
  rw [lineBytes, Utf8.ofString_append, Utf8.ofString_append, List.append_assoc]
  rfl

/-- A line in order breaks nowhere. -/
theorem oneLine_lineBytes {line : String × String} (h : LineFits line) :
    OneLine (lineBytes line) := by
  obtain ⟨_, hcr, hlf, _⟩ := token_chars h.1
  have hname : OneLine (Utf8.ofString line.1) := (OneLine.ofString_iff _).2 ⟨hcr, hlf⟩
  have hborder : OneLine [0x3A, 0x20] := by decide
  rw [lineBytes_eq]
  exact hname.append (hborder.append (oneLine_of_isValue h.2))

/-- **A line in order reads back** as its name and value. -/
theorem readField?_lineBytes {line : String × String} (h : LineFits line) :
    readField? (lineBytes line) = some line := by
  obtain ⟨_, _, _, hcolon⟩ := token_chars h.1
  have hname : 0x3A ∉ Utf8.ofString line.1 := by
    rw [Utf8.mem_ofString_iff (by decide)]
    exact hcolon
  rw [readField?, lineBytes_eq, cutField_append hname]
  simp only [Option.bind_eq_bind, Option.bind_some, Utf8.toStringStrict_ofString, Except.toOption]
  rfl

/-- The lines of a header on the wire, without their ends. -/
def wireLines (h : ResponseHeader) : List Bytes :=
  Utf8.ofString h.statusLine :: h.lines.map lineBytes

/-- The bytes of a header are its lines with their line ends, and one more. -/
theorem toBytes_eq_wireLines (h : ResponseHeader) :
    h.toBytes = h.wireLines.flatMap (· ++ lineEnd) ++ lineEnd := by
  rw [toBytes, wireLines, List.flatMap_cons, List.flatMap_map]
  rfl

/-- There is one line for the status, and one for each field and cookie. -/
theorem length_wireLines (h : ResponseHeader) :
    h.wireLines.length = 1 + h.fields.length + h.cookies.length := by
  rw [wireLines, lines, List.length_cons, List.length_map, List.length_append, List.length_map]
  omega

/-- None of them is empty, so only the end of the header is. -/
theorem ne_nil_of_mem_wireLines {h : ResponseHeader} {line : Bytes} (hline : line ∈ h.wireLines) :
    line ≠ [] := by
  rcases List.mem_cons.1 hline with rfl | hline
  · rw [statusLine, protocol, String.append_assoc, String.append_assoc, String.append_assoc,
      String.append_assoc, Utf8.ofString_append]
    exact List.append_ne_nil_of_left_ne_nil (by decide) _
  · obtain ⟨field, _, rfl⟩ := List.mem_map.1 hline
    rw [lineBytes_eq]
    exact List.append_ne_nil_of_right_ne_nil _ (List.cons_ne_nil _ _)

/-- None of them breaks, if the version does not. -/
theorem oneLine_of_mem_wireLines {h : ResponseHeader} (hnone : h.fault? = none)
    (hversion : '\r' ∉ h.version.toList ∧ '\n' ∉ h.version.toList) {line : Bytes}
    (hline : line ∈ h.wireLines) : OneLine line := by
  obtain ⟨hmessage, hfits⟩ := checked_of_fault? hnone
  rcases List.mem_cons.1 hline with rfl | hline
  · exact (oneLine_statusLine_iff hmessage).2 hversion
  · obtain ⟨field, hfield, rfl⟩ := List.mem_map.1 hline
    exact oneLine_lineBytes (hfits field hfield)

/-- Fields read back in their order. -/
theorem mapM_readField?_lineBytes {fields : FieldList} (hfits : ∀ field ∈ fields, LineFits field) :
    (fields.map lineBytes).mapM readField? = some fields := by
  induction fields with
  | nil => rfl
  | cons field fields ih =>
      have hhead := readField?_lineBytes (hfits field List.mem_cons_self)
      have htail := ih fun other hmem => hfits other (List.mem_cons_of_mem _ hmem)
      rw [List.map_cons, List.mapM_cons, hhead, htail]
      rfl

/-- A reader finds all lines if each of them is one line. -/
theorem readBack_toBytes {h : ResponseHeader} (hfits : ∀ line ∈ h.lines, LineFits line)
    (hone : ∀ line ∈ h.wireLines, OneLine line) :
    readBack h.toBytes = some (h.statusLine, h.lines) := by
  have hsplit : splitLines h.toBytes =
      Utf8.ofString h.statusLine :: (h.lines.map lineBytes ++ [[], []]) := by
    rw [toBytes_eq_wireLines, splitLines_lines_append hone]
    rfl
  have hnonempty : ∀ line ∈ h.lines.map lineBytes, decide (line ≠ []) = true := by
    intro line hline
    exact decide_eq_true (ne_nil_of_mem_wireLines (List.mem_cons_of_mem _ hline))
  have hdrop : (h.lines.map lineBytes ++ [[], []]).dropWhile (· ≠ []) = [[], []] := by
    rw [List.dropWhile_append_of_pos hnonempty]
    rfl
  have htake : (h.lines.map lineBytes ++ [[], []]).takeWhile (· ≠ []) = h.lines.map lineBytes := by
    rw [List.takeWhile_append_of_pos hnonempty]
    exact List.append_nil _
  have hread := mapM_readField?_lineBytes hfits
  simp only [readBack, hsplit, hdrop, htake, hread, ↓reduceIte, Utf8.toStringStrict_ofString,
    Except.toOption]
  rfl

/-- Counting the ends of lines shows that the status line of a framed header is one line. -/
theorem count_toBytes {h : ResponseHeader} (hfits : ∀ line ∈ h.lines, LineFits line) {b : UInt8}
    (hb : b = 0x0D ∨ b = 0x0A) :
    h.toBytes.count b = (Utf8.ofString h.statusLine).count b + 2 + h.fields.length +
      h.cookies.length := by
  have hend : lineEnd.count b = 1 := by
    rcases hb with rfl | rfl
    · rfl
    · rfl
  have hclean : ∀ line ∈ h.lines.map lineBytes, b ∉ line := by
    intro line hline
    obtain ⟨field, hfield, rfl⟩ := List.mem_map.1 hline
    have hone := oneLine_lineBytes (hfits field hfield)
    rcases hb with rfl | rfl
    · exact hone.1
    · exact hone.2
  have hlength := length_wireLines h
  rw [wireLines, List.length_cons] at hlength
  rw [toBytes_eq_wireLines, wireLines, List.flatMap_cons, List.count_append, List.count_append,
    List.count_append, hend, count_lines hend hclean]
  omega

/-- What is framed by lines has one line end for each. -/
theorem count_of_framed {h : ResponseHeader} {bytes : Bytes} (hframed : Framed h bytes) {b : UInt8}
    (hb : b = 0x0D ∨ b = 0x0A) : bytes.count b = 2 + h.fields.length + h.cookies.length := by
  obtain ⟨lines, hlength, hlines, rfl⟩ := hframed
  have hend : lineEnd.count b = 1 := by
    rcases hb with rfl | rfl
    · rfl
    · rfl
  have hclean : ∀ line ∈ lines, b ∉ line := by
    intro line hline
    rcases hb with rfl | rfl
    · exact (hlines line hline).2.1
    · exact (hlines line hline).2.2
  rw [List.count_append, hend, count_lines hend hclean, hlength]
  omega

/-- A header that can be written is framed, and read back, exactly if its version holds no line
break. -/
theorem framed_toBytes_iff {h : ResponseHeader} (hnone : h.fault? = none) :
    (Framed h h.toBytes ∧ readBack h.toBytes = some (h.statusLine, h.lines)) ↔
      '\r' ∉ h.version.toList ∧ '\n' ∉ h.version.toList := by
  obtain ⟨hmessage, hfits⟩ := checked_of_fault? hnone
  constructor
  · rintro ⟨hframed, _⟩
    rw [← oneLine_statusLine_iff hmessage]
    have hclean : ∀ b : UInt8, b = 0x0D ∨ b = 0x0A → b ∉ Utf8.ofString h.statusLine := by
      intro b hb
      have hall := count_toBytes hfits hb
      rw [count_of_framed hframed hb] at hall
      exact List.count_eq_zero.1 (by omega)
    exact ⟨hclean _ (.inl rfl), hclean _ (.inr rfl)⟩
  · intro hversion
    have hone : ∀ line ∈ h.wireLines, OneLine line :=
      fun line hline => oneLine_of_mem_wireLines hnone hversion hline
    refine ⟨⟨h.wireLines, length_wireLines h, ?_, toBytes_eq_wireLines h⟩, ?_⟩
    · intro line hline
      exact ⟨ne_nil_of_mem_wireLines hline, hone line hline⟩
    · exact readBack_toBytes hfits hone

/-- **No response splitting but by the version.** Writing a header that can be written appends
bytes. These are framed, and a reader finds the status line, the fields as they were set and a line
for each cookie, exactly if the version holds no line break. -/
theorem framed_iff_version {h : ResponseHeader} {buffer written : Bytes}
    (hwrite : h.writeTo buffer = (written, .ok ())) :
    ∃ appended, written = buffer ++ appended ∧
      ((Framed h appended ∧ readBack appended = some (h.statusLine,
          h.fields ++ h.cookies.map fun cookie => ("Set-Cookie", cookie.render))) ↔
        '\r' ∉ h.version.toList ∧ '\n' ∉ h.version.toList) := by
  cases hfault : h.fault? with
  | some fault =>
      rw [writeTo, hfault] at hwrite
      cases hwrite
  | none =>
      rw [writeTo, hfault] at hwrite
      cases hwrite
      exact ⟨h.toBytes, rfl, framed_toBytes_iff hfault⟩

/-- A redirection that sets a cookie. -/
def redirection : ResponseHeader :=
  [HeaderChange.setCode 302, .setField "Location" "/next",
    .addCookie { name := "id", value := "1", httpOnly := true }].foldl
      (fun h change => change.apply h) {}

theorem framed_redirection :
    ∃ bytes, redirection.writeTo [] = (bytes, .ok ()) ∧ Framed redirection bytes ∧
      readBack bytes = some ("HTTP/1.1 302 Found",
        [("Location", "/next"), ("Set-Cookie", "id=1; HttpOnly")]) := by
  have hwrite : redirection.writeTo [] = (redirection.toBytes, .ok ()) := by decide +kernel
  obtain ⟨appended, hbytes, hiff⟩ := framed_iff_version hwrite
  rw [List.nil_append] at hbytes
  have hshape := hiff.2 (by decide)
  rw [← hbytes] at hshape
  exact ⟨_, hwrite, hshape.1, hshape.2⟩

/-- The version of this header holds a response of its own. -/
def splittingHeader : ResponseHeader :=
  (HeaderChange.setVersion "1.1 200 OK\r\nX-Evil: 1\r\n\r\nHTTP/1.1").apply {}

/-- **A version can split a response.** The header is written, and yet there are more line ends than
its status line and the empty line have. -/
theorem version_splits_response :
    ∃ bytes, splittingHeader.writeTo [] = (bytes, .ok ()) ∧ ¬ Framed splittingHeader bytes := by
  have hwrite : splittingHeader.writeTo [] = (splittingHeader.toBytes, .ok ()) := by decide +kernel
  refine ⟨_, hwrite, fun hframed => ?_⟩
  have htwo := count_of_framed hframed (.inl rfl)
  have hfive : splittingHeader.toBytes.count 0x0D = 5 := by decide +kernel
  rw [hfive] at htwo
  exact absurd htwo (by decide)

end ResponseHeader

end HttpServer
