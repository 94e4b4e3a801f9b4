import HttpServer.Proofs.Request.Segmentation
import HttpServer.Proofs.Text.Decoding

/-!
# The grammar of request headers

A `HeaderText` is a request header spelled out: the parts of the request line, the field lines, the
line that closes the header, and the bytes behind it. Each phase of reading takes off the front of
the buffer what the grammar puts there: a word with a space, the protocol with a slash, the rest of
the request line, the field lines one by one. So a reader accepts exactly the spellings of a
`HeaderText`, and it ends up with what this text says (`HeaderReader.finished_iff_spells`).
-/

namespace HttpServer

/-- A buffer is cut at the first delimiter in it. -/
theorem cutAt?_eq_some_iff {isDelimiter : UInt8 → Bool} {bs before after : Bytes}
    {delimiter : UInt8} :
    cutAt? isDelimiter bs = some (before, delimiter, after) ↔
      bs = before ++ delimiter :: after ∧ isDelimiter delimiter = true ∧
        ∀ b ∈ before, isDelimiter b = false := by
  induction bs generalizing before with
  | nil => simp [cutAt?]
  | cons b bs ih =>
      rw [cutAt?]
      by_cases hb : isDelimiter b = true
      · rw [if_pos hb, Option.some.injEq, Prod.mk.injEq, Prod.mk.injEq]
        constructor
        · rintro ⟨rfl, rfl, rfl⟩
          exact ⟨rfl, hb, by simp⟩
        · rintro ⟨hbytes, _, hbefore⟩
          cases before with
          | nil =>
              cases hbytes
              exact ⟨rfl, rfl, rfl⟩
          | cons first before =>
              cases hbytes
              rw [hbefore b List.mem_cons_self] at hb
              cases hb
      · rw [if_neg hb, Option.map_eq_some_iff]
        constructor
        · rintro ⟨⟨first, second, third⟩, hcut, heq⟩
          cases heq
          obtain ⟨rfl, hdelimiter, hfirst⟩ := ih.1 hcut
          refine ⟨rfl, hdelimiter, fun other hother => ?_⟩
          rcases List.mem_cons.1 hother with rfl | hother
          · simpa using hb
          · exact hfirst other hother
        · rintro ⟨hbytes, hdelimiter, hbefore⟩
          cases before with
          | nil =>
              cases hbytes
              exact absurd hdelimiter hb
          | cons first before =>
              cases hbytes
              have hrest := ih.2 ⟨rfl, hdelimiter, fun other hother =>
                hbefore other (List.mem_cons_of_mem _ hother)⟩
              exact ⟨_, hrest, rfl⟩

/-- A text is split at the first separator in it. -/
theorem splitFirst?_of_mem {separator : Char} {cs : List Char} (h : separator ∈ cs) :
    splitFirst? (· == separator) cs =
      some (cs.takeWhile (· ≠ separator), (cs.dropWhile (· ≠ separator)).tail) := by
  induction cs with
  | nil => cases h
  | cons c cs ih =>
      rw [splitFirst?]
      by_cases hc : c = separator
      · simp [hc]
      · have hrest : separator ∈ cs := (List.mem_cons.1 h).resolve_left (Ne.symm hc)
        rw [if_neg (by simpa using hc), ih hrest]
        simp [hc]

theorem splitFirst?_of_not_mem {separator : Char} {cs : List Char} (h : separator ∉ cs) :
    splitFirst? (· == separator) cs = none := by
  induction cs with
  | nil => rfl
  | cons c cs ih =>
      obtain ⟨hc, hrest⟩ := not_or.1 (fun hmem => h (List.mem_cons.2 hmem))
      rw [splitFirst?, if_neg (by simpa using Ne.symm hc), ih hrest]
      rfl

/-- A text is not split exactly if it has no separator. -/
theorem splitFirst?_eq_none_iff {separator : Char} {cs : List Char} :
    splitFirst? (· == separator) cs = none ↔ separator ∉ cs := by
  constructor
  · intro h hmem
    rw [splitFirst?_of_mem hmem] at h
    cases h
  · exact splitFirst?_of_not_mem

/-- Cutting at the first separator undoes putting it behind a text that has none. -/
theorem splitFirst?_eq_some_iff {separator : Char} {cs before after : List Char} :
    splitFirst? (· == separator) cs = some (before, after) ↔
      separator ∉ before ∧ cs = before ++ separator :: after := by
  constructor
  · intro h
    refine ⟨fun hmem => ?_, append_of_splitFirst? h⟩
    have hcs : separator ∈ cs := by
      rw [append_of_splitFirst? h]
      simp
    rw [splitFirst?_of_mem hcs] at h
    cases h
    have hkept := List.all_eq_true.1 List.all_takeWhile separator hmem
    simp at hkept
  · rintro ⟨hbefore, rfl⟩
    have hkept : ∀ c ∈ before, (decide (c ≠ separator)) = true := fun c hc =>
      decide_eq_true fun heq => hbefore (heq ▸ hc)
    rw [splitFirst?_of_mem (by simp), List.takeWhile_append_of_pos hkept,
      List.dropWhile_append_of_pos hkept]
    simp

/-- The value of the last pair with a name. -/
def lastValue? (pairs : List (String × String)) (name : String) : Option String :=
  (pairs.reverse.find? fun pair => pair.1 = name).map Prod.snd

/-- The last value under a name is that of the later pairs, if they have one. -/
theorem lastValue?_append (first second : List (String × String)) (name : String) :
    lastValue? (first ++ second) name =
      (lastValue? second name).or (lastValue? first name) := by
  rw [lastValue?, List.reverse_append, List.find?_append, Option.map_or]
  rfl

namespace NameMap

/-- Of several values put under a name the last one stays. -/
theorem get?_foldl_insert (pairs : List (String × String)) (m : NameMap) (name : String) :
    (pairs.foldl (fun m pair => m.insert pair.1 pair.2) m).get? name =
      (lastValue? pairs name).or (m.get? name) := by
  induction pairs generalizing m with
  | nil => rfl
  | cons pair pairs ih =>
      rw [List.foldl_cons, ih, get?_insert, ← List.singleton_append, lastValue?_append,
        Option.or_assoc]
      by_cases hname : pair.1 = name <;> simp [lastValue?, hname]

/-- **The last value wins** when pairs are put under their names one by one. -/
theorem get?_ofList (pairs : List (String × String)) (name : String) :
    (ofList pairs).get? name = lastValue? pairs name := by
  rw [ofList, get?_foldl_insert]
  exact Option.or_none

end NameMap

/-- A request header spelled out, with the bytes behind it. -/
structure HeaderText where
  method : String
  target : String
  protocol : String
  /-- What stands between the slash and the end of the request line. -/
  version : Bytes
  /-- The field lines without their line feeds. -/
  lines : List Bytes
  /-- What stands in front of the line feed that closes the header. -/
  closing : Bytes
  body : Bytes

namespace HeaderText

open HeaderReader

/-- Field lines and the closing line with the bytes behind it, on the wire. -/
def spellLines (lines : List Bytes) (closing body : Bytes) : Bytes :=
  lines.flatMap (· ++ [lineFeed]) ++ (closing ++ lineFeed :: body)

/-- **The header on the wire**, with what follows it. -/
def bytes (t : HeaderText) : Bytes :=
  Utf8.ofString t.method ++ space :: (Utf8.ofString t.target ++ space ::
    (Utf8.ofString t.protocol ++ slash :: (t.version ++ lineFeed ::
      spellLines t.lines t.closing t.body)))

/-- The version that the end of the request line names. -/
def versionOf (line : Bytes) : List Char := trim (lineText line).toList

/-- The trimmed name in front of the first colon of a line and the trimmed value behind it. -/
def fieldOf (line : Bytes) : String × String :=
  let cs := (lineText line).toList
  (String.ofList (trim (cs.takeWhile (· ≠ ':'))),
    String.ofList (trim (cs.dropWhile (· ≠ ':')).tail))

/-- The line carries cookies. -/
def isCookieLine (line : Bytes) : Bool := sameName (fieldOf line).1 "cookie"

/-- A word of the request line. -/
structure IsWord (word : Bytes) : Prop where
  ne_nil : word ≠ []
  noSpace : space ∉ word
  noFeed : lineFeed ∉ word

/-- A field line: it starts with an ASCII letter or digit and has a colon. -/
structure IsFieldLine (line : Bytes) : Prop where
  noFeed : lineFeed ∉ line
  start : (lineText line).toList.head?.any Char.isAlphanum = true
  colon : ':' ∈ (lineText line).toList

/-- **The grammar** of a request header under a limit on its fields. -/
structure Accepted (t : HeaderText) (limits : HeaderLimits) : Prop where
  method : IsWord (Utf8.ofString t.method)
  target : IsWord (Utf8.ofString t.target)
  protocolNoSlash : slash ∉ Utf8.ofString t.protocol
  protocolNoFeed : lineFeed ∉ Utf8.ofString t.protocol
  versionNoFeed : lineFeed ∉ t.version
  version_ne_nil : versionOf t.version ≠ []
  versionUnbroken : ∀ c ∈ versionOf t.version, isAsciiBlank c = false
  count : t.lines.length ≤ limits.maxFields
  lines : ∀ line ∈ t.lines, IsFieldLine line
  closing : t.closing = [] ∨ t.closing = [carriageReturn]

/-- **What the header says**, and what is left for the body. -/
structure Says (t : HeaderText) (r : HeaderReader) : Prop where
  method : r.header.method = t.method
  target : r.header.target = t.target
  protocol : r.header.protocol = t.protocol
  version : r.header.version = String.ofList (versionOf t.version)
  fields : ∀ name, r.header.fields.get? name =
    lastValue? ((t.lines.filter (!isCookieLine ·)).map fieldOf) name
  cookies : ∀ name, r.header.cookies.get? name =
    lastValue? ((t.lines.filter isCookieLine).flatMap fun line => cookiePairs (fieldOf line).2) name
  leftover : r.buffer = t.body

def recordLine (h : HeaderSection) (line : Bytes) : HeaderSection :=
  if isCookieLine line then h.addCookies (fieldOf line).2
  else { h with fields := h.fields.insert (fieldOf line).1 (fieldOf line).2 }

/-- Lines are recorded as fields or as cookies, each kind in its order. -/
theorem foldl_recordLine (lines : List Bytes) (h : HeaderSection) :
    lines.foldl recordLine h = { h with
      fields := ((lines.filter (!isCookieLine ·)).map fieldOf).foldl
        (fun m pair => m.insert pair.1 pair.2) h.fields
      cookies :=
        ((lines.filter isCookieLine).flatMap fun line => cookiePairs (fieldOf line).2).foldl
        (fun m pair => m.insert pair.1 pair.2) h.cookies } := by
  induction lines generalizing h with
  | nil => rfl
  | cons line lines ih =>
      rw [List.foldl_cons, ih, recordLine]
      by_cases hcookie : isCookieLine line = true
      · simp [hcookie, HeaderSection.addCookies, List.foldl_append]
      · simp [hcookie]

end HeaderText

namespace HeaderReader

open HeaderText

/-! ## The request line -/

/-- Reading a word takes it off the buffer with the space behind it. -/
theorem advanceWord_eq_next_iff {r next : HeaderReader} {part : LinePart}
    {record : HeaderSection → String → HeaderSection} {phase : Phase} :
    r.advanceWord part record phase = .next next ↔
      ∃ (text : String) (rest : Bytes), IsWord (Utf8.ofString text) ∧
        r.buffer = Utf8.ofString text ++ space :: rest ∧
        next = { r.take (Utf8.ofString text) rest with header := record r.header text, phase } := by
  constructor
  · intro h
    unfold advanceWord at h
    split at h
    · cases h
    rename_i word delimiter rest hcut
    split at h
    · cases h
    rename_i hdelimiter
    split at h
    · cases h
    rename_i hne
    split at h
    · cases h
    rename_i text htext
    cases h
    obtain ⟨hbuffer, _, hword⟩ := cutAt?_eq_some_iff.1 hcut
    rw [not_not.1 hdelimiter] at hbuffer
    rw [Utf8.toStringStrict_eq_ok_iff.1 htext] at hbuffer hne hword ⊢
    refine ⟨text, rest, ⟨hne, fun hmem => ?_, fun hmem => ?_⟩, hbuffer, rfl⟩
    · simpa using hword _ hmem
    · simpa using hword _ hmem
  · rintro ⟨text, rest, hword, hbuffer, rfl⟩
    have hcut : cutAt? (fun b => b == space || b == lineFeed) r.buffer =
        some (Utf8.ofString text, space, rest) := by
      refine cutAt?_eq_some_iff.2 ⟨hbuffer, rfl, fun b hb => ?_⟩
      have hspace : b ≠ space := fun h => hword.noSpace (h ▸ hb)
      have hfeed : b ≠ lineFeed := fun h => hword.noFeed (h ▸ hb)
      simp [hspace, hfeed]
    simp only [advanceWord, hcut, ne_eq, not_true_eq_false, ↓reduceIte, hword.ne_nil,
      Utf8.toStringStrict_ofString]

/-- The protocol is taken exactly if it ends with a slash on the same line. -/
theorem advanceProtocol_eq_next_iff {r next : HeaderReader} :
    r.advanceProtocol = .next next ↔
      ∃ (text : String) (rest : Bytes), slash ∉ Utf8.ofString text ∧
        lineFeed ∉ Utf8.ofString text ∧ r.buffer = Utf8.ofString text ++ slash :: rest ∧
        next = { r.take (Utf8.ofString text) rest with
          header := { r.header with protocol := text }, phase := .version } := by
  constructor
  · intro h
    unfold advanceProtocol at h
    split at h
    · cases h
    rename_i word delimiter rest hcut
    split at h
    · cases h
    rename_i hdelimiter
    split at h
    · cases h
    rename_i text htext
    cases h
    obtain ⟨hbuffer, _, hword⟩ := cutAt?_eq_some_iff.1 hcut
    rw [not_not.1 hdelimiter] at hbuffer
    rw [Utf8.toStringStrict_eq_ok_iff.1 htext] at hbuffer hword ⊢
    refine ⟨text, rest, fun hmem => ?_, fun hmem => ?_, hbuffer, rfl⟩
    · simpa using hword _ hmem
    · simpa using hword _ hmem
  · rintro ⟨text, rest, hslash, hfeed, hbuffer, rfl⟩
    have hcut : cutAt? (fun b => b == slash || b == lineFeed) r.buffer =
        some (Utf8.ofString text, slash, rest) := by
      refine cutAt?_eq_some_iff.2 ⟨hbuffer, rfl, fun b hb => ?_⟩
      have hnoSlash : b ≠ slash := fun h => hslash (h ▸ hb)
      have hnoFeed : b ≠ lineFeed := fun h => hfeed (h ▸ hb)
      simp [hnoSlash, hnoFeed]
    simp only [advanceProtocol, hcut, ne_eq, not_true_eq_false, ↓reduceIte,
      Utf8.toStringStrict_ofString]

/-- A line is cut off at the first line feed. -/
theorem cutAt?_lineFeed_iff {bs line rest : Bytes} {delimiter : UInt8} :
    cutAt? (· == lineFeed) bs = some (line, delimiter, rest) ↔
      bs = line ++ lineFeed :: rest ∧ delimiter = lineFeed ∧ lineFeed ∉ line := by
  rw [cutAt?_eq_some_iff]
  constructor
  · rintro ⟨hbytes, hdelimiter, hline⟩
    rw [beq_iff_eq.1 hdelimiter] at hbytes
    exact ⟨hbytes, beq_iff_eq.1 hdelimiter, fun hmem => by simpa using hline _ hmem⟩
  · rintro ⟨hbytes, rfl, hline⟩
    refine ⟨hbytes, beq_self_eq_true _, fun b hb => beq_eq_false_iff_ne.2 fun h => ?_⟩
    exact hline (h ▸ hb)

/-- The version is the rest of the line without the blanks around, and has none inside. -/
theorem advanceVersion_eq_next_iff {r next : HeaderReader} :
    r.advanceVersion = .next next ↔
      ∃ line rest : Bytes, lineFeed ∉ line ∧ versionOf line ≠ [] ∧
        (∀ c ∈ versionOf line, isAsciiBlank c = false) ∧ r.buffer = line ++ lineFeed :: rest ∧
        next = { r.take line rest with
          header := { r.header with version := String.ofList (versionOf line) }
          phase := .fields } := by
  constructor
  · intro h
    unfold advanceVersion at h
    dsimp only at h
    split at h
    · cases h
    rename_i line delimiter rest hcut
    split at h
    · cases h
    rename_i hne
    split at h
    · cases h
    rename_i hunbroken
    cases h
    obtain ⟨hbuffer, _, hfeed⟩ := cutAt?_lineFeed_iff.1 hcut
    exact ⟨line, rest, hfeed, hne, by simpa [versionOf] using hunbroken, hbuffer, rfl⟩
  · rintro ⟨line, rest, hfeed, hne, hunbroken, hbuffer, rfl⟩
    have hcut := cutAt?_lineFeed_iff.2 ⟨hbuffer, rfl, hfeed⟩
    have hsolid : (versionOf line).any isAsciiBlank = false := by simpa using hunbroken
    rw [versionOf] at hne hsolid
    simp only [advanceVersion, hcut, if_neg hne, hsolid, Bool.false_eq_true, ↓reduceIte, versionOf]

section Phases

variable {r next : HeaderReader}

/-- The method is taken exactly if it is a word with a space behind it. -/
theorem advance_method_iff (h : r.phase = .method) :
    r.advance = .next next ↔ ∃ (text : String) (rest : Bytes), IsWord (Utf8.ofString text) ∧
      r.buffer = Utf8.ofString text ++ space :: rest ∧
      next = { r.take (Utf8.ofString text) rest with
        header := { r.header with method := text }, phase := .target } := by
  rw [advance, h]
  exact advanceWord_eq_next_iff

theorem advance_target_iff (h : r.phase = .target) :
    r.advance = .next next ↔ ∃ (text : String) (rest : Bytes), IsWord (Utf8.ofString text) ∧
      r.buffer = Utf8.ofString text ++ space :: rest ∧
      next = { r.take (Utf8.ofString text) rest with
        header := { r.header with target := text }, phase := .protocol } := by
  rw [advance, h]
  exact advanceWord_eq_next_iff

theorem advance_protocol (h : r.phase = .protocol) : r.advance = r.advanceProtocol := by
  rw [advance, h]

theorem advance_version (h : r.phase = .version) : r.advance = r.advanceVersion := by
  rw [advance, h]

theorem advance_fields (h : r.phase = .fields) : r.advance = r.advanceField := by
  rw [advance, h]

end Phases

/-! ## The field lines -/

/-- Letters and digits are no blanks. -/
theorem isBlank_of_isAlphanum {c : Char} (h : c.isAlphanum = true) : isBlank c = false := by
  have hranges : ((decide (65 ≤ c.toNat ∧ c.toNat ≤ 90) ||
      (decide (97 ≤ c.toNat) && decide (c.toNat ≤ 122))) ||
      (decide (48 ≤ c.toNat) && decide (c.toNat ≤ 57))) = true := h
  simp only [Bool.or_eq_true, Bool.and_eq_true, decide_eq_true_eq] at hranges
  simp only [isBlank, Bool.or_eq_false_iff, Bool.and_eq_false_iff, decide_eq_false_iff_not,
    beq_eq_false_iff_ne, ne_eq]
  omega

/-- A name that starts with a letter or a digit has no blanks in front. -/
theorem trim_takeWhile_of_start {cs : List Char} (h : cs.head?.any Char.isAlphanum = true) :
    trim (cs.takeWhile (· ≠ ':')) = trimEnd (cs.takeWhile (· ≠ ':')) := by
  cases cs with
  | nil => cases h
  | cons c cs =>
      have hletter : c.isAlphanum = true := h
      have hcolon : c ≠ ':' := by
        rintro rfl
        exact absurd hletter (by decide)
      rw [List.takeWhile_cons_of_pos (by simpa using hcolon), trim, trimStart,
        List.dropWhile_cons_of_neg (by simp [isBlank_of_isAlphanum hletter])]

/-- The reader after it has taken a field line off the buffer and recorded it. -/
def takeLine (r : HeaderReader) (line rest : Bytes) : HeaderReader :=
  { r.take line rest with fieldCount := r.fieldCount + 1, header := recordLine r.header line }

/-- A line that is taken is recorded. -/
theorem header_takeLine (r : HeaderReader) (line rest : Bytes) :
    (r.takeLine line rest).header = recordLine r.header line := by
  rw [takeLine]

/-- A field line is recorded under its name, if the limit leaves room for it. -/
theorem recordField_eq_ok_iff {r next : HeaderReader} {line : Bytes} (hfeed : lineFeed ∉ line) :
    r.recordField (lineText line) = .ok next ↔ r.fieldCount < r.limits.maxFields ∧
      IsFieldLine line ∧
      next = { r with fieldCount := r.fieldCount + 1, header := recordLine r.header line } := by
  unfold recordField
  by_cases hcount : r.limits.maxFields ≤ r.fieldCount
  · rw [if_pos hcount]
    exact iff_of_false (by simp) fun h => by omega
  rw [if_neg hcount]
  by_cases hstart : (lineText line).toList.head?.any Char.isAlphanum = true
  swap
  · rw [if_pos (by simpa using hstart)]
    exact iff_of_false (by simp) fun h => hstart h.2.1.start
  rw [if_neg (by simpa using hstart)]
  by_cases hcolon : ':' ∈ (lineText line).toList
  swap
  · rw [splitFirst?_of_not_mem hcolon]
    exact iff_of_false (by simp) fun h => hcolon h.2.1.colon
  rw [splitFirst?_of_mem hcolon]
  dsimp only
  rw [Except.ok.injEq, ← trim_takeWhile_of_start hstart]
  exact ⟨fun h => ⟨by omega, ⟨hfeed, hstart, hcolon⟩, h.symm⟩, fun h => h.2.2.symm⟩

/-- The text of a line is empty for the lines that close a header alone. -/
theorem lineText_eq_empty_iff {line : Bytes} :
    lineText line = "" ↔ line = [] ∨ line = [carriageReturn] := by
  rw [lineText, Utf8.toStringLossy_eq_empty_iff]
  rcases List.eq_nil_or_concat line with rfl | ⟨front, last, rfl⟩
  · simp
  · by_cases hlast : last = carriageReturn
    · simp [hlast]
    · have hother : front ++ [last] ≠ [carriageReturn] := fun h => hlast (by
        simpa using congrArg List.getLast? h)
      simp [hlast, hother]

/-- A field line is not the empty line that ends the header. -/
theorem lineText_ne_of_isFieldLine {line : Bytes} (h : IsFieldLine line) : lineText line ≠ "" := by
  intro hempty
  have hstart := h.start
  rw [hempty] at hstart
  cases hstart

/-- A round over the field lines takes one of them off the buffer. -/
theorem advanceField_eq_next_iff {r next : HeaderReader} :
    r.advanceField = .next next ↔ ∃ line rest : Bytes, r.fieldCount < r.limits.maxFields ∧
      IsFieldLine line ∧ r.buffer = line ++ lineFeed :: rest ∧ next = r.takeLine line rest := by
  constructor
  · intro h
    unfold advanceField at h
    dsimp only at h
    split at h
    · cases h
    rename_i line delimiter rest hcut
    obtain ⟨hbuffer, _, hfeed⟩ := cutAt?_lineFeed_iff.1 hcut
    split at h
    · cases h
    split at h
    · cases h
    rename_i found hrecord
    cases h
    obtain ⟨hcount, hline, rfl⟩ := (recordField_eq_ok_iff hfeed).1 hrecord
    exact ⟨line, rest, hcount, hline, hbuffer, rfl⟩
  · rintro ⟨line, rest, hcount, hline, hbuffer, rfl⟩
    have hcut := cutAt?_lineFeed_iff.2 ⟨hbuffer, rfl, hline.noFeed⟩
    have hrecord : (r.take line rest).recordField (lineText line) = .ok _ :=
      (recordField_eq_ok_iff hline.noFeed).2 ⟨hcount, hline, rfl⟩
    simp only [advanceField, hcut, if_neg (lineText_ne_of_isFieldLine hline), hrecord]
    rfl

/-- The round that ends the header takes the closing line off the buffer. -/
theorem advanceField_eq_finished_iff {r final : HeaderReader} :
    r.advanceField = .stop final (.ok .finished) ↔ ∃ closing rest : Bytes,
      (closing = [] ∨ closing = [carriageReturn]) ∧ r.buffer = closing ++ lineFeed :: rest ∧
      final = { r.take closing rest with phase := .body } := by
  constructor
  · intro h
    unfold advanceField at h
    dsimp only at h
    split at h
    · cases h
    rename_i line delimiter rest hcut
    obtain ⟨hbuffer, _, _⟩ := cutAt?_lineFeed_iff.1 hcut
    split at h
    · rename_i hempty
      cases h
      exact ⟨line, rest, lineText_eq_empty_iff.1 hempty, hbuffer, rfl⟩
    split at h
    · cases h
    · cases h
  · rintro ⟨closing, rest, hclosing, hbuffer, rfl⟩
    have hfeed : lineFeed ∉ closing := by
      rcases hclosing with rfl | rfl <;> decide
    have hcut := cutAt?_lineFeed_iff.2 ⟨hbuffer, rfl, hfeed⟩
    simp only [advanceField, hcut, if_pos (lineText_eq_empty_iff.2 hclosing)]

/-! ## Whole headers -/

/-- A run that finishes does so in its first round or goes on from what that leaves. -/
theorem run_eq_finished_iff {r final : HeaderReader} :
    r.run = (final, .ok .finished) ↔ r.advance = .stop final (.ok .finished) ∨
      ∃ next, r.advance = .next next ∧ next.run = (final, .ok .finished) := by
  cases hround : r.advance with
  | next next => simp [run_eq_of_next hround]
  | stop last result => simp [run_eq_of_stop hround]

/-- What is left to be read when the request line is over spells field lines and a closing line. -/
theorem exists_lines_of_run {r final : HeaderReader} (hphase : r.phase = .fields)
    (hcount : r.fieldCount ≤ r.limits.maxFields) (h : r.run = (final, .ok .finished)) :
    ∃ lines closing body, r.buffer = spellLines lines closing body ∧
      r.fieldCount + lines.length ≤ r.limits.maxFields ∧ (∀ line ∈ lines, IsFieldLine line) ∧
      (closing = [] ∨ closing = [carriageReturn]) := by
  induction r using run.induct with
  | case1 r next hnext _ ih =>
      rw [run_eq_of_next hnext] at h
      rw [advance_fields hphase] at hnext
      obtain ⟨line, rest, hroom, hline, hbuffer, rfl⟩ := advanceField_eq_next_iff.1 hnext
      obtain ⟨lines, closing, body, hrest, hlength, hlines, hclosing⟩ := ih hphase hroom h
      replace hrest : rest = spellLines lines closing body := hrest
      replace hlength : r.fieldCount + 1 + lines.length ≤ r.limits.maxFields := hlength
      refine ⟨line :: lines, closing, body, ?_, ?_,
        List.forall_mem_cons.2 ⟨hline, hlines⟩, hclosing⟩
      · rw [hbuffer, hrest, spellLines, spellLines]
        simp
      · rw [List.length_cons]
        omega
  | case2 r last result hstop =>
      rw [run_eq_of_stop hstop] at h
      cases h
      rw [advance_fields hphase] at hstop
      obtain ⟨closing, body, hclosing, hbuffer, _⟩ := advanceField_eq_finished_iff.1 hstop
      exact ⟨[], closing, body, hbuffer, hcount, fun _ hmem => absurd hmem List.not_mem_nil,
        hclosing⟩

/-- **Field lines are read one by one**, by induction on them, up to the line that closes the
header. -/
theorem run_of_spellLines {r : HeaderReader} {lines : List Bytes} {closing body : Bytes}
    (hphase : r.phase = .fields) (hbuffer : r.buffer = spellLines lines closing body)
    (hcount : r.fieldCount + lines.length ≤ r.limits.maxFields)
    (hlines : ∀ line ∈ lines, IsFieldLine line)
    (hclosing : closing = [] ∨ closing = [carriageReturn]) :
    ∃ final, r.run = (final, .ok .finished) ∧ final.header = lines.foldl recordLine r.header ∧
      final.buffer = body := by
  induction lines generalizing r with
  | nil =>
      have hstop := advanceField_eq_finished_iff.2 ⟨closing, body, hclosing, hbuffer, rfl⟩
      exact ⟨_, run_eq_of_stop ((advance_fields hphase).trans hstop), rfl, rfl⟩
  | cons line lines ih =>
      rw [List.length_cons] at hcount
      obtain ⟨hline, hlines⟩ := List.forall_mem_cons.1 hlines
      have hcut : r.buffer = line ++ lineFeed :: spellLines lines closing body := by
        rw [hbuffer, spellLines, spellLines]
        simp
      have hnext := advanceField_eq_next_iff.2 ⟨line, _, by omega, hline, hcut, rfl⟩
      rw [run_eq_of_next ((advance_fields hphase).trans hnext), List.foldl_cons,
        ← header_takeLine]
      have hroom : r.fieldCount + 1 + lines.length ≤ r.limits.maxFields := by omega
      exact ih (r := r.takeLine line (spellLines lines closing body)) hphase rfl hroom hlines

/-- A round that comes to the end of a header was over its last line, or there was none. -/
theorem phase_of_advance_finished {r final : HeaderReader}
    (h : r.advance = .stop final (.ok .finished)) : r.phase = .fields ∨ r.phase = .body := by
  have hadvances := advances_advance r
  rw [h] at hadvances
  cases hadvances with
  | finished hphase => exact .inr hphase
  | ended token rest delimiter hphase hcut => exact .inl hphase

/-- A header of which the request line is not read yet takes another round. -/
theorem exists_next_of_run {r final : HeaderReader} (hphase : r.phase ≠ .fields ∧ r.phase ≠ .body)
    (h : r.run = (final, .ok .finished)) :
    ∃ next, r.advance = .next next ∧ next.run = (final, .ok .finished) := by
  refine (run_eq_finished_iff.1 h).resolve_left fun hstop => ?_
  rcases phase_of_advance_finished hstop with hfields | hbody
  · exact hphase.1 hfields
  · exact hphase.2 hbody

/-- Whatever is accepted is spelled by the grammar. -/
theorem exists_text_of_run {limits : HeaderLimits} {s : Bytes} {final : HeaderReader}
    (h : ({ limits, buffer := s } : HeaderReader).run = (final, .ok .finished)) :
    ∃ t : HeaderText, t.Accepted limits ∧ t.bytes = s := by
  -- One round for each part of the request line, then the field lines.
  obtain ⟨_, hround, h⟩ := exists_next_of_run (by simp) h
  obtain ⟨method, s₁, hmethod, hs, rfl⟩ :=
    (advance_method_iff rfl).1 hround
  obtain ⟨_, hround, h⟩ := exists_next_of_run (by simp) h
  obtain ⟨target, s₂, htarget, hs₁, rfl⟩ :=
    (advance_target_iff rfl).1 hround
  obtain ⟨_, hround, h⟩ := exists_next_of_run (by simp) h
  obtain ⟨protocol, s₃, hslash, hfeed, hs₂, rfl⟩ :=
    advanceProtocol_eq_next_iff.1 ((advance_protocol rfl).symm.trans hround)
  obtain ⟨_, hround, h⟩ := exists_next_of_run (by simp) h
  obtain ⟨version, s₄, hversionFeed, hne, hunbroken, hs₃, rfl⟩ :=
    advanceVersion_eq_next_iff.1 ((advance_version rfl).symm.trans hround)
  obtain ⟨lines, closing, body, hs₄, hcount, hlines, hclosing⟩ :=
    exists_lines_of_run rfl (Nat.zero_le _) h
  replace hs : s = Utf8.ofString method ++ space :: s₁ := hs
  replace hs₁ : s₁ = Utf8.ofString target ++ space :: s₂ := hs₁
  replace hs₂ : s₂ = Utf8.ofString protocol ++ slash :: s₃ := hs₂
  replace hs₃ : s₃ = version ++ lineFeed :: s₄ := hs₃
  replace hs₄ : s₄ = spellLines lines closing body := hs₄
  replace hcount : 0 + lines.length ≤ limits.maxFields := hcount
  refine ⟨⟨method, target, protocol, version, lines, closing, body⟩, ?_, ?_⟩
  · exact ⟨hmethod, htarget, hslash, hfeed, hversionFeed, hne, hunbroken, by simpa using hcount,
      hlines, hclosing⟩
  · rw [hs, hs₁, hs₂, hs₃, hs₄]
    rfl

def afterRequestLine (limits : HeaderLimits) (t : HeaderText) : HeaderReader where
  limits
  phase := .fields
  buffer := spellLines t.lines t.closing t.body
  consumed := 0 + (Utf8.ofString t.method).length + 1 + (Utf8.ofString t.target).length + 1 +
    (Utf8.ofString t.protocol).length + 1 + t.version.length + 1
  header := {
    method := t.method
    target := t.target
    protocol := t.protocol
    version := String.ofList (versionOf t.version) }

/-- The request line is read in four rounds. -/
theorem run_requestLine {limits : HeaderLimits} {t : HeaderText} (h : t.Accepted limits) :
    ({ limits, buffer := t.bytes } : HeaderReader).run = (afterRequestLine limits t).run := by
  refine (run_eq_of_next ((advance_method_iff rfl).2 ⟨t.method, _, h.method, rfl, rfl⟩)).trans ?_
  refine (run_eq_of_next ((advance_target_iff rfl).2 ⟨t.target, _, h.target, rfl, rfl⟩)).trans ?_
  refine (run_eq_of_next ((advance_protocol rfl).trans (advanceProtocol_eq_next_iff.2
    ⟨t.protocol, _, h.protocolNoSlash, h.protocolNoFeed, rfl, rfl⟩))).trans ?_
  exact run_eq_of_next ((advance_version rfl).trans (advanceVersion_eq_next_iff.2
    ⟨t.version, _, h.versionNoFeed, h.version_ne_nil, h.versionUnbroken, rfl, rfl⟩))

/-- Whatever the grammar spells is accepted, and read as what it says. -/
theorem run_of_text {limits : HeaderLimits} {t : HeaderText} (h : t.Accepted limits) :
    ∃ final, ({ limits, buffer := t.bytes } : HeaderReader).run = (final, .ok .finished) ∧
      t.Says final := by
  obtain ⟨final, hrun, hheader, hbuffer⟩ :=
    run_of_spellLines (r := afterRequestLine limits t) rfl rfl (by
      simpa [afterRequestLine] using h.count) h.lines h.closing
  rw [foldl_recordLine] at hheader
  refine ⟨final, (run_requestLine h).trans hrun, ?_⟩
  constructor
  case fields =>
    intro name
    rw [hheader]
    exact (NameMap.get?_foldl_insert _ _ _).trans (Option.or_none ..)
  case cookies =>
    intro name
    rw [hheader]
    exact (NameMap.get?_foldl_insert _ _ _).trans (Option.or_none ..)
  case leftover => exact hbuffer
  all_goals
    rw [hheader]
    rfl

/-- Within the limit, such a text is read at once. -/
theorem feed_of_text {limits : HeaderLimits} {t : HeaderText} (h : t.Accepted limits)
    (fits : t.bytes.length ≤ limits.maxBytes) :
    ∃ final, ({ limits } : HeaderReader).feed t.bytes = (final, .ok .finished) ∧ t.Says final := by
  obtain ⟨final, hrun, hsays⟩ := run_of_text h
  have hgiven : ({ limits } : HeaderReader).given + t.bytes.length ≤ limits.maxBytes := by
    simpa [given] using fits
  exact ⟨final, (feed_of_fits rfl hgiven).trans hrun, hsays⟩

/-- **A reader accepts exactly its grammar.** Bytes within the limit are read to the end of a header
exactly if they spell a `HeaderText`: a method and a target of UTF-8, each ended by a space, a
protocol of UTF-8 up to a slash, a version without blanks, field lines as many as the limit allows,
each starting with a letter or digit and holding a colon, and an empty line. The header then says
what is spelled: later fields and cookies replace earlier ones of the same name, cookie lines are no
fields, and all that follows the empty line is left for the body. -/
theorem finished_iff_spells (limits : HeaderLimits) (s : Bytes)
    (fits : s.length ≤ limits.maxBytes) :
    ((∃ later, ({ limits } : HeaderReader).feed s = (later, .ok .finished)) ↔
      ∃ t : HeaderText, t.Accepted limits ∧ t.bytes = s) ∧
    ∀ (t : HeaderText) (later : HeaderReader), t.Accepted limits → t.bytes = s →
      ({ limits } : HeaderReader).feed s = (later, .ok .finished) → t.Says later := by
  have hfeed : ({ limits } : HeaderReader).feed s =
      ({ limits, buffer := s } : HeaderReader).run := by
    refine feed_of_fits rfl ?_
    simpa [given] using fits
  rw [hfeed]
  refine ⟨⟨?_, ?_⟩, ?_⟩
  · rintro ⟨later, hrun⟩
    exact exists_text_of_run hrun
  · rintro ⟨t, haccepted, rfl⟩
    obtain ⟨final, hrun, _⟩ := run_of_text haccepted
    exact ⟨final, hrun⟩
  · rintro t later haccepted rfl hlater
    obtain ⟨final, hrun, hsays⟩ := run_of_text haccepted
    rw [hrun] at hlater
    cases hlater
    exact hsays

/-- A request for the root with these field lines. -/
def rootRequest (lines : List Bytes) : HeaderText where
  method := "GET"
  target := "/"
  protocol := "HTTP"
  version := Utf8.ofString "1.1\r"
  lines
  closing := [carriageReturn]
  body := []

/-- A request for the root is accepted with any field lines. -/
theorem accepted_rootRequest {limits : HeaderLimits} {lines : List Bytes}
    (hlines : ∀ line ∈ lines, IsFieldLine line) (hcount : lines.length ≤ limits.maxFields) :
    (rootRequest lines).Accepted limits := by
  have hversion : versionOf (rootRequest lines).version = ['1', '.', '1'] := by
    change versionOf (Utf8.ofString "1.1\r") = _
    decide +kernel
  constructor
  case method =>
    change IsWord (Utf8.ofString "GET")
    constructor <;> decide +kernel
  case target =>
    change IsWord (Utf8.ofString "/")
    constructor <;> decide +kernel
  case protocolNoSlash | protocolNoFeed =>
    change _ ∉ Utf8.ofString "HTTP"
    decide +kernel
  case versionNoFeed =>
    change _ ∉ Utf8.ofString "1.1\r"
    decide +kernel
  case version_ne_nil =>
    rw [hversion]
    exact List.cons_ne_nil _ _
  case versionUnbroken =>
    rw [hversion]
    simp [isAsciiBlank]
  case count => exact hcount
  case lines => exact hlines
  case closing => exact .inr rfl

/-- A header with a field sent twice, a cookie line in capitals, and one byte of the body:
`G / H/1`, `A: b`, `COOKIE: c=1`, `A:d`. -/
def repeatedField : HeaderText where
  method := "G"
  target := "/"
  protocol := "H"
  version := [0x31, carriageReturn]
  lines := [Utf8.ofString "A: b", Utf8.ofString "COOKIE: c=1\r", Utf8.ofString "A:d"]
  closing := [carriageReturn]
  body := [0x78]

/-- Of a field that is given twice the later value is found, and cookies are no field. -/
theorem finished_repeatedField :
    repeatedField.bytes.length ≤ ({} : HeaderLimits).maxBytes ∧ repeatedField.Accepted {} ∧
      ∃ later, ({} : HeaderReader).feed repeatedField.bytes = (later, .ok .finished) ∧
        later.header.fields.get? "A" = some "d" ∧ later.header.fields.get? "COOKIE" = none ∧
        later.header.cookies.get? "c" = some "1" ∧ later.buffer = [0x78] := by
  have fits : repeatedField.bytes.length ≤ ({} : HeaderLimits).maxBytes := by decide +kernel
  have haccepted : repeatedField.Accepted {} := by
    constructor
    case method | target => constructor <;> decide +kernel
    case closing => exact .inr rfl
    case lines =>
      intro line hline
      simp only [repeatedField, List.mem_cons, List.not_mem_nil, or_false] at hline
      rcases hline with rfl | rfl | rfl <;> constructor <;> decide +kernel
    case versionUnbroken =>
      have hversion : versionOf repeatedField.version = ['1'] := by decide +kernel
      rw [hversion]
      exact List.forall_mem_singleton.2 (by decide +kernel)
    all_goals decide +kernel
  obtain ⟨hiff, hsays⟩ := finished_iff_spells {} repeatedField.bytes fits
  obtain ⟨later, hlater⟩ := hiff.2 ⟨repeatedField, haccepted, rfl⟩
  have h := hsays repeatedField later haccepted rfl hlater
  refine ⟨fits, haccepted, later, hlater, ?_, ?_, ?_, h.leftover⟩
  · rw [h.fields]
    decide +kernel
  · rw [h.fields]
    decide +kernel
  · rw [h.cookies]
    decide +kernel

end HeaderReader

end HttpServer
