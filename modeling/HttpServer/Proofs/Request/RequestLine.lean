import HttpServer.Proofs.Request.Grammar
import HttpServer.Proofs.Request.Pieces

/-!
# Request lines

A `RequestLine` spells the first line of a request. A reader takes exactly these lines for what they
say: it passes the line, refuses it without a word about a limit, or waits for its end
(`HeaderReader.lineReading_run`). What it passes need not be three tokens
(`HeaderReader.ThreeTokens`): the protocol may be empty or hold spaces, for it is ended by the slash
alone, the version may have blanks in front of it, for it is trimmed on both sides, and it may be no
text, for it is read leniently. All other lines are (`HeaderReader.three_tokens_iff`).
-/

namespace HttpServer

/-! ## Blanks around a text -/

/-- What trimming takes off the end are blanks. -/
theorem exists_append_of_trimEnd (cs : List Char) :
    ∃ blanks, (∀ c ∈ blanks, isBlank c = true) ∧ cs = trimEnd cs ++ blanks := by
  refine ⟨(cs.reverse.takeWhile isBlank).reverse, ?_, ?_⟩
  · intro c hc
    exact List.all_eq_true.1 List.all_takeWhile c (List.mem_reverse.1 hc)
  · rw [trimEnd, ← List.reverse_append, List.takeWhile_append_dropWhile, List.reverse_reverse]

/-- A trimmed text does not end with a blank. -/
theorem getLast?_trimEnd (cs : List Char) : (trimEnd cs).getLast?.any isBlank = false := by
  rw [trimEnd, List.getLast?_reverse]
  have h := List.head?_dropWhile_not isBlank cs.reverse
  cases hhead : (cs.reverse.dropWhile isBlank).head? with
  | none => rfl
  | some c =>
      rw [hhead] at h
      exact h

theorem head?_trim (cs : List Char) : (trim cs).head?.any isBlank = false := by
  obtain ⟨blanks, _, happend⟩ := exists_append_of_trimEnd (trimStart cs)
  have h := List.head?_dropWhile_not isBlank cs
  rw [← trimStart, happend, ← trim] at h
  cases htrim : trim cs with
  | nil => rfl
  | cons c rest =>
      rw [htrim] at h
      exact h

theorem trimStart_eq_self {cs : List Char} (h : cs.head?.any isBlank = false) :
    trimStart cs = cs := by
  cases cs with
  | nil => rfl
  | cons c cs =>
      have hsolid : isBlank c = false := h
      rw [trimStart, List.dropWhile_cons_of_neg (by simp [hsolid])]

namespace HeaderReader

open HeaderText

/-- The text of a line that is text lacks at most blanks at its end. -/
theorem exists_append_of_lineText (text : String) :
    ∃ blanks, (∀ c ∈ blanks, isBlank c = true) ∧
      text.toList = (lineText (Utf8.ofString text)).toList ++ blanks := by
  rcases List.eq_nil_or_concat text.toList with hnil | ⟨front, last, hconcat⟩
  · refine ⟨[], by simp, ?_⟩
    have hbytes : Utf8.ofString text = [] := by
      rw [Utf8.ofString, hnil, Utf8.encode, List.flatMap_nil]
    rw [hnil, hbytes, lineText, List.getLast?_nil, if_neg (by simp),
      Utf8.toStringLossy_eq_empty_iff.2 rfl]
    rfl
  have hbytes : Utf8.ofString text = Utf8.encode front ++ Utf8.encodeChar last := by
    rw [Utf8.ofString, hconcat, List.concat_eq_append, Utf8.encode, List.flatMap_append]
    simp [Utf8.encode]
  by_cases hlast : last = '\r'
  · refine ⟨['\r'], List.forall_mem_singleton.2 rfl, ?_⟩
    have hreturn : Utf8.encodeChar last = [carriageReturn] := by
      rw [hlast]
      rfl
    rw [hconcat, hlast, lineText, hbytes, hreturn, List.getLast?_concat, if_pos rfl,
      List.dropLast_concat, Utf8.toStringLossy_encode, String.toList_ofList, List.concat_eq_append]
  · -- The last byte belongs to the last character, and this is no carriage return.
    have hother : (Utf8.encodeChar last).getLast? ≠ some carriageReturn := by
      intro hreturn
      apply hlast
      have hmem := (Utf8.mem_encodeChar_iff (by decide) last).1 (List.mem_of_getLast? hreturn)
      exact Char.toNat_inj.1 hmem
    have hend : (Utf8.ofString text).getLast? ≠ some carriageReturn := by
      rw [hbytes, List.getLast?_append]
      obtain ⟨b, bs, hchar, -⟩ := Utf8.front_encodeChar last []
      rw [List.append_nil] at hchar
      rw [hchar] at hother ⊢
      simpa [List.getLast?_cons] using hother
    refine ⟨[], by simp, ?_⟩
    rw [lineText, if_neg hend, Utf8.ofString, Utf8.toStringLossy_encode, String.toList_ofList,
      List.append_nil]

end HeaderReader

/-- A token: not empty, and no space inside. -/
structure IsToken (token : String) : Prop where
  ne_empty : token ≠ ""
  noSpace : ' ' ∉ token.toList

/-- The first line of a request, without its line feed. -/
structure RequestLine where
  method : String
  target : String
  protocol : String
  /-- What stands behind the slash. -/
  version : Bytes

namespace RequestLine

open HeaderReader HeaderText

/-- The line on the wire. -/
def bytes (l : RequestLine) : Bytes :=
  Utf8.ofString l.method ++ space :: (Utf8.ofString l.target ++ space ::
    (Utf8.ofString l.protocol ++ slash :: l.version))

/-- The lines that a reader takes: method and target are words, the protocol has no slash, and the
version, trimmed, is not empty and has no blanks of ASCII. -/
structure Accepted (l : RequestLine) : Prop where
  method : IsWord (Utf8.ofString l.method)
  target : IsWord (Utf8.ofString l.target)
  protocolNoSlash : slash ∉ Utf8.ofString l.protocol
  protocolNoFeed : lineFeed ∉ Utf8.ofString l.protocol
  versionNoFeed : lineFeed ∉ l.version
  version_ne_nil : versionOf l.version ≠ []
  versionUnbroken : ∀ c ∈ versionOf l.version, isAsciiBlank c = false

/-- The header has the parts of the line. -/
structure Says (l : RequestLine) (h : HeaderSection) : Prop where
  method : h.method = l.method
  target : h.target = l.target
  protocol : h.protocol = l.protocol
  version : h.version = String.ofList (versionOf l.version)

/-- The protocol is a token, and the version is a text without blanks in front. -/
structure Tidy (l : RequestLine) : Prop where
  protocol : IsToken l.protocol
  version : ∃ text : String, l.version = Utf8.ofString text ∧ text.toList.head?.any isBlank = false

/-- A request line is one line. -/
theorem Accepted.noFeed {l : RequestLine} (h : l.Accepted) : lineFeed ∉ l.bytes := by
  have hspace : lineFeed ≠ space := by decide
  have hslash : lineFeed ≠ slash := by decide
  simp [bytes, h.method.noFeed, h.target.noFeed, h.protocolNoFeed, h.versionNoFeed, hspace, hslash]

end RequestLine

namespace HeaderReader

open HeaderText

/-! ## Reading the line -/

/-- The reader behind a request line. -/
def pastLine (limits : HeaderLimits) (l : RequestLine) (rest : Bytes) : HeaderReader where
  limits
  phase := .fields
  buffer := rest
  consumed := 0 + (Utf8.ofString l.method).length + 1 + (Utf8.ofString l.target).length + 1 +
    (Utf8.ofString l.protocol).length + 1 + l.version.length + 1
  header := {
    method := l.method
    target := l.target
    protocol := l.protocol
    version := String.ofList (versionOf l.version) }

/-- **How the first line of a stream is read.** The reader passes it, refuses one of its tokens, or
has not seen the end of it. -/
inductive LineReading (limits : HeaderLimits) (s : Bytes) :
    HeaderReader × Except ParseError Progress → Prop
  | passed (l : RequestLine) (rest : Bytes) (haccepted : l.Accepted)
      (hs : s = l.bytes ++ lineFeed :: rest) : LineReading limits s (pastLine limits l rest).run
  | refused (final : HeaderReader) (e : ParseError) (hphase : final.phase.rank < Phase.fields.rank)
      (he : e.isLimit = false) : LineReading limits s (final, .error e)
  | waiting (final : HeaderReader) (hphase : final.phase.rank < Phase.fields.rank)
      (hs : lineFeed ∉ s) : LineReading limits s (final, .ok .needMoreData)

/-- Where nothing is cut off there is no delimiter. -/
theorem forall_of_cutAt?_eq_none {isDelimiter : UInt8 → Bool} {bs : Bytes}
    (h : cutAt? isDelimiter bs = none) : ∀ b ∈ bs, isDelimiter b = false := by
  induction bs with
  | nil => simp
  | cons b bs ih =>
      rw [cutAt?] at h
      split at h
      · cases h
      · rename_i hb
        exact List.forall_mem_cons.2 ⟨by simpa using hb, ih (Option.map_eq_none_iff.1 h)⟩

/-- Where there is no delimiter nothing is cut off. -/
theorem cutAt?_eq_none_of_forall {isDelimiter : UInt8 → Bool} {bs : Bytes}
    (h : ∀ b ∈ bs, isDelimiter b = false) : cutAt? isDelimiter bs = none := by
  induction bs with
  | nil => rfl
  | cons b bs ih =>
      obtain ⟨hb, hbs⟩ := List.forall_mem_cons.1 h
      rw [cutAt?, if_neg (by simp [hb]), ih hbs, Option.map_none]

/-- A line feed ends the token of every phase. -/
theorem delimits_lineFeed {phase : Phase} (h : phase ≠ .body) : phase.delimits lineFeed = true := by
  cases phase with
  | body => exact absurd rfl h
  | method | target | protocol | version | fields => rfl

/-- While a round waits, no line feed has come. -/
theorem noFeed_of_waiting {r final : HeaderReader}
    (h : r.advance = .stop final (.ok .needMoreData)) : lineFeed ∉ r.buffer := by
  intro hfeed
  have hadvances := advances_advance r
  rw [h] at hadvances
  cases hadvances with
  | waiting hbody hcut =>
      have hother := forall_of_cutAt?_eq_none hcut lineFeed hfeed
      rw [delimits_lineFeed hbody] at hother
      cases hother

/-- The rounds over the request line stop by finding fault with a token, or for lack of data, and
then the line feed has not come. -/
theorem of_stop_in_line {r final : HeaderReader} {answer : Except ParseError Progress}
    (hrank : r.phase.rank < Phase.fields.rank) (h : r.advance = .stop final answer) :
    final.phase = r.phase ∧ ((∃ e, answer = .error e ∧ e.isLimit = false) ∨
      (answer = .ok .needMoreData ∧ lineFeed ∉ r.buffer)) := by
  have hfields : r.phase ≠ .fields := by
    intro hphase
    rw [hphase] at hrank
    exact Nat.lt_irrefl _ hrank
  have hfault : ∀ e, answer = .error e → e.isLimit = false := by
    rintro e rfl
    exact (fault_of_stop h).resolve_right fun hmany => hfields hmany.1
  have hwaits : answer = .ok .needMoreData → lineFeed ∉ r.buffer := by
    rintro rfl
    exact noFeed_of_waiting h
  have hadvances := advances_advance r
  rw [h] at hadvances
  cases hadvances with
  | finished hphase =>
      rw [hphase] at hrank
      exact absurd hrank (by decide)
  | waiting hphase hcut => exact ⟨rfl, .inr ⟨rfl, hwaits rfl⟩⟩
  | misplaced e hphase => exact ⟨rfl, .inl ⟨e, rfl, hfault e rfl⟩⟩
  | refused token rest delimiter e hphase hcut => exact ⟨rfl, .inl ⟨e, rfl, hfault e rfl⟩⟩
  | ended token rest delimiter hphase hcut => exact absurd hphase hfields

/-- The reading of a line is over with a round that stops, so only those that go on are of
interest. -/
theorem LineReading.of_next {limits : HeaderLimits} {s taken : Bytes} {r : HeaderReader}
    (hrank : r.phase.rank < Phase.fields.rank) (hs : s = taken ++ r.buffer)
    (htaken : lineFeed ∉ taken)
    (hnext : ∀ next, r.advance = .next next → LineReading limits s next.run) :
    LineReading limits s r.run := by
  cases hround : r.advance with
  | next next =>
      rw [run_eq_of_next hround]
      exact hnext next hround
  | stop final answer =>
      rw [run_eq_of_stop hround]
      obtain ⟨hphase, ⟨e, rfl, he⟩ | ⟨rfl, hbuffer⟩⟩ := of_stop_in_line hrank hround
      · exact .refused final e (hphase ▸ hrank) he
      · exact .waiting final (hphase ▸ hrank) (by simp [hs, htaken, hbuffer])

/-- **The first line of a stream** is read to its end, refused, or incomplete. -/
theorem lineReading_run (limits : HeaderLimits) (s : Bytes) :
    LineReading limits s ({ limits, buffer := s } : HeaderReader).run := by
  have hspace : lineFeed ≠ space := by decide
  have hslash : lineFeed ≠ slash := by decide
  -- One round for each part of the line. No line feed is taken before the last one.
  generalize hr : ({ limits, buffer := s } : HeaderReader) = r
  have hphase : r.phase = .method := by rw [← hr]
  have hs : s = [] ++ r.buffer := by rw [← hr, List.nil_append]
  apply LineReading.of_next (by rw [hphase]; decide) hs (by simp)
  intro r₁ hround
  obtain ⟨method, s₁, hmethod, hbuffer, hr₁⟩ := (advance_method_iff hphase).1 hround
  have hphase₁ : r₁.phase = .target := by rw [hr₁]
  have hs₁ : s = Utf8.ofString method ++ [space] ++ r₁.buffer := by
    rw [hs, hbuffer, hr₁, List.append_assoc]
    rfl
  apply LineReading.of_next (by rw [hphase₁]; decide) hs₁ (by simp [hmethod.noFeed, hspace])
  intro r₂ hround
  obtain ⟨target, s₂, htarget, hbuffer, hr₂⟩ := (advance_target_iff hphase₁).1 hround
  have hphase₂ : r₂.phase = .protocol := by rw [hr₂]
  have hs₂ : s =
      Utf8.ofString method ++ [space] ++ (Utf8.ofString target ++ [space]) ++ r₂.buffer := by
    rw [hs₁, hbuffer, hr₂]
    simp [take]
  apply LineReading.of_next (by rw [hphase₂]; decide) hs₂
    (by simp [hmethod.noFeed, htarget.noFeed, hspace])
  intro r₃ hround
  rw [advance_protocol hphase₂] at hround
  obtain ⟨protocol, s₃, hnoSlash, hnoFeed, hbuffer, hr₃⟩ := advanceProtocol_eq_next_iff.1 hround
  have hphase₃ : r₃.phase = .version := by rw [hr₃]
  have hs₃ : s = Utf8.ofString method ++ [space] ++ (Utf8.ofString target ++ [space]) ++
      (Utf8.ofString protocol ++ [slash]) ++ r₃.buffer := by
    rw [hs₂, hbuffer, hr₃]
    simp [take]
  apply LineReading.of_next (by rw [hphase₃]; decide) hs₃
    (by simp [hmethod.noFeed, htarget.noFeed, hnoFeed, hspace, hslash])
  intro r₄ hround
  rw [advance_version hphase₃] at hround
  obtain ⟨version, s₄, hversion, hne, hunbroken, hbuffer, hr₄⟩ :=
    advanceVersion_eq_next_iff.1 hround
  have hend : r₄ = pastLine limits ⟨method, target, protocol, version⟩ s₄ := by
    rw [hr₄, hr₃, hr₂, hr₁, ← hr]
    rfl
  rw [hend]
  apply LineReading.passed ⟨method, target, protocol, version⟩ s₄
  · exact ⟨hmethod, htarget, hnoSlash, hnoFeed, hversion, hne, hunbroken⟩
  · rw [hs₃, hbuffer, RequestLine.bytes]
    simp

/-- An accepted line is passed, whatever follows it. -/
theorem run_line {l : RequestLine} (h : l.Accepted) (limits : HeaderLimits) (rest : Bytes) :
    ({ limits, buffer := l.bytes ++ lineFeed :: rest } : HeaderReader).run =
      (pastLine limits l rest).run := by
  have hbytes : l.bytes ++ lineFeed :: rest = Utf8.ofString l.method ++ space ::
      (Utf8.ofString l.target ++ space :: (Utf8.ofString l.protocol ++ slash ::
        (l.version ++ lineFeed :: rest))) := by
    simp [RequestLine.bytes]
  refine (run_eq_of_next ((advance_method_iff rfl).2 ⟨l.method, _, h.method, hbytes, rfl⟩)).trans ?_
  refine (run_eq_of_next ((advance_target_iff rfl).2 ⟨l.target, _, h.target, rfl, rfl⟩)).trans ?_
  refine (run_eq_of_next ((advance_protocol rfl).trans (advanceProtocol_eq_next_iff.2
    ⟨l.protocol, _, h.protocolNoSlash, h.protocolNoFeed, rfl, rfl⟩))).trans ?_
  exact run_eq_of_next ((advance_version rfl).trans (advanceVersion_eq_next_iff.2
    ⟨l.version, _, h.versionNoFeed, h.version_ne_nil, h.versionUnbroken, rfl, rfl⟩))

/-- The reader has passed the request line. -/
def IsPastLine (r : HeaderReader) : Prop := r.phase = .fields ∨ r.phase = .body

/-- To be past the line is to have come to the fields. -/
theorem isPastLine_iff {r : HeaderReader} : r.IsPastLine ↔ Phase.fields.rank ≤ r.phase.rank := by
  rw [IsPastLine]
  cases r.phase <;> simp [Phase.rank]

/-- Recording a line changes fields and cookies alone. -/
theorem exists_recordLine (h : HeaderSection) (line : Bytes) :
    ∃ fields cookies, recordLine h line = { h with fields, cookies } := by
  unfold recordLine
  split
  · exact ⟨_, _, rfl⟩
  · exact ⟨_, _, rfl⟩

/-- A round that stops has recorded nothing. -/
theorem header_of_stop {r final : HeaderReader} {answer : Except ParseError Progress}
    (h : r.advance = .stop final answer) : final.header = r.header := by
  have hadvances := advances_advance r
  rw [h] at hadvances
  cases hadvances <;> rfl

/-- The fields leave the parts of the request line as they are. -/
theorem says_run {l : RequestLine} {r : HeaderReader} (hphase : r.phase = .fields)
    (hsaid : l.Says r.header) : l.Says r.run.1.header := by
  induction r using run.induct with
  | case1 r next hnext _ ih =>
      rw [run_eq_of_next hnext]
      rw [advance_fields hphase] at hnext
      obtain ⟨line, rest, _, _, _, rfl⟩ := advanceField_eq_next_iff.1 hnext
      apply ih hphase
      obtain ⟨fields, cookies, hrecord⟩ := exists_recordLine r.header line
      rw [header_takeLine, hrecord]
      exact ⟨hsaid.method, hsaid.target, hsaid.protocol, hsaid.version⟩
  | case2 r final answer hstop =>
      rw [run_eq_of_stop hstop, header_of_stop hstop]
      exact hsaid

/-- A reader does not go back to the request line. -/
theorem isPastLine_run_pastLine (limits : HeaderLimits) (l : RequestLine) (rest : Bytes) :
    (pastLine limits l rest).run.1.IsPastLine :=
  isPastLine_iff.2 (readsOnTo_run (pastLine limits l rest)).rank

/-- What was read of the line stays as it was. -/
theorem says_run_pastLine (limits : HeaderLimits) (l : RequestLine) (rest : Bytes) :
    l.Says (pastLine limits l rest).run.1.header :=
  says_run rfl ⟨rfl, rfl, rfl, rfl⟩

/-! ## Three tokens -/

/-- **Three tokens.** The line is the method, the target, and the protocol with a slash and the
version, all of them tokens, with one space between them and blanks at most behind them. -/
structure ThreeTokens (line : Bytes) (h : HeaderSection) : Prop where
  spelled : ∃ blanks : String, (∀ c ∈ blanks.toList, isBlank c = true) ∧
    line = Utf8.ofString h.method ++ space :: (Utf8.ofString h.target ++ space ::
      (Utf8.ofString h.protocol ++ slash :: (Utf8.ofString h.version ++ Utf8.ofString blanks)))
  /-- The version ends where the blanks begin. -/
  ended : h.version.toList.getLast?.any isBlank = false
  method : IsToken h.method
  target : IsToken h.target
  protocol : IsToken h.protocol
  version : IsToken h.version

/-- A word is a token. -/
theorem isToken_of_isWord {word : String} (h : IsWord (Utf8.ofString word)) : IsToken word := by
  constructor
  case ne_empty =>
    intro hempty
    apply h.ne_nil
    rw [hempty]
    rfl
  case noSpace =>
    intro hmem
    exact h.noSpace ((Utf8.mem_ofString_iff (by decide) word).2 hmem)

/-- The version of an accepted line is a token. -/
theorem isToken_version {l : RequestLine} (h : l.Accepted) :
    IsToken (String.ofList (versionOf l.version)) := by
  constructor
  case ne_empty =>
    intro hempty
    apply h.version_ne_nil
    rw [← String.toList_ofList (l := versionOf l.version), hempty]
    rfl
  case noSpace =>
    intro hmem
    rw [String.toList_ofList] at hmem
    exact absurd (h.versionUnbroken ' ' hmem) (by decide)

/-- Trimming on both sides is trimming at the end, for a text without blanks in front. -/
theorem exists_append_of_versionOf {text : String}
    (hstart : text.toList.head?.any isBlank = false) :
    ∃ blanks : String, (∀ c ∈ blanks.toList, isBlank c = true) ∧
      text = String.ofList (versionOf (Utf8.ofString text)) ++ blanks := by
  obtain ⟨behind, hbehind, htext⟩ := exists_append_of_lineText text
  have hfront : (lineText (Utf8.ofString text)).toList.head?.any isBlank = false := by
    cases hline : (lineText (Utf8.ofString text)).toList with
    | nil => rfl
    | cons c cs =>
        rw [htext, hline] at hstart
        exact hstart
  obtain ⟨blanks, hblanks, hline⟩ :=
    exists_append_of_trimEnd (lineText (Utf8.ofString text)).toList
  refine ⟨String.ofList (blanks ++ behind), ?_, ?_⟩
  · intro c hc
    rw [String.toList_ofList] at hc
    exact (List.mem_append.1 hc).elim (hblanks c) (hbehind c)
  · rw [← String.ofList_append, versionOf, trim, trimStart_eq_self hfront, ← List.append_assoc,
      ← hline, ← htext, String.ofList_toList]

/-- An accepted line is three tokens exactly if it is tidy. -/
theorem threeTokens_iff_tidy {l : RequestLine} {h : HeaderSection} (haccepted : l.Accepted)
    (hsaid : l.Says h) : ThreeTokens l.bytes h ↔ l.Tidy := by
  constructor
  · intro htokens
    obtain ⟨blanks, -, hspelled⟩ := htokens.spelled
    rw [RequestLine.bytes, hsaid.method, hsaid.target, hsaid.protocol] at hspelled
    have hversion : l.version = Utf8.ofString h.version ++ Utf8.ofString blanks := by
      simpa using hspelled
    have hprotocol := htokens.protocol
    rw [hsaid.protocol] at hprotocol
    refine ⟨hprotocol, h.version ++ blanks, ?_, ?_⟩
    · rw [hversion, Utf8.ofString_append]
    · have hfront := head?_trim (lineText l.version).toList
      rw [String.toList_append, hsaid.version, String.toList_ofList, versionOf]
      cases htrim : trim (lineText l.version).toList with
      | nil => exact absurd htrim haccepted.version_ne_nil
      | cons c cs =>
          rw [htrim] at hfront
          exact hfront
  · intro htidy
    obtain ⟨hprotocol, text, htext, hstart⟩ := htidy
    obtain ⟨blanks, hblanks, hsplit⟩ := exists_append_of_versionOf hstart
    constructor
    case spelled =>
      refine ⟨blanks, hblanks, ?_⟩
      have hversion : l.version = Utf8.ofString h.version ++ Utf8.ofString blanks := by
        rw [← htext] at hsplit
        rw [hsaid.version, ← Utf8.ofString_append, ← hsplit, htext]
      rw [RequestLine.bytes, hsaid.method, hsaid.target, hsaid.protocol, hversion]
    case ended =>
      rw [hsaid.version, String.toList_ofList]
      exact getLast?_trimEnd _
    case method => exact hsaid.method ▸ isToken_of_isWord haccepted.method
    case target => exact hsaid.target ▸ isToken_of_isWord haccepted.target
    case protocol => exact hsaid.protocol ▸ hprotocol
    case version => exact hsaid.version ▸ isToken_version haccepted

/-- Where a new reader stands, it stands for the start of the stream that it was given. -/
theorem exists_run_of_feedAll (limits : HeaderLimits) (pieces : List Bytes) :
    ∃ start rest missing answer, pieces.flatten = start ++ rest ∧
      ({ limits, buffer := start } : HeaderReader).run =
        ((({ limits } : HeaderReader).feedAll pieces).1.extend missing, answer) := by
  have hreading := reading_feedAll (isWaiting_new limits) pieces
  generalize ({ limits } : HeaderReader).feedAll pieces = reading at hreading
  cases hreading with
  | whole later answer missing hrun hall =>
      exact ⟨pieces.flatten, [], missing, answer, (List.append_nil _).symm, hrun⟩
  | tooLarge before after piece later hpieces hrun hbefore hsize =>
      refine ⟨before.flatten, piece ++ after.flatten, [], _, ?_, hrun.trans (by rw [extend_nil])⟩
      rw [hpieces, List.flatten_append, List.flatten_cons]

/-- A reader behind the request line has taken an accepted line for what it says. -/
theorem exists_line_of_isPastLine {limits : HeaderLimits} {pieces : List Bytes}
    (h : (({ limits } : HeaderReader).feedAll pieces).1.IsPastLine) :
    ∃ (l : RequestLine) (rest : Bytes), pieces.flatten = l.bytes ++ lineFeed :: rest ∧ l.Accepted ∧
      l.Says (({ limits } : HeaderReader).feedAll pieces).1.header := by
  obtain ⟨start, rest, missing, answer, hpieces, hrun⟩ := exists_run_of_feedAll limits pieces
  generalize (({ limits } : HeaderReader).feedAll pieces).1 = later at h hrun
  have hline := lineReading_run limits start
  rw [hrun] at hline
  have hlate : ¬ (later.extend missing).phase.rank < Phase.fields.rank :=
    Nat.not_lt.2 (isPastLine_iff.1 h)
  generalize hresult : (later.extend missing, answer) = result at hline
  cases hline with
  | passed l behind haccepted hstart =>
      refine ⟨l, behind ++ rest, by rw [hpieces, hstart]; simp, haccepted, ?_⟩
      have hsaid := says_run_pastLine limits l behind
      rw [← hresult] at hsaid
      exact hsaid
  | refused final e hphase he =>
      cases hresult
      exact absurd hphase hlate
  | waiting final hphase hstart =>
      cases hresult
      exact absurd hphase hlate

/-- A reader that does not get behind a line that was given in full refuses it. -/
theorem exists_error_of_not_isPastLine {limits : HeaderLimits} {pieces : List Bytes}
    (hfeed : lineFeed ∈ pieces.flatten)
    (h : ¬ (({ limits } : HeaderReader).feedAll pieces).1.IsPastLine) :
    ∃ e, (({ limits } : HeaderReader).feedAll pieces).2 = .error e ∧
      ((e.isLimit = false ∧ ∀ (l : RequestLine) (rest : Bytes), l.Accepted →
          pieces.flatten ≠ l.bytes ++ lineFeed :: rest) ∨
        ∃ size, limits.maxBytes < size ∧ e = .tooLarge size limits.maxBytes) := by
  have hreading := reading_feedAll (isWaiting_new limits) pieces
  generalize ({ limits } : HeaderReader).feedAll pieces = reading at h hreading
  cases hreading with
  | tooLarge before after piece later hpieces hrun hbefore hsize =>
      exact ⟨_, rfl, .inr ⟨_, hsize, rfl⟩⟩
  | whole later answer missing hrun hall =>
      have hline : LineReading limits pieces.flatten (later.extend missing, answer) :=
        hrun ▸ lineReading_run limits pieces.flatten
      -- No accepted line is at the front, for the reader would be behind it.
      have hother : ∀ (l : RequestLine) (rest : Bytes), l.Accepted →
          pieces.flatten ≠ l.bytes ++ lineFeed :: rest := by
        intro l rest haccepted hs
        have hpast := isPastLine_run_pastLine limits l rest
        rw [← run_line haccepted, ← hs] at hpast
        have hsame : ({ limits, buffer := pieces.flatten } : HeaderReader).run =
            (later.extend missing, answer) := hrun
        rw [hsame] at hpast
        exact h hpast
      generalize hresult : (later.extend missing, answer) = result at hline
      cases hline with
      | passed l rest haccepted hs => exact absurd hs (hother l rest haccepted)
      | refused final e hphase he =>
          cases hresult
          exact ⟨e, rfl, .inl ⟨he, hother⟩⟩
      | waiting final hphase hs => exact absurd hfeed hs

/-- An accepted line with the empty line behind it is a header. -/
theorem feedAll_line {l : RequestLine} (h : l.Accepted) (limits : HeaderLimits)
    (pieces : List Bytes)
    (hpieces : pieces.flatten = l.bytes ++ lineFeed :: [carriageReturn, lineFeed])
    (fits : l.bytes.length + 3 ≤ limits.maxBytes) :
    ∃ later, ({ limits } : HeaderReader).feedAll pieces = (later, .ok .finished) ∧
      later.IsPastLine ∧ l.Says later.header := by
  let past := pastLine limits l [carriageReturn, lineFeed]
  let final : HeaderReader := { past.take [carriageReturn] [] with phase := .body }
  have hround : past.advance = .stop final (.ok .finished) := by
    rw [advance_fields rfl]
    exact advanceField_eq_finished_iff.2 ⟨[carriageReturn], [], .inr rfl, rfl, rfl⟩
  have hfits : 0 + (l.bytes ++ lineFeed :: [carriageReturn, lineFeed]).length ≤
      limits.maxBytes := by
    simpa using fits
  have hwhole :
      ({ limits } : HeaderReader).feed (l.bytes ++ lineFeed :: [carriageReturn, lineFeed]) =
      (final, .ok .finished) := by
    rw [feed_of_fits (r := { limits }) rfl hfits]
    exact (run_line h limits _).trans (run_eq_of_stop hround)
  have hne : pieces ≠ [] := by
    rintro rfl
    simp at hpieces
  have hsame := sameReading_feedAll hne (r := { limits }) (.inr (hpieces ▸ hfits))
  rw [hpieces, hwhole] at hsame
  have hphase := congrArg HeaderReader.phase hsame.reader
  have hheader := congrArg HeaderReader.header hsame.reader
  refine ⟨_, Prod.ext rfl hsame.answer, .inr hphase, ?_⟩
  change (({ limits } : HeaderReader).feedAll pieces).1.header = past.header at hheader
  rw [hheader]
  exact ⟨rfl, rfl, rfl, rfl⟩

/-- The line `GET / HTTP/1.1`, with any protocol in the place of `HTTP`. -/
def getLine (protocol : String) : RequestLine := ⟨"GET", "/", protocol, Utf8.ofString "1.1\r"⟩

theorem versionOf_getLine (protocol : String) :
    versionOf (getLine protocol).version = ['1', '.', '1'] := by
  change versionOf (Utf8.ofString "1.1\r") = _
  decide +kernel

theorem accepted_getLine {protocol : String} (hslash : slash ∉ Utf8.ofString protocol)
    (hfeed : lineFeed ∉ Utf8.ofString protocol) : (getLine protocol).Accepted := by
  have hmethod : IsWord (Utf8.ofString "GET") := by constructor <;> decide +kernel
  have htarget : IsWord (Utf8.ofString "/") := by constructor <;> decide +kernel
  have hversion : lineFeed ∉ Utf8.ofString "1.1\r" := by decide +kernel
  refine ⟨hmethod, htarget, hslash, hfeed, hversion, ?_, ?_⟩
  · rw [versionOf_getLine]
    simp
  · rw [versionOf_getLine]
    simp [isAsciiBlank]

/-- **Which request lines are three tokens.** However a stream is cut into pieces: a reader that
gets behind the request line has found an accepted line at the front of the stream and says what the
line says, and this line is three tokens with nothing but blanks behind them exactly if its protocol
is neither empty nor holds a space, and its version is text without blanks in front. A reader that
does not get behind a line that was given in full refuses it: the line is none of the accepted ones,
and the error is about no limit, unless the limit on bytes refused a piece. -/
theorem three_tokens_iff (limits : HeaderLimits) (pieces : List Bytes) :
    ((({ limits } : HeaderReader).feedAll pieces).1.IsPastLine →
      ∃ (l : RequestLine) (rest : Bytes), pieces.flatten = l.bytes ++ lineFeed :: rest ∧
        lineFeed ∉ l.bytes ∧ l.Accepted ∧
        l.Says (({ limits } : HeaderReader).feedAll pieces).1.header ∧
        (ThreeTokens l.bytes (({ limits } : HeaderReader).feedAll pieces).1.header ↔ l.Tidy)) ∧
    (lineFeed ∈ pieces.flatten → ¬ (({ limits } : HeaderReader).feedAll pieces).1.IsPastLine →
      ∃ e, (({ limits } : HeaderReader).feedAll pieces).2 = .error e ∧
        ((e.isLimit = false ∧ ∀ (l : RequestLine) (rest : Bytes), l.Accepted →
            pieces.flatten ≠ l.bytes ++ lineFeed :: rest) ∨
          ∃ size, limits.maxBytes < size ∧ e = .tooLarge size limits.maxBytes)) := by
  refine ⟨fun hpast => ?_, exists_error_of_not_isPastLine⟩
  obtain ⟨l, rest, hpieces, haccepted, hsaid⟩ := exists_line_of_isPastLine hpast
  exact ⟨l, rest, hpieces, haccepted.noFeed, haccepted, hsaid, threeTokens_iff_tidy haccepted hsaid⟩

/-- There is one first line of a stream. -/
theorem eq_of_first_lineFeed {line other rest behind : Bytes} (hline : lineFeed ∉ line)
    (hother : lineFeed ∉ other) (h : line ++ lineFeed :: rest = other ++ lineFeed :: behind) :
    line = other ∧ rest = behind := by
  have hcut := cutAt?_lineFeed_iff.2 ⟨h, rfl, hother⟩
  rw [cutAt?_lineFeed_iff.2 ⟨rfl, rfl, hline⟩] at hcut
  cases hcut
  exact ⟨rfl, rfl⟩

/-- `GET / HTTP/1.1`, cut inside the version, is three tokens, and a lone line feed is refused. -/
theorem three_tokens_getLine :
    let pieces := [Utf8.ofString "GET / HTTP/1", Utf8.ofString ".1\r\n\r\n"]
    (({} : HeaderReader).feedAll pieces).1.IsPastLine ∧
      ThreeTokens (Utf8.ofString "GET / HTTP/1.1\r") (({} : HeaderReader).feedAll pieces).1.header ∧
      lineFeed ∈ [[lineFeed]].flatten ∧
      ¬ (({} : HeaderReader).feedAll [[lineFeed]]).1.IsPastLine ∧
      ∃ e, (({} : HeaderReader).feedAll [[lineFeed]]).2 = .error e := by
  intro pieces
  have haccepted : (getLine "HTTP").Accepted :=
    accepted_getLine (by decide +kernel) (by decide +kernel)
  have hpieces : pieces.flatten =
      (getLine "HTTP").bytes ++ lineFeed :: [carriageReturn, lineFeed] := by decide +kernel
  obtain ⟨later, hlater, hpast, hsaid⟩ :=
    feedAll_line haccepted {} pieces hpieces (by decide +kernel)
  have hreader : (({} : HeaderReader).feedAll pieces).1 = later := by rw [hlater]
  rw [hreader]
  obtain ⟨l, rest, hline, hfeed, -, hl, htokens⟩ := (three_tokens_iff {} pieces).1 (hreader ▸ hpast)
  rw [hreader] at hl htokens
  -- The line that is found is the one that was sent.
  rw [hpieces] at hline
  obtain ⟨hbytes, -⟩ := eq_of_first_lineFeed haccepted.noFeed hfeed hline
  have hsent : Utf8.ofString "GET / HTTP/1.1\r" = (getLine "HTTP").bytes := by decide +kernel
  have hrefused : (({} : HeaderReader).feedAll [[lineFeed]]) =
      ({ buffer := [lineFeed] }, .error (.endedBefore .method)) := run_eq_of_stop rfl
  have hnotPast : ¬ (({} : HeaderReader).feedAll [[lineFeed]]).1.IsPastLine := by
    rw [hrefused]
    rintro (h | h) <;> cases h
  refine ⟨hpast, ?_, by decide, hnotPast, ?_⟩
  · rw [hsent, hbytes, htokens]
    have hprotocol : l.protocol = "HTTP" := hl.protocol.symm.trans hsaid.protocol
    refine ⟨⟨by rw [hprotocol]; decide, by rw [hprotocol]; decide⟩, "1.1\r", ?_, by decide⟩
    rw [RequestLine.bytes, RequestLine.bytes, ← hl.method, ← hl.target, ← hl.protocol, hsaid.method,
      hsaid.target, hsaid.protocol] at hbytes
    have hversion : (getLine "HTTP").version = l.version := by simpa using hbytes
    exact hversion.symm
  · obtain ⟨e, he, -⟩ := (three_tokens_iff {} [[lineFeed]]).2 (by decide) hnotPast
    exact ⟨e, he⟩

/-- Lines with four tokens and with an empty one are passed. -/
theorem extra_and_empty_token_passed :
    (∃ later, ({} : HeaderReader).feedAll [Utf8.ofString "GET / x HTTP/1.1\r\n\r\n"] =
      (later, .ok .finished) ∧ later.header.protocol = "x HTTP" ∧
        ¬ ThreeTokens (Utf8.ofString "GET / x HTTP/1.1\r") later.header) ∧
    ∃ later, ({} : HeaderReader).feedAll [Utf8.ofString "GET / /1.1\r\n\r\n"] =
      (later, .ok .finished) ∧ later.header.protocol = "" ∧
        ¬ ThreeTokens (Utf8.ofString "GET / /1.1\r") later.header := by
  have hextra : (getLine "x HTTP").Accepted :=
    accepted_getLine (by decide +kernel) (by decide +kernel)
  have hempty : (getLine "").Accepted := accepted_getLine (by decide +kernel) (by decide +kernel)
  constructor
  · obtain ⟨later, hfeed, -, hsaid⟩ := feedAll_line hextra {}
      [Utf8.ofString "GET / x HTTP/1.1\r\n\r\n"] (by decide +kernel) (by decide +kernel)
    refine ⟨later, hfeed, hsaid.protocol, ?_⟩
    intro htokens
    have htoken := htokens.protocol.noSpace
    rw [hsaid.protocol] at htoken
    exact htoken (by decide)
  · obtain ⟨later, hfeed, -, hsaid⟩ := feedAll_line hempty {}
      [Utf8.ofString "GET / /1.1\r\n\r\n"] (by decide +kernel) (by decide +kernel)
    refine ⟨later, hfeed, hsaid.protocol, ?_⟩
    intro htokens
    exact htokens.protocol.ne_empty hsaid.protocol

end HeaderReader

end HttpServer
