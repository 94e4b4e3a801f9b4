import HttpServer.Proofs.Request.RequestLine
import Mathlib.Data.List.Induction

/-!
# The books of a reader

A reader may be given pieces for as long as its owner likes, also after it has found fault with a
token. Some of them the limit on bytes refuses; all others are admitted (`HeaderReader.admitted`).
Whatever the pieces are, the books of the reader are right (`HeaderReader.books_kept`): the buffer
is what the tokens have left of the bytes admitted, no limit is exceeded, each field is recorded
under a proper name (`IsFieldName`) with a trimmed value (`IsFieldValue`), reading never goes back,
and a header that is complete stays as it is. A fault in the middle of reading does no harm, for a
token is taken and counted at once or not at all (`HeaderReader.Books.advance`).
-/

namespace HttpServer

/-- A text under which a field may be recorded. -/
structure IsFieldName (name : String) : Prop where
  ne_empty : name ≠ ""
  start : name.toList.head?.any Char.isAlphanum = true
  noColon : ':' ∉ name.toList
  noFeed : '\n' ∉ name.toList
  noBlankBehind : name.toList.getLast?.any isBlank = false
  notCookie : sameName name "cookie" = false

/-- A text without blanks around it. -/
structure IsFieldValue (value : String) : Prop where
  noBlankInFront : value.toList.head?.any isBlank = false
  noBlankBehind : value.toList.getLast?.any isBlank = false

/-! ## Recording a line -/

/-- Putting a pair adds no other one. -/
theorem mem_putPair {name value : String} {pair : String × String} {pairs : List (String × String)}
    (h : pair ∈ putPair name value pairs) : pair = (name, value) ∨ pair ∈ pairs := by
  induction pairs with
  | nil => exact .inl (List.mem_singleton.1 h)
  | cons first rest ih =>
      rw [putPair] at h
      split at h
      · rename_i hkey
        rw [← hkey]
        exact (List.mem_cons.1 h).imp id (List.mem_cons_of_mem first)
      · rcases List.mem_cons.1 h with rfl | h
        · exact .inr List.mem_cons_self
        · exact (ih h).imp id (List.mem_cons_of_mem first)

theorem length_putPair_le (name value : String) (pairs : List (String × String)) :
    (putPair name value pairs).length ≤ pairs.length + 1 := by
  induction pairs with
  | nil => exact Nat.le_refl _
  | cons first rest ih =>
      rw [putPair]
      split
      · exact Nat.le_succ _
      · exact Nat.succ_le_succ ih

namespace HeaderText

open HeaderReader

/-- The text of a line has no line feed, which would be the end of the line. -/
theorem feed_not_mem_lineText {line : Bytes} (h : lineFeed ∉ line) :
    '\n' ∉ (lineText line).toList := by
  intro hmem
  rw [lineText, Utf8.toStringLossy, String.toList_ofList] at hmem
  rcases Utf8.mem_of_mem_decodeLossy hmem with hsame | hall
  · cases hsame
  · have hfeed : lineFeed ∈ Utf8.encodeChar '\n' := List.mem_singleton_self lineFeed
    have htaken := hall lineFeed hfeed
    split at htaken
    · exact h ((List.dropLast_sublist line).subset htaken)
    · exact h htaken

/-- The value of a line is trimmed. -/
theorem isFieldValue_fieldOf (line : Bytes) : IsFieldValue (fieldOf line).2 := by
  constructor
  · rw [fieldOf, String.toList_ofList]
    exact head?_trim _
  · rw [fieldOf, String.toList_ofList]
    exact getLast?_trimEnd _

/-- The name of a field line that has no cookies is a proper one. -/
theorem isFieldName_fieldOf {line : Bytes} (h : IsFieldLine line)
    (hother : isCookieLine line = false) : IsFieldName (fieldOf line).1 := by
  have hname : (fieldOf line).1.toList = trimEnd ((lineText line).toList.takeWhile (· ≠ ':')) := by
    rw [fieldOf, String.toList_ofList, trim_takeWhile_of_start h.start]
  obtain ⟨blanks, hblanks, happend⟩ :=
    exists_append_of_trimEnd ((lineText line).toList.takeWhile (· ≠ ':'))
  rw [← hname] at happend
  -- The name is a part of the line up to the colon, so what the line lacks the name lacks.
  have hpart : ∀ c ∈ (fieldOf line).1.toList, c ≠ ':' ∧ c ∈ (lineText line).toList := by
    intro c hc
    have hbefore : c ∈ (lineText line).toList.takeWhile (· ≠ ':') := by
      rw [happend]
      exact List.mem_append_left blanks hc
    have hcolon := List.all_eq_true.1 List.all_takeWhile c hbefore
    exact ⟨by simpa using hcolon, (List.takeWhile_sublist _).subset hbefore⟩
  have hstart : (fieldOf line).1.toList.head?.any Char.isAlphanum = true := by
    obtain ⟨c, hhead, hletter⟩ := (Option.any_eq_true _ _).1 h.start
    obtain ⟨cs, hline⟩ := List.head?_eq_some_iff.1 hhead
    have hcolon : c ≠ ':' := by
      rintro rfl
      cases hletter
    rw [hline, List.takeWhile_cons_of_pos (by simpa using hcolon)] at happend
    cases hchars : (fieldOf line).1.toList with
    | nil =>
        rw [hchars, List.nil_append] at happend
        have hblank := hblanks c (happend ▸ List.mem_cons_self)
        rw [isBlank_of_isAlphanum hletter] at hblank
        cases hblank
    | cons first rest =>
        rw [hchars] at happend
        rw [← (List.cons.inj happend).1]
        exact hletter
  constructor
  case ne_empty =>
    intro hempty
    rw [hempty] at hstart
    cases hstart
  case start => exact hstart
  case noColon => exact fun hmem => (hpart _ hmem).1 rfl
  case noFeed => exact fun hmem => feed_not_mem_lineText h.noFeed (hpart _ hmem).2
  case noBlankBehind =>
    rw [hname]
    exact getLast?_trimEnd _
  case notCookie => exact hother

/-- Recording a line adds at most one field, and this one has a proper name and value. -/
theorem fields_recordLine (h : HeaderSection) {line : Bytes} (hline : IsFieldLine line) :
    (recordLine h line).fields.entries.length ≤ h.fields.entries.length + 1 ∧
      ∀ pair ∈ (recordLine h line).fields.entries,
        pair ∈ h.fields.entries ∨ (IsFieldName pair.1 ∧ IsFieldValue pair.2) := by
  rw [recordLine]
  split
  · exact ⟨Nat.le_succ _, fun pair hpair => .inl hpair⟩
  · rename_i hother
    refine ⟨length_putPair_le _ _ _, fun pair hpair => ?_⟩
    rcases mem_putPair hpair with rfl | hold
    · exact .inr ⟨isFieldName_fieldOf hline (by simpa using hother), isFieldValue_fieldOf line⟩
    · exact .inl hold

end HeaderText

namespace HeaderReader

open HeaderText

/-! ## One round -/

/-- The number of field lines and the fields change in one way only: a round records a line. -/
theorem fields_of_advance (r : HeaderReader) :
    (r.advance.reader.fieldCount = r.fieldCount ∧
      r.advance.reader.header.fields = r.header.fields) ∨
    ∃ line rest, r.fieldCount < r.limits.maxFields ∧ IsFieldLine line ∧
      r.advance.reader = r.takeLine line rest := by
  have hadvances := advances_advance r
  cases hround : r.advance with
  | stop final result =>
      rw [hround] at hadvances
      cases hadvances <;> exact .inl ⟨rfl, rfl⟩
  | next next =>
      cases hphase : r.phase with
      | method =>
          obtain ⟨text, rest, -, -, rfl⟩ := (advance_method_iff hphase).1 hround
          exact .inl ⟨rfl, rfl⟩
      | target =>
          obtain ⟨text, rest, -, -, rfl⟩ := (advance_target_iff hphase).1 hround
          exact .inl ⟨rfl, rfl⟩
      | protocol =>
          rw [advance_protocol hphase] at hround
          obtain ⟨text, rest, -, -, -, rfl⟩ := advanceProtocol_eq_next_iff.1 hround
          exact .inl ⟨rfl, rfl⟩
      | version =>
          rw [advance_version hphase] at hround
          obtain ⟨line, rest, -, -, -, -, rfl⟩ := advanceVersion_eq_next_iff.1 hround
          exact .inl ⟨rfl, rfl⟩
      | fields =>
          rw [advance_fields hphase] at hround
          obtain ⟨line, rest, hcount, hline, -, rfl⟩ := advanceField_eq_next_iff.1 hround
          exact .inr ⟨line, rest, hcount, hline, rfl⟩
      | body =>
          rw [advance, hphase] at hround
          cases hround

/-- A round takes a token with its delimiter off the buffer and counts both, or nothing. -/
theorem buffer_of_advance (r : HeaderReader) :
    (r.advance.reader.consumed = r.consumed ∧ r.advance.reader.buffer = r.buffer) ∨
    ∃ taken, r.buffer = taken ++ r.advance.reader.buffer ∧
      r.advance.reader.consumed = r.consumed + taken.length := by
  have hadvances := advances_advance r
  generalize r.advance = round at hadvances
  cases hadvances with
  | finished | waiting | misplaced => exact .inl ⟨rfl, rfl⟩
  | refused token rest delimiter e hphase hcut | ended token rest delimiter hphase hcut
  | recorded token rest delimiter phase count header hrank hphase hcut =>
      refine .inr ⟨token ++ [delimiter], ?_, ?_⟩
      · rw [append_of_cutAt? hcut, List.append_assoc]
        rfl
      · rw [List.length_append]
        rfl

/-- **The books of a reader** that has been given a stream of bytes. -/
structure Books (stream : Bytes) (r : HeaderReader) : Prop where
  /-- The bytes that tokens have taken are those in front of the buffer. -/
  consumed : ∃ taken, stream = taken ++ r.buffer ∧ r.consumed = taken.length
  count : r.fieldCount ≤ r.limits.maxFields
  recorded : r.header.fields.entries.length ≤ r.fieldCount
  fields : ∀ pair ∈ r.header.fields.entries, IsFieldName pair.1 ∧ IsFieldValue pair.2

/-- More bytes are bytes that the buffer holds. -/
theorem Books.extend {stream : Bytes} {r : HeaderReader} (h : r.Books stream) (more : Bytes) :
    (r.extend more).Books (stream ++ more) := by
  obtain ⟨taken, hstream, hconsumed⟩ := h.consumed
  refine ⟨⟨taken, ?_, hconsumed⟩, h.count, h.recorded, h.fields⟩
  rw [hstream, HeaderReader.extend, List.append_assoc]

/-- A round keeps the books, whether it goes on, waits or finds fault. -/
theorem Books.advance {stream : Bytes} {r : HeaderReader} (h : r.Books stream) :
    r.advance.reader.Books stream := by
  have hlimits : r.advance.reader.limits = r.limits := (advances_advance r).readsOnTo.limits
  have hconsumed : ∃ taken, stream = taken ++ r.advance.reader.buffer ∧
      r.advance.reader.consumed = taken.length := by
    obtain ⟨taken, hstream, hcount⟩ := h.consumed
    rcases buffer_of_advance r with ⟨hsame, hbuffer⟩ | ⟨token, hbuffer, hmore⟩
    · exact ⟨taken, by rw [hbuffer, hstream], by rw [hsame, hcount]⟩
    · refine ⟨taken ++ token, ?_, ?_⟩
      · rw [List.append_assoc, ← hbuffer, hstream]
      · rw [hmore, hcount, List.length_append]
  rcases fields_of_advance r with ⟨hcount, hfields⟩ | ⟨line, rest, hroom, hline, hreader⟩
  · refine ⟨hconsumed, ?_, ?_, ?_⟩
    · rw [hcount, hlimits]
      exact h.count
    · rw [hcount, hfields]
      exact h.recorded
    · rw [hfields]
      exact h.fields
  · obtain ⟨hlength, hmem⟩ := fields_recordLine r.header hline
    rw [hreader] at hconsumed hlimits ⊢
    refine ⟨hconsumed, ?_, ?_, ?_⟩
    · rw [hlimits]
      exact hroom
    · rw [header_takeLine]
      exact hlength.trans (Nat.succ_le_succ h.recorded)
    · rw [header_takeLine]
      exact fun pair hpair => (hmem pair hpair).elim (h.fields pair) id

/-- **The books are right after a run**, by induction on its rounds. -/
theorem Books.run {stream : Bytes} {r : HeaderReader} (h : r.Books stream) :
    r.run.1.Books stream := by
  induction r using run.induct with
  | case1 r next hnext _ ih =>
      rw [run_eq_of_next hnext]
      apply ih
      simpa [hnext, Round.reader] using h.advance
  | case2 r final result hstop =>
      rw [run_eq_of_stop hstop]
      simpa [hstop, Round.reader] using h.advance

/-! ## One piece after the other -/

/-- The answer refuses a piece for its size. -/
def isTooLarge : Except ParseError Progress → Bool
  | .error (.tooLarge _ _) => true
  | _ => false

/-- The reader after it was given these pieces, whatever it answered. -/
def after (r : HeaderReader) (pieces : List Bytes) : HeaderReader :=
  pieces.foldl (fun r piece => (r.feed piece).1) r

/-- The bytes of the pieces that were not refused for their size. -/
def admitted (r : HeaderReader) : List Bytes → Bytes
  | [] => []
  | piece :: pieces =>
    (if isTooLarge (r.feed piece).2 then [] else piece) ++ admitted (r.feed piece).1 pieces

/-- A reader is given pieces one after the other. -/
theorem after_append (r : HeaderReader) (pieces more : List Bytes) :
    r.after (pieces ++ more) = (r.after pieces).after more :=
  List.foldl_append

/-- A piece is admitted unless it is refused for its size. -/
theorem admitted_concat (r : HeaderReader) (pieces : List Bytes) (piece : Bytes) :
    r.admitted (pieces ++ [piece]) = r.admitted pieces ++
      if isTooLarge ((r.after pieces).feed piece).2 then [] else piece := by
  induction pieces generalizing r with
  | nil => exact List.append_nil _
  | cons first pieces ih =>
      rw [List.cons_append, admitted, admitted, ih, List.append_assoc]
      rfl

/-- **What becomes of a piece.** A complete header takes it for the body, and one that is not
complete reads it, unless it goes beyond the limit: then it is refused, and nothing else happens. -/
theorem feed_cases (r : HeaderReader) (piece : Bytes) :
    (r.isFinished = true ∧ r.feed piece = (r.extend piece, .ok .finished)) ∨
    (r.isFinished = false ∧ r.given + piece.length ≤ r.limits.maxBytes ∧
      r.feed piece = (r.extend piece).run ∧ isTooLarge (r.feed piece).2 = false) ∨
    (r.isFinished = false ∧ r.limits.maxBytes < r.given + piece.length ∧
      (r.feed piece).1 = r ∧ isTooLarge (r.feed piece).2 = true) := by
  cases hfinished : r.isFinished with
  | true => exact .inl ⟨rfl, feed_of_isFinished hfinished piece⟩
  | false =>
      by_cases hsize : r.limits.maxBytes < r.given + piece.length
      · rw [feed_of_not_fits hfinished hsize]
        exact .inr (.inr ⟨rfl, hsize, rfl, rfl⟩)
      · have hfits := Nat.le_of_not_lt hsize
        rw [feed_of_fits hfinished hfits]
        refine .inr (.inl ⟨rfl, hfits, rfl, ?_⟩)
        -- Only the check in front of reading speaks of the size.
        have hnever := fun size limit => not_tooLarge_run size limit (r.extend piece)
        generalize (r.extend piece).run.2 = answer at hnever
        unfold isTooLarge
        split
        · rename_i size limit
          exact absurd rfl (hnever size limit)
        · rfl

/-- A piece that is given to a reader brings it on, and never back. -/
theorem rank_feed (r : HeaderReader) (piece : Bytes) :
    r.phase.rank ≤ (r.feed piece).1.phase.rank := by
  rcases feed_cases r piece with ⟨-, hfeed⟩ | ⟨-, -, hfeed, -⟩ | ⟨-, -, hfeed, -⟩
  · rw [hfeed]
    exact Nat.le_refl _
  · rw [hfeed]
    exact (readsOnTo_run (r.extend piece)).rank
  · rw [hfeed]

/-- No piece changes the limits. -/
theorem limits_feed (r : HeaderReader) (piece : Bytes) : (r.feed piece).1.limits = r.limits := by
  rcases feed_cases r piece with ⟨-, hfeed⟩ | ⟨-, -, hfeed, -⟩ | ⟨-, -, hfeed, -⟩
  · rw [hfeed]
    rfl
  · rw [hfeed]
    exact (readsOnTo_run (r.extend piece)).limits
  · rw [hfeed]

/-- Reading never goes back, whatever the pieces are. -/
theorem rank_after (r : HeaderReader) (pieces : List Bytes) :
    r.phase.rank ≤ (r.after pieces).phase.rank := by
  induction pieces generalizing r with
  | nil => exact Nat.le_refl _
  | cons piece pieces ih => exact (rank_feed r piece).trans (ih (r.feed piece).1)

theorem limits_after (r : HeaderReader) (pieces : List Bytes) :
    (r.after pieces).limits = r.limits := by
  induction pieces generalizing r with
  | nil => rfl
  | cons piece pieces ih => exact (ih (r.feed piece).1).trans (limits_feed r piece)

/-- A complete header stays as it is, and takes all further pieces for the body. -/
theorem after_of_isFinished {r : HeaderReader} (h : r.isFinished = true) (pieces : List Bytes) :
    r.after pieces = r.extend pieces.flatten := by
  induction pieces generalizing r with
  | nil => exact (extend_nil r).symm
  | cons piece pieces ih =>
      have hfirst : r.after (piece :: pieces) = (r.extend piece).after pieces :=
        congrArg (fun result => after result.1 pieces) (feed_of_isFinished h piece)
      have hlater : (r.extend piece).isFinished = true := h
      rw [hfirst, ih hlater, List.flatten_cons, extend_append]

/-- **The books are right after a piece**, be it refused for its size or found at fault. -/
theorem Books.feed {stream : Bytes} {r : HeaderReader} (h : r.Books stream) (piece : Bytes) :
    (r.feed piece).1.Books (stream ++ if isTooLarge (r.feed piece).2 then [] else piece) := by
  rcases feed_cases r piece with ⟨-, hfeed⟩ | ⟨-, -, hfeed, hadmitted⟩ | ⟨-, -, hfeed, hrefused⟩
  · rw [hfeed]
    exact h.extend piece
  · rw [hadmitted, hfeed]
    exact (h.extend piece).run
  · rw [hfeed, hrefused, if_pos rfl, List.append_nil]
    exact h

/-- **The books are right after any pieces**, by induction on them from the end. -/
theorem books_after (limits : HeaderLimits) (pieces : List Bytes) :
    (({ limits } : HeaderReader).after pieces).Books
      (({ limits } : HeaderReader).admitted pieces) := by
  induction pieces using List.reverseRecOn with
  | nil => exact ⟨⟨[], rfl, rfl⟩, Nat.zero_le _, Nat.le_refl _, fun pair hpair => nomatch hpair⟩
  | append_singleton pieces piece ih =>
      rw [admitted_concat, after_append]
      exact ih.feed piece

/-- As long as a header is not complete, the bytes that were admitted keep to the limit. -/
theorem given_after_le (limits : HeaderLimits) (pieces : List Bytes)
    (h : (({ limits } : HeaderReader).after pieces).isFinished = false) :
    (({ limits } : HeaderReader).after pieces).given ≤ limits.maxBytes := by
  induction pieces using List.reverseRecOn with
  | nil => exact Nat.zero_le _
  | append_singleton pieces piece ih =>
      rw [after_append] at h ⊢
      have hlimits := limits_after { limits } pieces
      change ((({ limits } : HeaderReader).after pieces).feed piece).1.isFinished = false at h
      change ((({ limits } : HeaderReader).after pieces).feed piece).1.given ≤ limits.maxBytes
      generalize ({ limits } : HeaderReader).after pieces = r at ih h hlimits
      rcases feed_cases r piece with ⟨hfinished, hfeed⟩ | ⟨-, hfits, hfeed, -⟩ |
        ⟨hopen, -, hfeed, -⟩
      · rw [hfeed] at h
        cases hfinished.symm.trans h
      · rw [hlimits] at hfits
        rw [hfeed, (readsOnTo_run (r.extend piece)).given, given_extend]
        exact hfits
      · rw [hfeed]
        exact ih hopen

/-! ## The laws -/

/-- **What holds of a reader after it was given these pieces.** -/
structure KeepsBooks (start : HeaderReader) (pieces : List Bytes) : Prop where
  /-- The buffer is the rest of what was admitted, from the first byte that no token has taken. -/
  buffer_eq : (start.after pieces).consumed ≤ (start.admitted pieces).length ∧
    (start.after pieces).buffer = (start.admitted pieces).drop (start.after pieces).consumed
  bytes_le : (start.after pieces).isFinished = false →
    (start.after pieces).consumed + (start.after pieces).buffer.length ≤ start.limits.maxBytes
  /-- No more lines are recorded than the limit allows, and no more fields than lines. -/
  count_le : (start.after pieces).fieldCount ≤ start.limits.maxFields ∧
    (start.after pieces).header.fields.entries.length ≤ (start.after pieces).fieldCount
  fields : ∀ pair ∈ (start.after pieces).header.fields.entries,
    IsFieldName pair.1 ∧ IsFieldValue pair.2
  /-- Reading never goes back. -/
  rank_le : ∀ more, (start.after pieces).phase.rank ≤ (start.after (pieces ++ more)).phase.rank
  /-- A complete header stays as it is, and whatever comes then is taken. -/
  complete : (start.after pieces).isFinished = true → ∀ more,
    (start.after (pieces ++ more)).header = (start.after pieces).header ∧
      ∀ piece, ((start.after (pieces ++ more)).feed piece).2 = .ok .finished
  /-- A piece is refused for its size exactly if the header is not complete and the piece goes
  beyond the limit. -/
  refused_iff : ∀ piece, isTooLarge ((start.after pieces).feed piece).2 = true ↔
    (start.after pieces).isFinished = false ∧
      start.limits.maxBytes < (start.after pieces).consumed + (start.after pieces).buffer.length +
        piece.length
  /-- Such a piece leaves the reader as it was. -/
  unchanged : ∀ piece, isTooLarge ((start.after pieces).feed piece).2 = true →
    ((start.after pieces).feed piece).1 = start.after pieces

/-- **A reader keeps its books**, whatever it is given, in whatever pieces, and whatever it answers.
The buffer is the part of the admitted bytes that no token has taken. Before the header is complete,
these bytes keep to the limit; the field lines do so always. Fields have proper names, other than
`cookie`, and trimmed values. Reading never goes back; a complete header does not change any more
and takes all further pieces; and a piece that is refused for its size leaves no trace. -/
theorem books_kept (limits : HeaderLimits) (pieces : List Bytes) :
    KeepsBooks { limits } pieces := by
  have hbooks := books_after limits pieces
  have hlimits := limits_after { limits } pieces
  have hcases := feed_cases (({ limits } : HeaderReader).after pieces)
  constructor
  case buffer_eq =>
    obtain ⟨taken, hstream, hconsumed⟩ := hbooks.consumed
    rw [hstream, hconsumed, List.length_append, List.drop_left]
    exact ⟨Nat.le_add_right _ _, rfl⟩
  case bytes_le => exact given_after_le limits pieces
  case count_le => exact ⟨hlimits ▸ hbooks.count, hbooks.recorded⟩
  case fields => exact hbooks.fields
  case rank_le =>
    intro more
    rw [after_append]
    exact rank_after _ more
  case complete =>
    intro hfinished more
    rw [after_append, after_of_isFinished hfinished]
    exact ⟨rfl,
      fun piece => congrArg Prod.snd (feed_of_isFinished (r := extend _ _) hfinished piece)⟩
  case refused_iff =>
    intro piece
    rw [← given, ← hlimits]
    rcases hcases piece with ⟨hdone, hfeed⟩ | ⟨-, hfits, -, hadmitted⟩ | ⟨hopen, hsize, -, hrefused⟩
    · rw [hfeed]
      exact iff_of_false Bool.false_ne_true fun h => Bool.false_ne_true (h.1.symm.trans hdone)
    · rw [hadmitted]
      exact iff_of_false Bool.false_ne_true fun h => Nat.not_lt.2 hfits h.2
    · exact iff_of_true hrefused ⟨hopen, hsize⟩
  case unchanged =>
    intro piece hrefused
    rcases hcases piece with ⟨-, hfeed⟩ | ⟨-, -, -, hadmitted⟩ | ⟨-, -, hfeed, -⟩
    · rw [hfeed] at hrefused
      cases hrefused
    · cases hadmitted.symm.trans hrefused
    · exact hfeed

end HeaderReader

end HttpServer
