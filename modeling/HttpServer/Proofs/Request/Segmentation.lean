import HttpServer.Request.Reader

/-!
# Headers do not depend on how they are cut

A reader may be given the bytes of a header in pieces of any size. A round of reading looks at its
buffer only up to the first delimiter of its phase (`HeaderReader.advance_extend`), and where none
has come it leaves the reader as it is (`HeaderReader.advance_of_cut_eq_none`). So a reader that ran
out of data and is given more goes on as if all had been there from the start
(`HeaderReader.run_extend`), as long as the limit on bytes lets the pieces in
(`HeaderReader.feed_append_of_ok`, `HeaderReader.feed_append_of_error`).
-/

namespace HttpServer

/-- More bytes behind the first delimiter do not move it. -/
theorem cutAt?_append {isDelimiter : UInt8 → Bool} {bs before after : Bytes} {delimiter : UInt8}
    (more : Bytes) (h : cutAt? isDelimiter bs = some (before, delimiter, after)) :
    cutAt? isDelimiter (bs ++ more) = some (before, delimiter, after ++ more) := by
  induction bs generalizing before with
  | nil => simp [cutAt?] at h
  | cons b bs ih =>
    rw [cutAt?] at h
    rw [List.cons_append, cutAt?]
    by_cases hb : isDelimiter b = true
    · simp only [hb, ↓reduceIte, Option.some.injEq, Prod.mk.injEq] at h ⊢
      obtain ⟨rfl, rfl, rfl⟩ := h
      exact ⟨rfl, rfl, rfl⟩
    · simp only [hb, Bool.false_eq_true, ↓reduceIte] at h ⊢
      obtain ⟨⟨first, second, third⟩, hcut, heq⟩ := Option.map_eq_some_iff.1 h
      cases heq
      rw [ih hcut]
      rfl

/-- The bytes that end the token of a phase. The body has no tokens. -/
def Phase.delimits : Phase → UInt8 → Bool
  | .method => fun b => b == HeaderReader.space || b == HeaderReader.lineFeed
  | .target => fun b => b == HeaderReader.space || b == HeaderReader.lineFeed
  | .protocol => fun b => b == HeaderReader.slash || b == HeaderReader.lineFeed
  | .version => (· == HeaderReader.lineFeed)
  | .fields => (· == HeaderReader.lineFeed)
  | .body => fun _ => false

namespace HeaderReader

/-- The reader with more bytes behind those it has not taken. -/
def extend (r : HeaderReader) (more : Bytes) : HeaderReader := { r with buffer := r.buffer ++ more }

/-- How many bytes were given to the reader: those that tokens took, and those in the buffer. -/
def given (r : HeaderReader) : Nat := r.consumed + r.buffer.length

/-- The reader that a round leaves behind. -/
def Round.reader : Round → HeaderReader
  | .next r => r
  | .stop r _ => r

/-- The round of a reader that has more bytes behind its token. -/
def Round.extend (more : Bytes) : Round → Round
  | .next r => .next (r.extend more)
  | .stop r result => .stop (r.extend more) result

@[simp] theorem isFinished_extend (r : HeaderReader) (more : Bytes) :
    (r.extend more).isFinished = r.isFinished := rfl

@[simp] theorem limits_extend (r : HeaderReader) (more : Bytes) :
    (r.extend more).limits = r.limits := rfl

@[simp] theorem given_extend (r : HeaderReader) (more : Bytes) :
    (r.extend more).given = r.given + more.length := by
  simp only [given, extend, List.length_append]
  omega

theorem extend_append (r : HeaderReader) (a b : Bytes) :
    r.extend (a ++ b) = (r.extend a).extend b := by
  simp only [extend, List.append_assoc]

/-- A token is taken in front of any more bytes. -/
theorem take_extend (r : HeaderReader) (token rest more : Bytes) :
    (r.extend more).take token (rest ++ more) = (r.take token rest).extend more := rfl

/-- A line is recorded whatever stands behind it. -/
theorem recordField_extend (r : HeaderReader) (line : String) (more : Bytes) :
    (r.extend more).recordField line = (r.recordField line).map (extend · more) := by
  unfold recordField
  by_cases hcount : r.limits.maxFields ≤ r.fieldCount
  · simp only [extend, hcount, ↓reduceIte, Except.map]
  by_cases hstart : !(line.toList.head?.any Char.isAlphanum)
  · simp only [extend, hcount, hstart, ↓reduceIte, Except.map]
  simp only [extend, hcount, hstart, ↓reduceIte]
  cases splitFirst? (· == ':') line.toList <;> rfl

/-- Recording a line changes the header and the count of fields alone. -/
theorem exists_of_recordField {r next : HeaderReader} {line : String}
    (h : r.recordField line = .ok next) :
    ∃ fieldCount header, next = { r with fieldCount, header } := by
  unfold recordField at h
  split at h
  · cases h
  split at h
  · cases h
  split at h
  · cases h
  · cases h
    exact ⟨_, _, rfl⟩

/-- **Where a delimiter has come, more bytes change nothing.** The round takes the same token and
judges it in the same way. -/
theorem advance_extend {r : HeaderReader} {cut : Bytes × UInt8 × Bytes}
    (h : cutAt? r.phase.delimits r.buffer = some cut) (more : Bytes) :
    (r.extend more).advance = r.advance.extend more := by
  obtain ⟨token, delimiter, rest⟩ := cut
  have hmore : cutAt? r.phase.delimits (r.extend more).buffer =
      some (token, delimiter, rest ++ more) := cutAt?_append more h
  have hphase : (r.extend more).phase = r.phase := rfl
  unfold advance
  rw [hphase]
  cases hp : r.phase <;> rw [hp, Phase.delimits] at h hmore
  case method | target =>
    simp only [advanceWord, h, hmore]
    repeat' split
    all_goals rfl
  case protocol =>
    simp only [advanceProtocol, h, hmore]
    repeat' split
    all_goals rfl
  case version =>
    simp only [advanceVersion, h, hmore]
    repeat' split
    all_goals rfl
  case fields =>
    simp only [advanceField, h, hmore, take_extend, recordField_extend]
    split
    · rfl
    · cases (r.take token rest).recordField (lineText token) <;> rfl
  case body => rfl

/-- Before its delimiter has come, a token is waited for. -/
theorem advance_of_cut_eq_none {r : HeaderReader} (hphase : r.phase ≠ .body)
    (h : cutAt? r.phase.delimits r.buffer = none) :
    r.advance = .stop r (.ok .needMoreData) := by
  unfold advance
  cases hp : r.phase <;> rw [hp, Phase.delimits] at h
  case method | target => simp only [advanceWord, h]
  case protocol => simp only [advanceProtocol, h]
  case version => simp only [advanceVersion, h]
  case fields => simp only [advanceField, h]
  case body => exact absurd hp hphase

/-- **What a round can do.** It does nothing more for a complete header, waits for a delimiter,
refuses a token where it stands or after having taken it, ends the header with it, or records it and
goes on. -/
inductive Advances (r : HeaderReader) : Round → Prop
  | finished (hphase : r.phase = .body) : Advances r (.stop r (.ok .finished))
  | waiting (hphase : r.phase ≠ .body) (hcut : cutAt? r.phase.delimits r.buffer = none) :
      Advances r (.stop r (.ok .needMoreData))
  | misplaced (e : ParseError) (hphase : r.phase ≠ .body) : Advances r (.stop r (.error e))
  | refused (token rest : Bytes) (delimiter : UInt8) (e : ParseError) (hphase : r.phase ≠ .body)
      (hcut : cutAt? r.phase.delimits r.buffer = some (token, delimiter, rest)) :
      Advances r (.stop (r.take token rest) (.error e))
  | ended (token rest : Bytes) (delimiter : UInt8) (hphase : r.phase = .fields)
      (hcut : cutAt? r.phase.delimits r.buffer = some (token, delimiter, rest)) :
      Advances r (.stop { r.take token rest with phase := .body } (.ok .finished))
  | recorded (token rest : Bytes) (delimiter : UInt8) (phase : Phase) (fieldCount : Nat)
      (header : HeaderSection) (hrank : r.phase.rank ≤ phase.rank) (hphase : phase ≠ .body)
      (hcut : cutAt? r.phase.delimits r.buffer = some (token, delimiter, rest)) :
      Advances r (.next { r.take token rest with phase, fieldCount, header })

/-- **A round is one of these**; the cases are those of the phases. -/
theorem advances_advance (r : HeaderReader) : Advances r r.advance := by
  by_cases hbody : r.phase = .body
  · rw [advance, hbody]
    exact .finished hbody
  cases hcut : cutAt? r.phase.delimits r.buffer with
  | none =>
      rw [advance_of_cut_eq_none hbody hcut]
      exact .waiting hbody hcut
  | some cut =>
      obtain ⟨token, delimiter, rest⟩ := cut
      have h := hcut
      unfold advance
      cases hp : r.phase <;> rw [hp, Phase.delimits] at h
      case method | target =>
        simp only [advanceWord, h]
        split
        · exact .misplaced _ hbody
        split
        · exact .misplaced _ hbody
        split
        · exact .refused _ _ _ _ hbody hcut
        · exact .recorded _ _ _ _ r.fieldCount _ (by rw [hp]; decide) (by decide) hcut
      case protocol =>
        simp only [advanceProtocol, h]
        split
        · exact .misplaced _ hbody
        split
        · exact .refused _ _ _ _ hbody hcut
        · exact .recorded _ _ _ _ r.fieldCount _ (by rw [hp]; decide) (by decide) hcut
      case version =>
        simp only [advanceVersion, h]
        split
        · exact .refused _ _ _ _ hbody hcut
        split
        · exact .refused _ _ _ _ hbody hcut
        · exact .recorded _ _ _ _ r.fieldCount _ (by rw [hp]; decide) (by decide) hcut
      case fields =>
        simp only [advanceField, h]
        split
        · exact .ended _ _ _ hp hcut
        split
        · exact .refused _ _ _ _ hbody hcut
        · rename_i next hnext
          obtain ⟨count, header, rfl⟩ := exists_of_recordField hnext
          exact .recorded _ _ _ r.phase count header (Nat.le_refl _) hbody hcut
      case body => exact absurd hp hbody

/-- The second reader is the first one after it has read on: under the same limits it was given the
same bytes, and it never went back to an earlier phase. -/
structure ReadsOnTo (r later : HeaderReader) : Prop where
  limits : later.limits = r.limits
  given : later.given = r.given
  rank : r.phase.rank ≤ later.phase.rank

theorem ReadsOnTo.refl (r : HeaderReader) : r.ReadsOnTo r := ⟨rfl, rfl, Nat.le_refl _⟩

/-- Reading goes on in steps. -/
theorem ReadsOnTo.trans {r mid later : HeaderReader} (first : r.ReadsOnTo mid)
    (second : mid.ReadsOnTo later) : r.ReadsOnTo later :=
  ⟨second.limits.trans first.limits, second.given.trans first.given,
    Nat.le_trans first.rank second.rank⟩

/-- A token that is taken is counted as consumed, with its delimiter. -/
theorem given_take {r : HeaderReader} {isDelimiter : UInt8 → Bool} {token rest : Bytes}
    {delimiter : UInt8} (h : cutAt? isDelimiter r.buffer = some (token, delimiter, rest)) :
    (r.take token rest).given = r.given := by
  simp only [given, take, append_of_cutAt? h, List.length_append, List.length_cons]
  omega

/-- A round reads on from where the reader was. -/
theorem Advances.readsOnTo {r : HeaderReader} {round : Round} (h : Advances r round) :
    r.ReadsOnTo round.reader := by
  cases h with
  | finished | waiting | misplaced => exact .refl r
  | refused token rest delimiter e hphase hcut => exact ⟨rfl, given_take hcut, Nat.le_refl _⟩
  | ended token rest delimiter hphase hcut =>
      have hrank : r.phase.rank ≤ Phase.body.rank := by rw [hphase]; decide
      exact ⟨rfl, given_take hcut, hrank⟩
  | recorded token rest delimiter phase fieldCount header hrank hphase hcut =>
      exact ⟨rfl, given_take hcut, hrank⟩

/-- A reader that stops without an error is complete exactly if it says so. -/
theorem Advances.isFinished_iff {r final : HeaderReader} {progress : Progress}
    (h : Advances r (.stop final (.ok progress))) :
    final.isFinished = true ↔ progress = .finished := by
  cases h with
  | finished hphase => simp [isFinished, hphase]
  | waiting hphase hcut => simp [isFinished, hphase]
  | ended token rest delimiter hphase hcut => simp [isFinished]

/-- Only a token whose delimiter has not come is waited for, and nothing is done meanwhile. -/
theorem Advances.eq_of_needMoreData {r final : HeaderReader}
    (h : Advances r (.stop final (.ok .needMoreData))) : final = r := by
  cases h
  rfl

/-- A round that goes on is followed by the next one. -/
theorem run_eq_of_next {r next : HeaderReader} (h : r.advance = .next next) : r.run = next.run := by
  rw [run]
  split <;> simp_all

/-- One that does not ends the run. -/
theorem run_eq_of_stop {r final : HeaderReader} {result : Except ParseError Progress}
    (h : r.advance = .stop final result) : r.run = (final, result) := by
  rw [run]
  split <;> simp_all

/-- A run reads on, by induction on its rounds. -/
theorem readsOnTo_run (r : HeaderReader) : r.ReadsOnTo r.run.1 := by
  induction r using run.induct with
  | case1 r next hnext _ ih =>
      have hstep : r.ReadsOnTo next := by
        simpa [hnext, Round.reader] using (advances_advance r).readsOnTo
      rw [run_eq_of_next hnext]
      exact hstep.trans ih
  | case2 r final result hstop =>
      rw [run_eq_of_stop hstop]
      simpa [hstop, Round.reader] using (advances_advance r).readsOnTo

/-- A run says that it has finished exactly if the header is complete. -/
theorem isFinished_run {r final : HeaderReader} {progress : Progress}
    (h : r.run = (final, .ok progress)) : final.isFinished = true ↔ progress = .finished := by
  induction r using run.induct with
  | case1 r next hnext _ ih => exact ih (by rw [← run_eq_of_next hnext, h])
  | case2 r last result hstop =>
      rw [run_eq_of_stop hstop] at h
      cases h
      exact (hstop ▸ advances_advance r).isFinished_iff

/-- A round that was not left waiting does the same if more bytes stand behind its token. -/
theorem advance_extend_of_ne {r : HeaderReader} (h : r.advance ≠ .stop r (.ok .needMoreData))
    (more : Bytes) : (r.extend more).advance = r.advance.extend more := by
  by_cases hbody : r.phase = .body
  · have hmore : (r.extend more).phase = .body := hbody
    rw [advance, hmore, advance, hbody]
    rfl
  cases hcut : cutAt? r.phase.delimits r.buffer with
  | none => exact absurd (advance_of_cut_eq_none hbody hcut) h
  | some cut => exact advance_extend hcut more

/-- **Reading on.** A reader that ran out of data is continued by more of it. -/
theorem run_extend_of_needMoreData {r final : HeaderReader}
    (h : r.run = (final, .ok .needMoreData)) (more : Bytes) :
    (r.extend more).run = (final.extend more).run := by
  -- The rounds until the data ran out are the same, for each of them found its whole token.
  induction r using run.induct with
  | case1 r next hnext _ ih =>
      have hmore : (r.extend more).advance = .next (next.extend more) := by
        rw [advance_extend_of_ne (by simp [hnext]), hnext]
        rfl
      rw [run_eq_of_next hmore]
      exact ih (by rw [← run_eq_of_next hnext, h])
  | case2 r last result hstop =>
      rw [run_eq_of_stop hstop] at h
      cases h
      have hfinal : final = r := (hstop ▸ advances_advance r).eq_of_needMoreData
      rw [hfinal]

/-- A reader that stopped for another reason than missing data stops there with more of it, too,
and leaves it in the buffer. -/
theorem run_extend_of_ne {r final : HeaderReader} {result : Except ParseError Progress}
    (h : r.run = (final, result)) (hne : result ≠ .ok .needMoreData) (more : Bytes) :
    (r.extend more).run = (final.extend more, result) := by
  induction r using run.induct with
  | case1 r next hnext _ ih =>
      have hmore : (r.extend more).advance = .next (next.extend more) := by
        rw [advance_extend_of_ne (by simp [hnext]), hnext]
        rfl
      rw [run_eq_of_next hmore]
      exact ih (by rw [← run_eq_of_next hnext, h])
  | case2 r last stopped hstop =>
      rw [run_eq_of_stop hstop] at h
      cases h
      have hmore : (r.extend more).advance = .stop (final.extend more) result := by
        rw [advance_extend_of_ne (by simp [hstop, hne]), hstop]
        rfl
      rw [run_eq_of_stop hmore]

/-- Behind the header all bytes are kept for the body. -/
theorem feed_of_isFinished {r : HeaderReader} (h : r.isFinished = true) (bytes : Bytes) :
    r.feed bytes = (r.extend bytes, .ok .finished) := by
  simp only [feed, h, ↓reduceIte, extend]

/-- A piece within the limit is put behind the buffer and read. -/
theorem feed_of_fits {r : HeaderReader} {bytes : Bytes} (h : r.isFinished = false)
    (hfits : r.given + bytes.length ≤ r.limits.maxBytes) :
    r.feed bytes = (r.extend bytes).run := by
  have hsize : ¬ r.limits.maxBytes < r.consumed + r.buffer.length + bytes.length := by
    simpa [given] using hfits
  simp only [feed, h, hsize, ↓reduceIte, extend, Bool.false_eq_true]

/-- Bytes that an unfinished reader accepts fit into its limit, and it reads on with them. -/
theorem run_of_feed {r later : HeaderReader} {bytes : Bytes} {progress : Progress}
    (hopen : r.isFinished = false) (h : r.feed bytes = (later, .ok progress)) :
    (r.extend bytes).run = (later, .ok progress) := by
  by_cases hfits : r.given + bytes.length ≤ r.limits.maxBytes
  · rw [← feed_of_fits hopen hfits]
    exact h
  · have hsize : r.limits.maxBytes < r.consumed + r.buffer.length + bytes.length := by
      simpa [given] using hfits
    simp [feed, hopen, hsize] at h

/-- A reader that asks for more has kept all that it was given, and its limit allows this. -/
theorem given_of_feed {r next : HeaderReader} {data : Bytes} (hopen : r.isFinished = false)
    (h : r.feed data = (next, .ok .needMoreData)) :
    next.isFinished = false ∧ next.limits = r.limits ∧ next.given = r.given + data.length ∧
      r.given + data.length ≤ r.limits.maxBytes := by
  have hrun := run_of_feed hopen h
  have hreads : (r.extend data).ReadsOnTo next := by
    have hreads := readsOnTo_run (r.extend data)
    rwa [hrun] at hreads
  have hfits : r.given + data.length ≤ r.limits.maxBytes := by
    refine Nat.le_of_not_lt fun hsize => ?_
    have hsize : r.limits.maxBytes < r.consumed + r.buffer.length + data.length := hsize
    rw [feed, if_neg (by simp [hopen])] at h
    dsimp only at h
    rw [if_pos hsize] at h
    cases h
  refine ⟨?_, hreads.limits, hreads.given.trans (given_extend r data), hfits⟩
  simpa using isFinished_run hrun

/-- Bytes that the limit lets in, or that it no longer concerns. -/
def Admits (r : HeaderReader) (bytes : Bytes) : Prop :=
  r.isFinished = true ∨ r.given + bytes.length ≤ r.limits.maxBytes

/-- After a piece was accepted the limit still lets in what it let in together with that piece. -/
theorem admits_of_feed {r later : HeaderReader} {progress : Progress} {a b : Bytes}
    (h : r.Admits (a ++ b)) (hfeed : r.feed a = (later, .ok progress)) : later.Admits b := by
  cases hfinished : r.isFinished with
  | true =>
      rw [feed_of_isFinished hfinished] at hfeed
      cases hfeed
      exact .inl hfinished
  | false =>
      have hfits : r.given + (a ++ b).length ≤ r.limits.maxBytes :=
        h.resolve_left (by simp [hfinished])
      rw [List.length_append] at hfits
      rw [feed_of_fits hfinished (by omega)] at hfeed
      have hread : (r.extend a).ReadsOnTo later := by simpa [hfeed] using readsOnTo_run (r.extend a)
      refine .inr ?_
      rw [hread.given, hread.limits, given_extend, limits_extend]
      omega

/-- After a piece was accepted, feeding the next one is feeding both at once. -/
theorem feed_append_of_ok {r later : HeaderReader} {progress : Progress} {a b : Bytes}
    (h : r.Admits (a ++ b)) (hfeed : r.feed a = (later, .ok progress)) :
    r.feed (a ++ b) = later.feed b := by
  have hlater := admits_of_feed h hfeed
  cases hfinished : r.isFinished with
  | true =>
      rw [feed_of_isFinished hfinished] at hfeed
      cases hfeed
      rw [feed_of_isFinished hfinished, feed_of_isFinished (r := r.extend a) hfinished,
        extend_append]
  | false =>
      have hfits : r.given + (a ++ b).length ≤ r.limits.maxBytes :=
        h.resolve_left (by simp [hfinished])
      have hfirst : r.given + a.length ≤ r.limits.maxBytes := by
        rw [List.length_append] at hfits
        omega
      rw [feed_of_fits hfinished hfirst] at hfeed
      have hdone := isFinished_run hfeed
      rw [feed_of_fits hfinished hfits, extend_append]
      cases progress with
      | needMoreData =>
          have hopen : later.isFinished = false := by simpa using hdone
          have hroom : later.given + b.length ≤ later.limits.maxBytes :=
            hlater.resolve_left (by simp [hopen])
          rw [run_extend_of_needMoreData hfeed, feed_of_fits hopen hroom]
      | finished => rw [run_extend_of_ne hfeed (by simp), feed_of_isFinished (hdone.2 rfl)]

/-- A refused piece is refused in the same way when more bytes come with it. -/
theorem feed_append_of_error {r later : HeaderReader} {e : ParseError} {a b : Bytes}
    (h : r.Admits (a ++ b)) (hfeed : r.feed a = (later, .error e)) :
    r.feed (a ++ b) = (later.extend b, .error e) := by
  cases hfinished : r.isFinished with
  | true =>
      rw [feed_of_isFinished hfinished] at hfeed
      cases hfeed
  | false =>
      have hfits : r.given + (a ++ b).length ≤ r.limits.maxBytes :=
        h.resolve_left (by simp [hfinished])
      have hfirst : r.given + a.length ≤ r.limits.maxBytes := by
        rw [List.length_append] at hfits
        omega
      rw [feed_of_fits hfinished hfirst] at hfeed
      rw [feed_of_fits hfinished hfits, extend_append, run_extend_of_ne hfeed (by simp)]

/-- Two readings agree: they give the same answer and leave the same reader behind, but for what
stands in its buffer once a header was refused. -/
structure SameReading (x y : HeaderReader × Except ParseError Progress) : Prop where
  answer : x.2 = y.2
  reader : { x.1 with buffer := [] } = { y.1 with buffer := [] }
  leftover : ∀ progress, x.2 = .ok progress → x.1.buffer = y.1.buffer

theorem SameReading.refl (x : HeaderReader × Except ParseError Progress) : SameReading x x :=
  ⟨rfl, rfl, fun _ _ => rfl⟩

theorem SameReading.symm {x y : HeaderReader × Except ParseError Progress} (h : SameReading x y) :
    SameReading y x :=
  ⟨h.answer.symm, h.reader.symm, fun progress hy => (h.leftover progress (h.answer.trans hy)).symm⟩

theorem SameReading.trans {x y z : HeaderReader × Except ParseError Progress}
    (first : SameReading x y) (second : SameReading y z) : SameReading x z :=
  ⟨first.answer.trans second.answer, first.reader.trans second.reader, fun progress hx =>
    (first.leftover progress hx).trans (second.leftover progress (first.answer ▸ hx))⟩

/-- Feeding pieces one by one reads what feeding them at once reads. -/
theorem sameReading_feedAll {pieces : List Bytes} (hne : pieces ≠ []) {r : HeaderReader}
    (h : r.Admits pieces.flatten) : SameReading (r.feedAll pieces) (r.feed pieces.flatten) := by
  induction pieces generalizing r with
  | nil => exact absurd rfl hne
  | cons piece rest ih =>
      cases rest with
      | nil =>
          rw [feedAll, List.flatten_singleton]
          exact .refl _
      | cons next rest =>
          rw [List.flatten_cons] at h ⊢
          cases hfeed : r.feed piece with
          | mk later result =>
              cases result with
              | error e =>
                  rw [feedAll, hfeed, feed_append_of_error h hfeed]
                  · exact ⟨rfl, rfl, fun _ hok => by cases hok⟩
                  · simp
              | ok progress =>
                  rw [feedAll, hfeed, feed_append_of_ok h hfeed]
                  · exact ih (by simp) (admits_of_feed h hfeed)
                  · simp

/-- **How a header is cut into pieces makes no difference.** Take any reader, and bytes that its
limit lets in or no longer concerns. Where a first piece is accepted, feeding the second one is
feeding both at once; where it is refused, so are both at once, with the same error and the same
reader, but for the second piece in its buffer. Hence all ways of cutting the bytes into pieces read
the same. -/
theorem feed_independent_of_cuts (r : HeaderReader) (a b : Bytes)
    (fits : r.isFinished = true ∨
      r.consumed + r.buffer.length + a.length + b.length ≤ r.limits.maxBytes) :
    (∀ later progress, r.feed a = (later, .ok progress) → r.feed (a ++ b) = later.feed b) ∧
    (∀ later e, r.feed a = (later, .error e) → r.feed (a ++ b) = (later.extend b, .error e)) ∧
    (∀ cut cut' : List Bytes, cut ≠ [] → cut' ≠ [] → cut.flatten = a ++ b → cut'.flatten = a ++ b →
      SameReading (r.feedAll cut) (r.feedAll cut')) := by
  have h : r.Admits (a ++ b) := by
    refine fits.imp id fun hsize => ?_
    rw [given, List.length_append]
    omega
  refine ⟨fun later progress hfeed => feed_append_of_ok h hfeed,
    fun later e hfeed => feed_append_of_error h hfeed, fun cut cut' hcut hcut' hflat hflat' => ?_⟩
  have first := sameReading_feedAll hcut (hflat ▸ h)
  have second := sameReading_feedAll hcut' (hflat' ▸ h)
  rw [hflat] at first
  rw [hflat'] at second
  exact first.trans second.symm

/-- The request line `G / H/1` and the empty line after it, cut inside its first line end, against
byte for byte. -/
theorem feed_independent_of_cuts_in_line_end :
    let r : HeaderReader := {}
    let a : Bytes := [0x47, 0x20, 0x2F, 0x20, 0x48, 0x2F, 0x31, 0x0D]
    let b : Bytes := [0x0A, 0x0D, 0x0A]
    r.consumed + r.buffer.length + a.length + b.length ≤ r.limits.maxBytes ∧
      SameReading (r.feedAll [a, b]) (r.feedAll ((a ++ b).map ([·]))) := by
  intro r a b
  have fits : r.consumed + r.buffer.length + a.length + b.length ≤ r.limits.maxBytes := by
    decide +zetaReduce
  exact ⟨fits, (feed_independent_of_cuts r a b (.inr fits)).2.2 _ _ (by simp) (by simp [a])
    (by simp) (by simp [a, b])⟩

end HeaderReader

end HttpServer
