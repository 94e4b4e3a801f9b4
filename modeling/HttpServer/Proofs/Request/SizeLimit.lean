import HttpServer.Proofs.Request.RequestLine

/-!
# The limit on the bytes of a header

A header section goes up to the first empty line of a stream (`IsHeaderSection`); a reader waits for
more exactly as long as it has not seen the end of it (`HeaderReader.waits_iff`). The limit on bytes
is compared with everything that was given to the reader, so a piece that brings the end of the
header together with the start of the body may be refused, however short the header is. Which pieces
are, and that nothing else depends on how the stream is cut, says
`HeaderReader.refused_for_size_iff`.
-/

namespace HttpServer

open HeaderReader

/-- The line that closes a header, without its line feed. -/
def IsClosing (line : Bytes) : Prop := line = [] ∨ line = [carriageReturn]

/-- **A header section**: lines up to the first empty one, which closes it. -/
inductive IsHeaderSection : Bytes → Prop
  | closing (line : Bytes) (hclosing : IsClosing line) : IsHeaderSection (line ++ [lineFeed])
  | line (line head : Bytes) (hfeed : lineFeed ∉ line) (hopen : ¬ IsClosing line)
      (hhead : IsHeaderSection head) : IsHeaderSection (line ++ lineFeed :: head)

theorem IsClosing.noFeed {line : Bytes} (h : IsClosing line) : lineFeed ∉ line := by
  rcases h with rfl | rfl <;> decide

theorem IsHeaderSection.lineFeed_mem {head : Bytes} (h : IsHeaderSection head) :
    lineFeed ∈ head := by
  cases h <;> simp

/-- A stream has one header section. -/
theorem IsHeaderSection.unique {head other body rest : Bytes} (h : IsHeaderSection head)
    (hother : IsHeaderSection other) (hstream : head ++ body = other ++ rest) : head = other := by
  induction h generalizing other with
  | closing line hclosing =>
      cases hother with
      | closing line' hclosing' =>
          rw [List.append_assoc, List.append_assoc] at hstream
          rw [(eq_of_first_lineFeed hclosing.noFeed hclosing'.noFeed hstream).1]
      | line line' head' hfeed hopen hhead =>
          rw [List.append_assoc, List.append_assoc] at hstream
          have hline := (eq_of_first_lineFeed hclosing.noFeed hfeed hstream).1
          exact absurd (hline ▸ hclosing) hopen
  | line line head hfeed hopen hhead ih =>
      cases hother with
      | closing line' hclosing' =>
          rw [List.append_assoc, List.append_assoc] at hstream
          have hline := (eq_of_first_lineFeed hfeed hclosing'.noFeed hstream).1
          exact absurd (hline ▸ hclosing') hopen
      | line line' head' hfeed' hopen' hhead' =>
          rw [List.append_assoc, List.append_assoc] at hstream
          obtain ⟨hline, hrest⟩ := eq_of_first_lineFeed hfeed hfeed' hstream
          rw [hline, ih hhead' hrest]

namespace HeaderReader

open HeaderText

/-- An accepted request line closes no header. -/
theorem not_isClosing_of_accepted {l : RequestLine} (h : l.Accepted) : ¬ IsClosing l.bytes := by
  obtain ⟨b, bs, hmethod⟩ := List.exists_cons_of_ne_nil h.method.ne_nil
  rw [IsClosing, RequestLine.bytes, hmethod]
  simp

theorem not_isClosing_of_isFieldLine {line : Bytes} (h : IsFieldLine line) : ¬ IsClosing line :=
  fun hclosing => lineText_ne_of_isFieldLine h (lineText_eq_empty_iff.2 hclosing)

/-! ## The end of the header -/

/-- A reader behind the request line that is done has taken the rest of the header section. -/
theorem exists_section_of_fields {r final : HeaderReader} (hphase : r.phase = .fields)
    (h : r.run = (final, .ok .finished)) :
    ∃ head, IsHeaderSection head ∧ r.buffer = head ++ final.buffer := by
  induction r using run.induct with
  | case1 r next hnext _ ih =>
      rw [run_eq_of_next hnext] at h
      rw [advance_fields hphase] at hnext
      obtain ⟨line, rest, _, hline, hbuffer, rfl⟩ := advanceField_eq_next_iff.1 hnext
      obtain ⟨head, hhead, hrest⟩ := ih hphase h
      replace hrest : rest = head ++ final.buffer := hrest
      refine ⟨_, .line line head hline.noFeed (not_isClosing_of_isFieldLine hline) hhead, ?_⟩
      rw [hbuffer, hrest, List.append_assoc]
      rfl
  | case2 r last answer hstop =>
      rw [run_eq_of_stop hstop] at h
      cases h
      rw [advance_fields hphase] at hstop
      obtain ⟨closing, rest, hclosing, hbuffer, rfl⟩ := advanceField_eq_finished_iff.1 hstop
      refine ⟨_, .closing closing hclosing, ?_⟩
      rw [hbuffer, List.append_assoc]
      rfl

/-- A reader that is done has taken the header section. -/
theorem exists_section_of_run {limits : HeaderLimits} {s : Bytes} {final : HeaderReader}
    (h : ({ limits, buffer := s } : HeaderReader).run = (final, .ok .finished)) :
    ∃ head, IsHeaderSection head ∧ s = head ++ final.buffer := by
  have hline := lineReading_run limits s
  generalize hresult : ({ limits, buffer := s } : HeaderReader).run = result at hline
  rw [h] at hresult
  cases hline with
  | passed l rest haccepted hs =>
      obtain ⟨head, hhead, hrest⟩ := exists_section_of_fields rfl hresult.symm
      replace hrest : rest = head ++ final.buffer := hrest
      refine ⟨_,
        .line l.bytes head haccepted.noFeed (not_isClosing_of_accepted haccepted) hhead, ?_⟩
      rw [hs, hrest, List.append_assoc]
      rfl
  | refused final e hphase he => cases hresult
  | waiting final hphase hs => cases hresult

/-- Behind the request line, whoever has the rest of the header section does not wait for more. -/
theorem not_needMoreData_of_fields {r : HeaderReader} {head more : Bytes} (h : IsHeaderSection head)
    (hphase : r.phase = .fields) (hbuffer : r.buffer = head ++ more) :
    r.run.2 ≠ .ok .needMoreData := by
  induction h generalizing r with
  | closing line hclosing =>
      rw [List.append_assoc] at hbuffer
      have hstop := advanceField_eq_finished_iff.2 ⟨line, more, hclosing, hbuffer, rfl⟩
      rw [run_eq_of_stop ((advance_fields hphase).trans hstop)]
      simp
  | line line head hfeed hopen hhead ih =>
      rw [List.append_assoc] at hbuffer
      cases hround : r.advance with
      | stop final answer =>
          rw [run_eq_of_stop hround]
          rintro rfl
          exact noFeed_of_waiting hround (by simp [hbuffer])
      | next next =>
          rw [run_eq_of_next hround]
          rw [advance_fields hphase] at hround
          obtain ⟨token, rest, _, htoken, htaken, rfl⟩ := advanceField_eq_next_iff.1 hround
          obtain ⟨_, hrest⟩ := eq_of_first_lineFeed hfeed htoken.noFeed (hbuffer.symm.trans htaken)
          exact ih hphase hrest.symm

/-- Whoever has a whole header section does not wait for more. -/
theorem not_needMoreData_of_section (limits : HeaderLimits) {head : Bytes}
    (h : IsHeaderSection head) (more : Bytes) :
    ({ limits, buffer := head ++ more } : HeaderReader).run.2 ≠ .ok .needMoreData := by
  have hline := lineReading_run limits (head ++ more)
  generalize hresult : ({ limits, buffer := head ++ more } : HeaderReader).run = result at hline
  cases hline with
  | passed l rest haccepted hs =>
      cases h with
      | closing line hclosing =>
          rw [List.append_assoc] at hs
          obtain ⟨hsame, _⟩ := eq_of_first_lineFeed hclosing.noFeed haccepted.noFeed hs
          exact absurd (hsame ▸ hclosing) (not_isClosing_of_accepted haccepted)
      | line line head hfeed hopen hhead =>
          rw [List.append_assoc] at hs
          obtain ⟨_, hrest⟩ := eq_of_first_lineFeed hfeed haccepted.noFeed hs
          exact not_needMoreData_of_fields hhead rfl hrest.symm
  | refused final e hphase he => simp
  | waiting final hphase hs => exact absurd (List.mem_append_left _ h.lineFeed_mem) hs

/-- **Waiting for the end of the header.** A reader without complaints waits for more exactly as
long as the header section is not over. -/
theorem waits_iff {limits : HeaderLimits} {head body start rest : Bytes} {later : HeaderReader}
    {progress : Progress} (hsection : IsHeaderSection head) (hstream : start ++ rest = head ++ body)
    (hrun : ({ limits, buffer := start } : HeaderReader).run = (later, .ok progress)) :
    progress = .needMoreData ↔ start.length < head.length := by
  cases progress with
  | needMoreData =>
      apply iff_of_true rfl
      apply Nat.lt_of_not_le
      intro hlong
      obtain ⟨more, rfl⟩ : head <+: start :=
        List.prefix_of_prefix_length_le ⟨body, hstream.symm⟩ ⟨rest, rfl⟩ hlong
      refine not_needMoreData_of_section limits hsection more ?_
      rw [hrun]
  | finished =>
      obtain ⟨found, hfound, hstart⟩ := exists_section_of_run hrun
      rw [hstart, List.append_assoc] at hstream
      rw [hfound.unique hsection hstream] at hstart
      refine iff_of_false (by simp) (Nat.not_lt.2 ?_)
      rw [hstart, List.length_append]
      exact Nat.le_add_right ..

/-! ## Refusals for the size -/

/-- Pieces are refused for their size by the limit on bytes. -/
def IsRefusedForSize (limits : HeaderLimits) (pieces : List Bytes) : Prop :=
  ∃ size, (({ limits } : HeaderReader).feedAll pieces).2 = .error (.tooLarge size limits.maxBytes)

/-- A piece starts within the header section and ends beyond the limit. -/
def Overshoots (limits : HeaderLimits) (head : Bytes) (pieces : List Bytes) : Prop :=
  ∃ before piece after, pieces = before ++ piece :: after ∧ before.flatten.length < head.length ∧
    limits.maxBytes < before.flatten.length + piece.length

section Refusals

variable {limits : HeaderLimits} {head body : Bytes} {pieces : List Bytes}

/-- The piece that is refused starts within the header section, for the reader waits for it. -/
theorem isRefusedForSize_iff (hsection : IsHeaderSection head)
    (hcut : pieces.flatten = head ++ body) :
    IsRefusedForSize limits pieces ↔
      ∃ before piece after, pieces = before ++ piece :: after ∧
        (({ limits } : HeaderReader).feedAll before).2 = .ok .needMoreData ∧
        before.flatten.length < head.length ∧
        limits.maxBytes < before.flatten.length + piece.length := by
  have hgiven : ({ limits } : HeaderReader).given = 0 := rfl
  rw [IsRefusedForSize, feedAll_tooLarge_iff (isWaiting_new limits)]
  simp only [hgiven, Nat.zero_add]
  constructor
  · rintro ⟨before, piece, after, rfl, hwaits, hsize⟩
    refine ⟨before, piece, after, rfl, hwaits, ?_, hsize⟩
    have hrun := run_of_feedAll (isWaiting_new limits) (Prod.ext rfl hwaits)
    rw [List.flatten_append] at hcut
    exact (waits_iff hsection hcut hrun).1 rfl
  · rintro ⟨before, piece, after, rfl, hwaits, -, hsize⟩
    exact ⟨before, piece, after, rfl, hwaits, hsize⟩

/-- A header section that fits is read as a whole, and not waited for. -/
theorem feed_section (hsection : IsHeaderSection head) (hfits : head.length ≤ limits.maxBytes) :
    ({ limits } : HeaderReader).feed head = ({ limits, buffer := head } : HeaderReader).run ∧
      (({ limits } : HeaderReader).feed head).2 ≠ .ok .needMoreData := by
  have hgiven : ({ limits } : HeaderReader).given + head.length ≤ limits.maxBytes := by
    simpa [given] using hfits
  have hfeed : ({ limits } : HeaderReader).feed head =
      ({ limits, buffer := head } : HeaderReader).run := feed_of_fits rfl hgiven
  refine ⟨hfeed, ?_⟩
  have hdone := not_needMoreData_of_section limits hsection []
  rw [List.append_nil] at hdone
  rw [hfeed]
  exact hdone

/-- Pieces that are not refused for their size are read as the header section alone, and what
follows it is left for the body. -/
theorem feedAll_of_not_refused (hsection : IsHeaderSection head)
    (hfits : head.length ≤ limits.maxBytes) (hcut : pieces.flatten = head ++ body)
    (h : ¬ IsRefusedForSize limits pieces) :
    (({ limits } : HeaderReader).feedAll pieces).2 = (({ limits } : HeaderReader).feed head).2 ∧
      ((({ limits } : HeaderReader).feed head).2 = .ok .finished →
        (({ limits } : HeaderReader).feedAll pieces).1 =
          (({ limits } : HeaderReader).feed head).1.extend body) := by
  obtain ⟨hfeed, hne⟩ := feed_section hsection hfits
  have hreading := reading_feedAll (isWaiting_new limits) pieces
  rw [IsRefusedForSize] at h
  generalize ({ limits } : HeaderReader).feedAll pieces = reading at h hreading
  cases hreading with
  | tooLarge before after piece later hpieces hrun hbefore hsize => exact absurd ⟨_, rfl⟩ h
  | whole later answer missing hrun hall =>
      rw [hcut, extend_append] at hrun
      rw [hfeed] at hne ⊢
      rw [run_extend_of_ne (r := ({ limits } : HeaderReader).extend head) rfl hne body] at hrun
      obtain ⟨hreader, hanswer⟩ := Prod.mk.inj hrun
      refine ⟨hanswer.symm, ?_⟩
      intro hfinished
      rw [hall .finished (hanswer.symm.trans hfinished), extend_nil] at hreader
      exact hreader.symm

/-- Of a header that is accepted alone, every overshooting piece is refused. -/
theorem isRefusedForSize_iff_overshoots (hsection : IsHeaderSection head)
    (hfits : head.length ≤ limits.maxBytes) (hcut : pieces.flatten = head ++ body)
    (hdone : (({ limits } : HeaderReader).feed head).2 = .ok .finished) :
    IsRefusedForSize limits pieces ↔ Overshoots limits head pieces := by
  constructor
  · intro h
    obtain ⟨before, piece, after, hpieces, -, hstart, hsize⟩ :=
      (isRefusedForSize_iff hsection hcut).1 h
    exact ⟨before, piece, after, hpieces, hstart, hsize⟩
  · rintro ⟨before, piece, after, hpieces, hstart, hsize⟩
    apply Classical.byContradiction
    intro hnot
    have hanswer := (feedAll_of_not_refused hsection hfits hcut hnot).1.trans hdone
    rw [hpieces] at hanswer
    -- The pieces in front were no worse than all of them, so the reader waits behind them.
    cases hbefore : ({ limits } : HeaderReader).feedAll before with
    | mk later verdict =>
        cases verdict with
        | error e =>
            rw [(feedAll_append (isWaiting_new limits) before _).2 later e hbefore] at hanswer
            cases hanswer
        | ok progress =>
            have hrun := run_of_feedAll (isWaiting_new limits) hbefore
            have hstream : before.flatten ++ (piece ++ after.flatten) = head ++ body := by
              rw [← hcut, hpieces, List.flatten_append, List.flatten_cons]
            have hwaits : progress = .needMoreData := (waits_iff hsection hstream hrun).2 hstart
            rw [hwaits] at hbefore
            refine hnot ((isRefusedForSize_iff hsection hcut).2
              ⟨before, piece, after, hpieces, ?_, hstart, hsize⟩)
            rw [hbefore]

end Refusals

/-- **When the limit on bytes refuses a stream** whose header section keeps to it. However the
stream is cut into pieces, it is refused for its size exactly if the reader, still waiting for the
end of the header, is given a piece that goes beyond the limit, that is, a piece that brings so many
bytes of the body with the end of the header. For a header that is accepted alone this says that
some piece starts within the header section and ends beyond the limit. All other streams are read as
their header section alone, and the rest is left for the body. -/
theorem refused_for_size_iff (limits : HeaderLimits) (head body : Bytes) (pieces : List Bytes)
    (hsection : IsHeaderSection head) (hfits : head.length ≤ limits.maxBytes)
    (hcut : pieces.flatten = head ++ body) :
    (IsRefusedForSize limits pieces ↔
      ∃ before piece after, pieces = before ++ piece :: after ∧
        (({ limits } : HeaderReader).feedAll before).2 = .ok .needMoreData ∧
        before.flatten.length < head.length ∧
        limits.maxBytes < before.flatten.length + piece.length) ∧
    ((({ limits } : HeaderReader).feed head).2 = .ok .finished →
      (IsRefusedForSize limits pieces ↔ Overshoots limits head pieces)) ∧
    (¬ IsRefusedForSize limits pieces →
      (({ limits } : HeaderReader).feedAll pieces).2 = (({ limits } : HeaderReader).feed head).2 ∧
        ((({ limits } : HeaderReader).feed head).2 = .ok .finished →
          (({ limits } : HeaderReader).feedAll pieces).1 =
            (({ limits } : HeaderReader).feed head).1.extend body)) :=
  ⟨isRefusedForSize_iff hsection hcut, isRefusedForSize_iff_overshoots hsection hfits hcut,
    feedAll_of_not_refused hsection hfits hcut⟩

/-- `GET / HTTP/1.1` and the empty line: a header section of 18 bytes. -/
def getSection : Bytes := Utf8.ofString "GET / HTTP/1.1\r\n\r\n"

/-- A limit that the section `getSection` just keeps to. -/
def tightLimits : HeaderLimits := { maxBytes := 18 }

theorem isHeaderSection_getSection : IsHeaderSection getSection := by
  have hspelled : getSection =
      Utf8.ofString "GET / HTTP/1.1\r" ++ lineFeed :: ([carriageReturn] ++ [lineFeed]) := by
    decide +kernel
  rw [hspelled]
  refine .line _ _ (by decide +kernel) ?_ (.closing _ (.inr rfl))
  rintro (h | h) <;> exact absurd h (by decide +kernel)

theorem feed_getSection :
    ∃ later, ({ limits := tightLimits } : HeaderReader).feed getSection =
      (later, .ok .finished) := by
  have haccepted : (getLine "HTTP").Accepted :=
    accepted_getLine (by decide +kernel) (by decide +kernel)
  obtain ⟨later, hfeed, -⟩ := feedAll_line haccepted tightLimits [getSection] (by decide +kernel)
    (by decide +kernel)
  exact ⟨later, hfeed⟩

/-- With a byte of the body in the same piece the section is refused, with one in the next piece it
is not. -/
theorem refused_for_size_getSection :
    IsHeaderSection getSection ∧ getSection.length ≤ tightLimits.maxBytes ∧
      IsRefusedForSize tightLimits [getSection ++ [0x78]] ∧
      (({ limits := tightLimits } : HeaderReader).feedAll [getSection, [0x78]]).2 =
        .ok .finished := by
  have hfits : getSection.length ≤ tightLimits.maxBytes := by decide +kernel
  obtain ⟨alone, halone⟩ := feed_getSection
  have hdone : (({ limits := tightLimits } : HeaderReader).feed getSection).2 = .ok .finished := by
    rw [halone]
  have htogether := refused_for_size_iff tightLimits getSection [0x78] [getSection ++ [0x78]]
    isHeaderSection_getSection hfits (by simp)
  have happart := refused_for_size_iff tightLimits getSection [0x78] [getSection, [0x78]]
    isHeaderSection_getSection hfits (by simp)
  refine ⟨isHeaderSection_getSection, hfits, ?_, ?_⟩
  · exact (htogether.2.1 hdone).2 ⟨[], _, [], rfl, by decide +kernel, by decide +kernel⟩
  · rw [(happart.2.2 ?_).1, hdone]
    rw [happart.2.1 hdone]
    rintro ⟨before, piece, after, hpieces, hstart, hsize⟩
    cases before with
    | nil =>
        cases hpieces
        exact absurd hsize (by decide +kernel)
    | cons first before =>
        obtain ⟨rfl, -⟩ := List.cons.inj hpieces
        rw [List.flatten_cons, List.length_append] at hstart
        omega

/-- A header that keeps to the limit is refused for the byte of the body that comes with it. -/
theorem refused_with_body :
    IsHeaderSection getSection ∧ getSection.length ≤ tightLimits.maxBytes ∧
      ({ limits := tightLimits } : HeaderReader).feedAll [getSection ++ [0x78]] =
        ({ limits := tightLimits }, .error (.tooLarge 19 18)) ∧
      ∃ later, ({ limits := tightLimits } : HeaderReader).feedAll [getSection, [0x78]] =
        (later, .ok .finished) := by
  obtain ⟨alone, halone⟩ := feed_getSection
  refine ⟨isHeaderSection_getSection, by decide +kernel, ?_, _,
    feedAll_cons_of_finished rfl halone _⟩
  exact feed_of_not_fits rfl (by decide +kernel)

end HeaderReader

end HttpServer
