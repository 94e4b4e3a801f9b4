import HttpServer.Proofs.Request.Segmentation

/-!
# Pieces and the stream they make up

A reader that is given a stream in pieces reads what it would read of the whole stream without a
limit on bytes, unless this limit refuses a piece: then the reader is where the pieces before
brought it (`HeaderReader.reading_feedAll`). Nothing but the limit refuses a piece for its size
(`HeaderReader.not_tooLarge_run`), and it does so exactly if the reader waits for the piece and the
piece goes beyond the limit (`HeaderReader.feedAll_tooLarge_iff`).
-/

namespace HttpServer

namespace HeaderReader

/-- The reader has read all that it was given, and waits for more. -/
def IsWaiting (r : HeaderReader) : Prop := r.run = (r, .ok .needMoreData)

variable {r later : HeaderReader} {piece : Bytes}

theorem extend_nil (r : HeaderReader) : r.extend [] = r := by
  rw [extend, List.append_nil]

/-- A reader that waits for more has not finished. -/
theorem IsWaiting.isFinished_eq (h : r.IsWaiting) : r.isFinished = false := by
  simpa using isFinished_run h

/-- Whoever ran out of data has read all of it. -/
theorem isWaiting_of_run (h : r.run = (later, .ok .needMoreData)) : later.IsWaiting := by
  have hsame : (r.extend []).run = (later.extend []).run := run_extend_of_needMoreData h []
  rw [extend_nil, extend_nil, h] at hsame
  exact hsame.symm

/-- A new reader has read all of nothing. -/
theorem isWaiting_new (limits : HeaderLimits) : ({ limits } : HeaderReader).IsWaiting :=
  run_eq_of_stop (advance_of_cut_eq_none (by simp) rfl)

/-- A round finds fault with a token, or with the number of the fields. -/
theorem fault_of_stop {r final : HeaderReader} {e : ParseError}
    (h : r.advance = .stop final (.error e)) :
    e.isLimit = false ∨ (r.phase = .fields ∧ e = .tooManyFields r.limits.maxFields) := by
  unfold advance at h
  split at h
  case h_1 | h_2 =>
    unfold advanceWord at h
    repeat' split at h
    all_goals cases h
    all_goals exact .inl rfl
  case h_3 =>
    unfold advanceProtocol at h
    repeat' split at h
    all_goals cases h
    all_goals exact .inl rfl
  case h_4 =>
    unfold advanceVersion at h
    dsimp only at h
    repeat' split at h
    all_goals cases h
    all_goals exact .inl rfl
  case h_5 hphase =>
    unfold advanceField at h
    dsimp only at h
    repeat' split at h
    all_goals cases h
    rename_i hrecord
    unfold recordField at hrecord
    repeat' split at hrecord
    all_goals cases hrecord
    · exact .inr ⟨hphase, rfl⟩
    · exact .inl rfl
    · exact .inl rfl
  case h_6 => cases h

/-- Reading tokens never finds fault with the size. -/
theorem not_tooLarge_run (size limit : Nat) (r : HeaderReader) :
    r.run.2 ≠ .error (.tooLarge size limit) := by
  induction r using run.induct with
  | case1 r next hnext _ ih => rwa [run_eq_of_next hnext]
  | case2 r final answer hstop =>
      rw [run_eq_of_stop hstop]
      rintro rfl
      rcases fault_of_stop hstop with htoken | ⟨_, hfields⟩
      · cases htoken
      · cases hfields

/-! ## One piece after the other -/

/-- A piece beyond the limit is refused, and the reader stays as it was. -/
theorem feed_of_not_fits (h : r.isFinished = false)
    (hsize : r.limits.maxBytes < r.given + piece.length) :
    r.feed piece = (r, .error (.tooLarge (r.given + piece.length) r.limits.maxBytes)) := by
  have hsum : r.limits.maxBytes < r.consumed + r.buffer.length + piece.length := hsize
  simp only [feed, h, Bool.false_eq_true, ↓reduceIte, hsum]
  rfl

/-- A fault ends the reading. -/
theorem feedAll_cons_of_error {e : ParseError} (h : r.feed piece = (later, .error e))
    (pieces : List Bytes) : r.feedAll (piece :: pieces) = (later, .error e) := by
  cases pieces with
  | nil => rw [feedAll, h]
  | cons next pieces =>
      rw [feedAll, h]
      simp

/-- Where more is asked for, the next piece is given. -/
theorem feedAll_cons_of_needMoreData (h : r.feed piece = (later, .ok .needMoreData))
    (pieces : List Bytes) : r.feedAll (piece :: pieces) = later.feedAll pieces := by
  cases pieces with
  | nil => rw [feedAll, feedAll, h]
  | cons next pieces =>
      rw [feedAll, h]
      simp

/-- A complete header takes all pieces for the body. -/
theorem feedAll_of_isFinished (h : r.isFinished = true) {pieces : List Bytes} (hne : pieces ≠ []) :
    r.feedAll pieces = (r.extend pieces.flatten, .ok .finished) := by
  induction pieces generalizing r with
  | nil => exact absurd rfl hne
  | cons piece pieces ih =>
      cases pieces with
      | nil => rw [feedAll, feed_of_isFinished h, List.flatten_singleton]
      | cons next pieces =>
          rw [feedAll, feed_of_isFinished h, List.flatten_cons, extend_append]
          · exact ih h (List.cons_ne_nil next pieces)
          · simp

/-- Pieces behind the header belong to the body. -/
theorem feedAll_cons_of_finished (hopen : r.isFinished = false)
    (h : r.feed piece = (later, .ok .finished)) (pieces : List Bytes) :
    r.feedAll (piece :: pieces) = (later.extend pieces.flatten, .ok .finished) := by
  have hlater : later.isFinished = true := (isFinished_run (run_of_feed hopen h)).2 rfl
  cases pieces with
  | nil => rw [feedAll, h, List.flatten_nil, extend_nil]
  | cons next pieces =>
      rw [feedAll, h]
      · exact feedAll_of_isFinished hlater (List.cons_ne_nil next pieces)
      · simp

/-- **How pieces are read**: as the stream that they make up, where what follows a refused token may
be missing from the buffer, or up to the first piece that goes beyond the limit on bytes. -/
inductive Reading (r : HeaderReader) (pieces : List Bytes) :
    HeaderReader × Except ParseError Progress → Prop
  | whole (later : HeaderReader) (answer : Except ParseError Progress) (missing : Bytes)
      (hrun : (r.extend pieces.flatten).run = (later.extend missing, answer))
      (hall : ∀ progress, answer = .ok progress → missing = []) : Reading r pieces (later, answer)
  | tooLarge (before after : List Bytes) (piece : Bytes) (later : HeaderReader)
      (hpieces : pieces = before ++ piece :: after)
      (hrun : (r.extend before.flatten).run = (later, .ok .needMoreData))
      (hbefore : r.feedAll before = (later, .ok .needMoreData))
      (hsize : r.limits.maxBytes < r.given + before.flatten.length + piece.length) :
      Reading r pieces (later, .error (.tooLarge (r.given + before.flatten.length + piece.length)
        r.limits.maxBytes))

/-- A piece after which more is asked for is put in front of the others. -/
theorem Reading.cons {pieces : List Bytes} {result : HeaderReader × Except ParseError Progress}
    (hopen : r.isFinished = false)
    (hfirst : r.feed piece = (later, .ok .needMoreData)) (h : Reading later pieces result) :
    Reading r (piece :: pieces) result := by
  have hrun : (r.extend piece).run = (later, .ok .needMoreData) := run_of_feed hopen hfirst
  have hreads : (r.extend piece).ReadsOnTo later := by
    simpa [hrun] using readsOnTo_run (r.extend piece)
  have hlimits : later.limits = r.limits := hreads.limits
  have hgiven : later.given = r.given + piece.length := hreads.given.trans (given_extend r piece)
  have hjoin : ∀ stream, (r.extend (piece ++ stream)).run = (later.extend stream).run :=
    fun stream => by
    rw [extend_append, run_extend_of_needMoreData hrun]
  cases h with
  | whole final answer missing hrest hall =>
      refine .whole final answer missing ?_ hall
      rw [List.flatten_cons, hjoin, hrest]
  | tooLarge before after next final hpieces hrest hbefore hsize =>
      have hsum : later.given + before.flatten.length + next.length =
          r.given + (piece :: before).flatten.length + next.length := by
        rw [hgiven, List.flatten_cons, List.length_append]
        omega
      rw [hlimits, hsum] at hsize ⊢
      refine .tooLarge (piece :: before) after next final (by rw [hpieces]; rfl) ?_ ?_ hsize
      · rw [List.flatten_cons, hjoin, hrest]
      · rw [feedAll_cons_of_needMoreData hfirst, hbefore]

/-- **Pieces are read as the stream that they make up**, or until the limit refuses one. -/
theorem reading_feedAll (h : r.IsWaiting) (pieces : List Bytes) :
    Reading r pieces (r.feedAll pieces) := by
  induction pieces generalizing r with
  | nil =>
      refine .whole r _ [] ?_ fun _ _ => rfl
      rw [List.flatten_nil, extend_nil]
      exact h
  | cons piece pieces ih =>
      have hopen := h.isFinished_eq
      by_cases hsize : r.limits.maxBytes < r.given + piece.length
      · rw [feedAll_cons_of_error (feed_of_not_fits hopen hsize)]
        refine .tooLarge [] pieces piece r rfl ?_ rfl hsize
        rw [List.flatten_nil, extend_nil]
        exact h
      have hfits : r.given + piece.length ≤ r.limits.maxBytes := Nat.le_of_not_lt hsize
      cases hfeed : r.feed piece with
      | mk later answer =>
          have hrun : (r.extend piece).run = (later, answer) := by
            rw [← feed_of_fits hopen hfits, hfeed]
          cases answer with
          | error e =>
              rw [feedAll_cons_of_error hfeed]
              refine .whole later _ pieces.flatten ?_ fun _ hok => nomatch hok
              rw [List.flatten_cons, extend_append, run_extend_of_ne hrun (by simp)]
          | ok progress =>
              cases progress with
              | needMoreData =>
                  rw [feedAll_cons_of_needMoreData hfeed]
                  exact (ih (isWaiting_of_run hrun)).cons hopen hfeed
              | finished =>
                  rw [feedAll_cons_of_finished hopen hfeed]
                  refine .whole _ _ [] ?_ fun _ _ => rfl
                  rw [List.flatten_cons, extend_append, run_extend_of_ne hrun (by simp),
                    extend_nil]

/-- What was accepted of the pieces is what a reader without a limit on bytes reads of them. -/
theorem run_of_feedAll (h : r.IsWaiting) {pieces : List Bytes} {progress : Progress}
    (hfeed : r.feedAll pieces = (later, .ok progress)) :
    (r.extend pieces.flatten).run = (later, .ok progress) := by
  have hreading := reading_feedAll h pieces
  rw [hfeed] at hreading
  cases hreading with
  | whole _ _ missing hrun hall =>
      rw [hrun, hall progress rfl, extend_nil]

/-- Pieces after which more is needed are followed by the next ones, and pieces behind a refused one
are not looked at. -/
theorem feedAll_append (h : r.IsWaiting) (before pieces : List Bytes) :
    (∀ later, r.feedAll before = (later, .ok .needMoreData) →
      r.feedAll (before ++ pieces) = later.feedAll pieces) ∧
    ∀ later e, r.feedAll before = (later, .error e) →
      r.feedAll (before ++ pieces) = (later, .error e) := by
  induction before generalizing r with
  | nil =>
      constructor
      · intro later hbefore
        cases hbefore
        rfl
      · intro later e hbefore
        cases hbefore
  | cons piece before ih =>
      have hopen := h.isFinished_eq
      rw [List.cons_append]
      cases hfeed : r.feed piece with
      | mk mid answer =>
          cases answer with
          | error found =>
              rw [feedAll_cons_of_error hfeed, feedAll_cons_of_error hfeed]
              constructor
              · intro later hbefore
                cases hbefore
              · intro later e hbefore
                exact hbefore
          | ok progress =>
              cases progress with
              | needMoreData =>
                  rw [feedAll_cons_of_needMoreData hfeed, feedAll_cons_of_needMoreData hfeed]
                  exact ih (isWaiting_of_run (run_of_feed hopen hfeed))
              | finished =>
                  rw [feedAll_cons_of_finished hopen hfeed]
                  constructor
                  · intro later hbefore
                    cases hbefore
                  · intro later e hbefore
                    cases hbefore

/-- **Pieces are refused for their size** exactly if one of them goes beyond the limit while the
reader waits for it. -/
theorem feedAll_tooLarge_iff (h : r.IsWaiting) {pieces : List Bytes} :
    (∃ size, (r.feedAll pieces).2 = .error (.tooLarge size r.limits.maxBytes)) ↔
      ∃ before piece after, pieces = before ++ piece :: after ∧
        (r.feedAll before).2 = .ok .needMoreData ∧
        r.limits.maxBytes < r.given + before.flatten.length + piece.length := by
  constructor
  · rintro ⟨size, hrefused⟩
    have hreading := reading_feedAll h pieces
    generalize r.feedAll pieces = result at hreading hrefused
    cases hreading with
    | whole later answer missing hrun hall =>
        refine absurd ?_ (not_tooLarge_run size r.limits.maxBytes (r.extend pieces.flatten))
        rw [hrun]
        exact hrefused
    | tooLarge before after piece later hpieces hrun hbefore hsize =>
        exact ⟨before, piece, after, hpieces, by rw [hbefore], hsize⟩
  · rintro ⟨before, piece, after, rfl, hwaits, hsize⟩
    cases hbefore : r.feedAll before with
    | mk later answer =>
        have hanswer : answer = .ok .needMoreData := by rw [← hwaits, hbefore]
        rw [hanswer] at hbefore
        have hrun := run_of_feedAll h hbefore
        have hreads : (r.extend before.flatten).ReadsOnTo later := by
          simpa [hrun] using readsOnTo_run (r.extend before.flatten)
        have hgiven : later.given = r.given + before.flatten.length :=
          hreads.given.trans (given_extend r before.flatten)
        have hlimits : later.limits = r.limits := hreads.limits
        have hrefused := feed_of_not_fits (isWaiting_of_run hrun).isFinished_eq
          (by rwa [hgiven, hlimits])
        refine ⟨later.given + piece.length, ?_⟩
        rw [(feedAll_append h before (piece :: after)).1 later hbefore,
          feedAll_cons_of_error hrefused, hlimits]

end HeaderReader

end HttpServer
