import HttpServer.Proofs.Request.Bookkeeping

/-!
# The rounds of a reader

Bytes that a reader is given make it go from round to round until one of them stops it
(`HeaderReader.Rounds`). A round that goes on takes bytes from the front of the buffer
(`HeaderReader.taken_of_next`), whatever the phase and whatever the bytes, so the reader makes at
most one round more than its buffer loses bytes (`HeaderReader.Rounds.count_le`). Hence reading what
it was given comes to an end (`HeaderReader.exists_feeding`), and how long that takes is paid for by
the bytes that came before and the bytes that came now (`HeaderReader.Feeding.count_le`).
-/

namespace HttpServer

namespace HeaderReader

/-! ## One round after the other -/

/-- **A loop of rounds**: how many of them a reader makes until one stops it, and what this one
leaves behind and answers. Nothing in here bounds their number. -/
inductive Rounds : HeaderReader → Nat → HeaderReader × Except ParseError Progress → Prop
  | last {r final : HeaderReader} {answer : Except ParseError Progress}
      (hround : r.advance = .stop final answer) : Rounds r 1 (final, answer)
  | next {r mid : HeaderReader} {count : Nat} {result : HeaderReader × Except ParseError Progress}
      (hround : r.advance = .next mid) (hrest : Rounds mid count result) :
      Rounds r (count + 1) result

/-- A round that goes on has taken bytes from the front of the buffer. -/
theorem taken_of_next {r next : HeaderReader} (h : r.advance = .next next) :
    ∃ taken, taken ≠ [] ∧ r.buffer = taken ++ next.buffer := by
  have hless := buffer_length_advance h
  have hbuffer := buffer_of_advance r
  rw [h, Round.reader] at hbuffer
  rcases hbuffer with ⟨-, hsame⟩ | ⟨taken, htaken, -⟩
  · rw [hsame] at hless
    exact absurd hless (Nat.lt_irrefl _)
  · refine ⟨taken, ?_, htaken⟩
    rintro rfl
    rw [htaken, List.nil_append] at hless
    exact Nat.lt_irrefl _ hless

/-- A round that stops the reader puts nothing into the buffer. -/
theorem buffer_length_of_stop {r final : HeaderReader} {answer : Except ParseError Progress}
    (h : r.advance = .stop final answer) : final.buffer.length ≤ r.buffer.length := by
  have hbuffer := buffer_of_advance r
  rw [h] at hbuffer
  rcases hbuffer with ⟨-, hsame⟩ | ⟨taken, htaken, -⟩
  · exact Nat.le_of_eq (congrArg List.length hsame)
  · rw [htaken, List.length_append]
    exact Nat.le_add_left _ _

/-- Every reader is stopped by some round. -/
theorem exists_rounds (r : HeaderReader) : ∃ count, Rounds r count r.run := by
  -- On the bytes that are left in the buffer, which each round makes fewer.
  induction hlength : r.buffer.length using Nat.strongRecOn generalizing r with
  | ind length ih =>
      subst hlength
      cases hround : r.advance with
      | stop final answer =>
          rw [run_eq_of_stop hround]
          exact ⟨1, .last hround⟩
      | next mid =>
          obtain ⟨count, hrest⟩ := ih _ (buffer_length_advance hround) mid rfl
          rw [run_eq_of_next hround]
          exact ⟨count + 1, .next hround hrest⟩

namespace Rounds

variable {r : HeaderReader} {count : Nat} {result : HeaderReader × Except ParseError Progress}

/-- The rounds lead where the run leads. -/
theorem eq_run (h : Rounds r count result) : result = r.run := by
  induction h with
  | last hround => exact (run_eq_of_stop hround).symm
  | next hround hrest ih => exact ih.trans (run_eq_of_next hround).symm

/-- **Rounds are paid for with bytes**, all but the last one. -/
theorem count_le (h : Rounds r count result) :
    count + result.1.buffer.length ≤ r.buffer.length + 1 := by
  induction h with
  | last hround =>
      have hstop := buffer_length_of_stop hround
      dsimp only
      omega
  | next hround hrest ih =>
      have hless := buffer_length_advance hround
      omega

/-- Rounds find fault with a token, or with the number of the fields. -/
theorem fault {e : ParseError} (h : Rounds r count result) (hfault : result.2 = .error e) :
    e.isLimit = false ∨ e = .tooManyFields r.limits.maxFields := by
  induction h with
  | last hround =>
      dsimp only at hfault
      subst hfault
      exact (fault_of_stop hround).imp_right And.right
  | @next r mid count result hround hrest ih =>
      have hlimits : mid.limits = r.limits := by
        simpa [hround, Round.reader] using (advances_advance r).readsOnTo.limits
      rw [← hlimits]
      exact ih hfault

end Rounds

/-! ## Giving bytes to a reader -/

/-- **Giving bytes to a reader**, and how many rounds it makes with them: none if its header is
complete or if the bytes go beyond its limit, and else one after the other until one stops it. -/
inductive Feeding (r : HeaderReader) (data : Bytes) :
    Nat → HeaderReader × Except ParseError Progress → Prop
  | kept (hfinished : r.isFinished = true) : Feeding r data 0 (r.extend data, .ok .finished)
  | tooLarge (hopen : r.isFinished = false) (hsize : r.limits.maxBytes < r.given + data.length) :
      Feeding r data 0 (r, .error (.tooLarge (r.given + data.length) r.limits.maxBytes))
  | rounds {count : Nat} {result : HeaderReader × Except ParseError Progress}
      (hopen : r.isFinished = false) (hfits : r.given + data.length ≤ r.limits.maxBytes)
      (hrounds : Rounds (r.extend data) count result) : Feeding r data count result

/-- **Reading what was given comes to an end**, in some number of rounds. -/
theorem exists_feeding (r : HeaderReader) (data : Bytes) :
    ∃ count, r.Feeding data count (r.feed data) := by
  cases hfinished : r.isFinished with
  | true =>
      rw [feed_of_isFinished hfinished]
      exact ⟨0, .kept hfinished⟩
  | false =>
      by_cases hsize : r.limits.maxBytes < r.given + data.length
      · rw [feed_of_not_fits hfinished hsize]
        exact ⟨0, .tooLarge hfinished hsize⟩
      · have hfits := Nat.le_of_not_lt hsize
        obtain ⟨count, hrounds⟩ := exists_rounds (r.extend data)
        rw [feed_of_fits hfinished hfits]
        exact ⟨count, .rounds hfinished hfits hrounds⟩

namespace Feeding

variable {r next : HeaderReader} {data : Bytes} {count : Nat}
  {result : HeaderReader × Except ParseError Progress}

theorem eq_feed (h : r.Feeding data count result) : result = r.feed data := by
  cases h with
  | kept hfinished => exact (feed_of_isFinished hfinished data).symm
  | tooLarge hopen hsize => exact (feed_of_not_fits hopen hsize).symm
  | rounds hopen hfits hrounds => rw [feed_of_fits hopen hfits, hrounds.eq_run]

/-- The rounds are paid for by the bytes that there are, and one more. -/
theorem count_le (h : r.Feeding data count result) :
    count ≤ r.buffer.length + data.length + 1 := by
  cases h with
  | kept | tooLarge => exact Nat.zero_le _
  | rounds _ _ hrounds =>
      have hcount := hrounds.count_le
      rw [extend, List.length_append] at hcount
      omega

/-- **Every byte that the limit still allows pays for two rounds**, and every byte in the buffer for
one. -/
theorem count_add_le (h : r.Feeding data count result) (hdata : data ≠ [])
    (hfits : r.given ≤ r.limits.maxBytes) :
    count + 2 * r.given ≤ 2 * r.limits.maxBytes + r.buffer.length := by
  have hsome := List.length_pos_iff.2 hdata
  have hcount := h.count_le
  cases h with
  | kept | tooLarge => omega
  | rounds => omega

/-- **A reader that asks for more** has kept all that it was given, and its limit allows this. Its
rounds are paid for with the bytes that its buffer lost. -/
theorem of_needMoreData (h : r.Feeding data count (next, .ok .needMoreData)) :
    next.limits = r.limits ∧ next.given = r.given + data.length ∧
      r.given + data.length ≤ r.limits.maxBytes ∧
      count + next.buffer.length ≤ r.buffer.length + data.length + 1 := by
  have hfeed := h.eq_feed.symm
  cases h with
  | rounds hopen hfits hrounds =>
      have hcount := hrounds.count_le
      rw [extend, List.length_append] at hcount
      obtain ⟨-, hlimits, hgiven, hroom⟩ := given_of_feed hopen hfeed
      exact ⟨hlimits, hgiven, hroom, hcount⟩

/-- A reader that says so has finished. -/
theorem isFinished_of_finished (h : r.Feeding data count (next, .ok .finished)) :
    next.isFinished = true := by
  cases h with
  | kept hfinished => exact hfinished
  | rounds _ _ hrounds => exact (isFinished_run hrounds.eq_run.symm).2 rfl

end Feeding

end HeaderReader

end HttpServer
