import HttpServer.Proofs.Exchange.HeaderReading
import HttpServer.Proofs.Request.Rounds

/-!
# The header phase ends

A header is read in a loop around a loop: read after read, and for what each of them brings, round
after round of the reader (`HeaderLoop`). What a read brings is anybody's choice here, but for one
thing: it is not empty. So a read after which the reader asks for more has used up some of the limit
on bytes, and with what it brought and what tokens took its rounds are paid for, too. This bounds
both loops by the limit (`HeaderLoop.count_le`), and both come to an end (`exists_headerLoop`). As
long as reads bring bytes, it is the header or one of its limits that ends them
(`HeaderLoop.headerOver`).

So no sequence of reads keeps a server in the header phase (`exists_end_of_pieces`), and nobody does
so on a connection, where reading a header is this loop (`Serving.exists_end_of_readHeader`). A peer
can come up to the bound on the reads, under all limits: it sends a method that does not end, letter
by letter (`headerLoop_dripping`).
-/

namespace HttpServer

open HeaderReader

/-! ## The loop -/

section Loop

variable {σ : Type}

/-- **Reading a header** from a source, given what a read brings in each of its states: what read
after read brings is handed to the reader, until a read brings nothing, or the reader refuses what
it brought, or the header is complete. The numbers count the reads, and the rounds of the reader
between them; nothing in here bounds them. -/
inductive HeaderLoop (read : σ → Option (Except ConnectionError Bytes) × σ) :
    HeaderReader → σ → (reads rounds : Nat) → Option (Except HttpError HeaderReader) × σ → Prop
  /-- The read never ends. -/
  | hung {reader : HeaderReader} {s later : σ} (hread : read s = (none, later)) :
      HeaderLoop read reader s 1 0 (none, later)
  | failed {reader : HeaderReader} {s later : σ} {failure : ConnectionError}
      (hread : read s = (some (.error failure), later)) :
      HeaderLoop read reader s 1 0 (some (.error (.connection failure)), later)
  | refused {reader next : HeaderReader} {s later : σ} {data : Bytes} {rounds : Nat}
      {e : ParseError} (hread : read s = (some (.ok data), later))
      (hfeed : reader.Feeding data rounds (next, .error e)) :
      HeaderLoop read reader s 1 rounds (some (.error (.request e)), later)
  | complete {reader next : HeaderReader} {s later : σ} {data : Bytes} {rounds : Nat}
      (hread : read s = (some (.ok data), later))
      (hfeed : reader.Feeding data rounds (next, .ok .finished)) :
      HeaderLoop read reader s 1 rounds (some (.ok next), later)
  | more {reader next : HeaderReader} {s mid : σ} {data : Bytes} {reads rounds after : Nat}
      {result : Option (Except HttpError HeaderReader) × σ}
      (hread : read s = (some (.ok data), mid))
      (hfeed : reader.Feeding data rounds (next, .ok .needMoreData))
      (hrest : HeaderLoop read next mid reads after result) :
      HeaderLoop read reader s (reads + 1) (rounds + after) result

/-- **How the header phase is over**: the header is complete, or it is malformed, or it goes beyond
one of its limits. -/
inductive HeaderOver (limits : HeaderLimits) : Except HttpError HeaderReader → Prop
  | complete (reader : HeaderReader) (hfinished : reader.isFinished = true) :
      HeaderOver limits (.ok reader)
  | malformed (e : ParseError) (hfault : e.isLimit = false) :
      HeaderOver limits (.error (.request e))
  | tooLarge (size : Nat) (hsize : limits.maxBytes < size) :
      HeaderOver limits (.error (.request (.tooLarge size limits.maxBytes)))
  | tooManyFields : HeaderOver limits (.error (.request (.tooManyFields limits.maxFields)))

/-- So many reads bring bytes, one after the other. -/
def BringsBytes (read : σ → Option (Except ConnectionError Bytes) × σ) : Nat → σ → Prop
  | 0, _ => True
  | n + 1, s => ∃ data later, read s = (some (.ok data), later) ∧ BringsBytes read n later

variable {read : σ → Option (Except ConnectionError Bytes) × σ} {reader : HeaderReader} {s : σ}

/-- A piece that is refused ends the header phase. -/
theorem headerOver_of_refused {next : HeaderReader} {data : Bytes} {rounds : Nat} {e : ParseError}
    (h : reader.Feeding data rounds (next, .error e)) :
    HeaderOver reader.limits (.error (.request e)) := by
  cases h with
  | tooLarge _ hsize => exact .tooLarge _ hsize
  | rounds _ _ hrounds =>
      rcases hrounds.fault rfl with hfault | rfl
      · exact .malformed e hfault
      · exact .tooManyFields

namespace HeaderLoop

variable {reads rounds : Nat} {result : Option (Except HttpError HeaderReader) × σ}

/-- There is at least one read. -/
theorem reads_pos (h : HeaderLoop read reader s reads rounds result) : 0 < reads := by
  cases h with
  | hung | failed | refused | complete => exact Nat.one_pos
  | more => exact Nat.succ_pos _

/-- **As long as reads bring bytes**, it is the header or one of its limits that ends the loop. -/
theorem headerOver {n : Nat} (h : HeaderLoop read reader s reads rounds result)
    (hreads : reads ≤ n + 1) (hbrings : BringsBytes read (n + 1) s) :
    ∃ answer, result.1 = some answer ∧ HeaderOver reader.limits answer := by
  induction h generalizing n with
  | hung hread | failed hread =>
      obtain ⟨data, mid, hdata, -⟩ := hbrings
      cases hread.symm.trans hdata
  | refused _ hfeed => exact ⟨_, rfl, headerOver_of_refused hfeed⟩
  | complete _ hfeed => exact ⟨_, rfl, .complete _ hfeed.isFinished_of_finished⟩
  | more hread hfeed hrest ih =>
      have hpos := hrest.reads_pos
      obtain ⟨left, rfl⟩ : ∃ left, n = left + 1 := ⟨n - 1, by omega⟩
      obtain ⟨data, later, hdata, hlater⟩ := hbrings
      cases hread.symm.trans hdata
      rw [← hfeed.of_needMoreData.1]
      exact ih (Nat.le_of_succ_le_succ hreads) hlater

/-- **Reads and rounds are paid for with bytes** that the limit still allows. -/
theorem count_le (hsome : ∀ s later, read s ≠ (some (.ok []), later))
    (h : HeaderLoop read reader s reads rounds result)
    (hfits : reader.given ≤ reader.limits.maxBytes) :
    reads + reader.given ≤ reader.limits.maxBytes + 1 ∧
      rounds + 2 * reader.given ≤ 2 * reader.limits.maxBytes + reader.buffer.length := by
  have hne {s later : σ} {data : Bytes} (hread : read s = (some (.ok data), later)) :
      data ≠ [] := by
    rintro rfl
    exact hsome s later hread
  induction h with
  | hung | failed => omega
  | refused hread hfeed => exact ⟨by omega, hfeed.count_add_le (hne hread) hfits⟩
  | complete hread hfeed => exact ⟨by omega, hfeed.count_add_le (hne hread) hfits⟩
  | more hread hfeed _ ih =>
      have hdata := List.length_pos_iff.2 (hne hread)
      obtain ⟨hlimits, hgiven, hroom, hcount⟩ := hfeed.of_needMoreData
      rw [hlimits, hgiven] at ih
      obtain ⟨hreads, hrounds⟩ := ih hroom
      omega

end HeaderLoop

/-- **The loop ends**, whatever the reads bring. -/
theorem exists_headerLoop (hsome : ∀ s later, read s ≠ (some (.ok []), later))
    (reader : HeaderReader) (s : σ) :
    ∃ reads rounds result, HeaderLoop read reader s reads rounds result := by
  -- On the bytes that the limit still allows, which each read that goes on makes fewer.
  induction hleft : reader.limits.maxBytes - reader.given using Nat.strongRecOn
    generalizing reader s with
  | ind left ih =>
      subst hleft
      rcases hread : read s with ⟨_ | failure | data, later⟩
      · exact ⟨1, 0, _, .hung hread⟩
      · exact ⟨1, 0, _, .failed hread⟩
      obtain ⟨rounds, hfeed⟩ := reader.exists_feeding data
      generalize reader.feed data = fed at hfeed
      obtain ⟨next, e | _ | _⟩ := fed
      · exact ⟨1, rounds, _, .refused hread hfeed⟩
      · have hdata : 0 < data.length :=
          List.length_pos_iff.2 fun hnil => hsome s later (hnil ▸ hread)
        obtain ⟨hlimits, hgiven, hroom, -⟩ := hfeed.of_needMoreData
        have hless : next.limits.maxBytes - next.given < reader.limits.maxBytes - reader.given := by
          rw [hlimits, hgiven]
          omega
        obtain ⟨reads, after, result, hrest⟩ := ih _ hless next later rfl
        exact ⟨reads + 1, rounds + after, result, .more hread hfeed hrest⟩
      · exact ⟨1, rounds, _, .complete hread hfeed⟩

/-- **One read more than the limit has bytes** is enough, whatever the reads bring. -/
theorem exists_end (hsome : ∀ s later, read s ≠ (some (.ok []), later)) (limits : HeaderLimits)
    (s : σ) : ∃ reads ≤ limits.maxBytes + 1, ∃ rounds ≤ 2 * limits.maxBytes, ∃ result,
      HeaderLoop read { limits } s reads rounds result ∧
        (BringsBytes read (limits.maxBytes + 1) s →
          ∃ answer, result.1 = some answer ∧ HeaderOver limits answer) := by
  obtain ⟨reads, rounds, result, hloop⟩ := exists_headerLoop hsome { limits } s
  obtain ⟨hreads, hrounds⟩ := hloop.count_le hsome (Nat.zero_le _)
  exact ⟨reads, hreads, rounds, hrounds, result, hloop, hloop.headerOver hreads⟩

end Loop

/-! ## Pieces without end -/

/-- Reads that bring these pieces, one after the other and without end; the state is how many of
them were brought. -/
def pieceByPiece (pieces : Nat → Bytes) (n : Nat) : Option (Except ConnectionError Bytes) × Nat :=
  (some (.ok (pieces n)), n + 1)

/-- Pieces are counted by the reads. -/
theorem HeaderLoop.brought_eq {pieces : Nat → Bytes} {reader : HeaderReader} {n reads rounds : Nat}
    {result : Option (Except HttpError HeaderReader) × Nat}
    (h : HeaderLoop (pieceByPiece pieces) reader n reads rounds result) : result.2 = n + reads := by
  induction h with
  | hung hread | failed hread => cases hread
  | refused hread | complete hread =>
      cases hread
      rfl
  | more hread _ _ ih =>
      cases hread
      omega

/-- Pieces can always be had. -/
theorem bringsBytes_pieceByPiece (pieces : Nat → Bytes) (count n : Nat) :
    BringsBytes (pieceByPiece pieces) count n := by
  induction count generalizing n with
  | zero => trivial
  | succ count ih => exact ⟨pieces n, n + 1, rfl, ih (n + 1)⟩

theorem exists_end_of_pieces (limits : HeaderLimits) {pieces : Nat → Bytes}
    (hsome : ∀ n, pieces n ≠ []) :
    ∃ reads ≤ limits.maxBytes + 1, ∃ rounds ≤ 2 * limits.maxBytes, ∃ answer,
      HeaderLoop (pieceByPiece pieces) { limits } 0 reads rounds (some answer, reads) ∧
        HeaderOver limits answer := by
  have hread (n later : Nat) : pieceByPiece pieces n ≠ (some (.ok []), later) := fun h =>
    hsome n (Except.ok.inj (Option.some.inj (congrArg Prod.fst h)))
  obtain ⟨reads, hreads, rounds, hrounds, ⟨outcome, later⟩, hloop, hover⟩ :=
    exists_end hread limits 0
  obtain ⟨answer, hanswer, hend⟩ := hover (bringsBytes_pieceByPiece pieces _ 0)
  have hbrought : later = reads := hloop.brought_eq.trans (Nat.zero_add reads)
  dsimp only at hanswer
  subst hanswer hbrought
  exact ⟨later, hreads, rounds, hrounds, answer, hloop, hend⟩

/-- The letter x, again and again, one at a time: the start of a method that never ends. -/
def dripping (_ : Nat) : Bytes := [0x78]

/-- A reader that was given so many letters and waits for the end of the method. -/
def drippedOn (limits : HeaderLimits) (count : Nat) : HeaderReader :=
  { limits, buffer := List.replicate count 0x78 }

/-- One byte is given with each read. -/
theorem given_drippedOn (limits : HeaderLimits) (count : Nat) :
    (drippedOn limits count).given = count := by
  rw [given, drippedOn, List.length_replicate, Nat.zero_add]

/-- Below the limit the reader asks for more. -/
theorem feeding_drippedOn {limits : HeaderLimits} {count : Nat} (hroom : count < limits.maxBytes) :
    (drippedOn limits count).Feeding [0x78] 1
      (drippedOn limits (count + 1), .ok .needMoreData) := by
  have hmore : (drippedOn limits count).extend [0x78] = drippedOn limits (count + 1) := by
    rw [drippedOn, drippedOn, List.replicate_succ', HeaderReader.extend]
  refine .rounds rfl ?_ ?_
  · rw [given_drippedOn]
    exact hroom
  · rw [hmore]
    refine .last (advance_of_cut_eq_none (by simp [drippedOn]) (cutAt?_eq_none_of_forall ?_))
    intro b hb
    rw [List.eq_of_mem_replicate hb]
    rfl

/-- At the limit it refuses the next byte. -/
theorem feeding_drippedOn_full (limits : HeaderLimits) :
    (drippedOn limits limits.maxBytes).Feeding [0x78] 0 (drippedOn limits limits.maxBytes,
      .error (.tooLarge (limits.maxBytes + 1) limits.maxBytes)) := by
  have hgiven := given_drippedOn limits limits.maxBytes
  have hfeed : (drippedOn limits limits.maxBytes).Feeding [0x78] 0 _ := .tooLarge rfl <| by
    rw [hgiven]
    exact Nat.lt_succ_self _
  rwa [hgiven] at hfeed

/-- **The bound on the reads is attained**, under all limits: letters that come one at a time are
read until the limit refuses one. -/
theorem headerLoop_dripping (limits : HeaderLimits) :
    HeaderLoop (pieceByPiece dripping) { limits } 0 (limits.maxBytes + 1) limits.maxBytes
      (some (.error (.request (.tooLarge (limits.maxBytes + 1) limits.maxBytes))),
        limits.maxBytes + 1) := by
  -- On the number of letters that the limit still allows.
  have hgoes (left count : Nat) (hleft : count + left = limits.maxBytes) :
      HeaderLoop (pieceByPiece dripping) (drippedOn limits count) count (left + 1) left
        (some (.error (.request (.tooLarge (limits.maxBytes + 1) limits.maxBytes))),
          limits.maxBytes + 1) := by
    induction left generalizing count with
    | zero =>
        obtain rfl : count = limits.maxBytes := hleft
        exact .refused rfl (feeding_drippedOn_full limits)
    | succ left ih =>
        have hrest := ih (count + 1) (by omega)
        have hloop : HeaderLoop (pieceByPiece dripping) (drippedOn limits count) count
            (left + 1 + 1) (1 + left) _ := .more rfl (feeding_drippedOn (by omega)) hrest
        rwa [Nat.add_comm 1 left] at hloop
  exact hgoes limits.maxBytes 0 (Nat.zero_add _)

/-! ## On a connection -/

namespace Serving

variable {ν : Type}

/-- **Reading a header on a connection** is the loop, if it may make as many reads. -/
theorem exec_readHeaderWithin_of_headerLoop {reader : HeaderReader} {e : Exchange ν}
    {reads rounds allowed : Nat} {result : Option (Except HttpError HeaderReader) × Exchange ν}
    (h : HeaderLoop (exec read.run) reader e reads rounds result) (hallowed : reads ≤ allowed + 1) :
    exec (readHeaderWithin (allowed + 1) reader).run e = result := by
  induction h generalizing allowed with
  | hung hread | failed hread => rw [exec_readHeaderWithin_succ, hread]
  | refused hread hfeed | complete hread hfeed =>
      rw [exec_readHeaderWithin_succ, hread]
      dsimp only
      rw [← hfeed.eq_feed]
  | more hread hfeed hrest ih =>
      rw [exec_readHeaderWithin_succ, hread]
      dsimp only
      rw [← hfeed.eq_feed]
      have hpos := hrest.reads_pos
      obtain ⟨left, rfl⟩ : ∃ left, allowed = left + 1 := ⟨allowed - 1, by omega⟩
      exact ih (Nat.le_of_succ_le_succ hallowed)

/-- Reading a header on a connection comes to the end that the loop has, with the reads that it may
make. -/
theorem exists_end_of_readHeader (e : Exchange ν) :
    ∃ reads ≤ e.settings.limits.maxBytes + 1, ∃ rounds ≤ 2 * e.settings.limits.maxBytes,
      HeaderLoop (exec read.run) { limits := e.settings.limits } e reads rounds
          (exec readHeader.run e) ∧
        (BringsBytes (exec read.run) (e.settings.limits.maxBytes + 1) e →
          ∃ answer, (exec readHeader.run e).1 = some answer ∧
            HeaderOver e.settings.limits answer) := by
  have hread (e later : Exchange ν) : exec read.run e ≠ (some (.ok []), later) := fun h =>
    ne_nil_of_exec_read h rfl
  obtain ⟨reads, hreads, rounds, hrounds, result, hloop, hover⟩ :=
    exists_end hread e.settings.limits e
  have hexec : exec readHeader.run e = result := by
    rw [readHeader, exec_ebind, exec_eget]
    exact exec_readHeaderWithin_of_headerLoop hloop hreads
  rw [hexec]
  exact ⟨reads, hreads, rounds, hrounds, hloop, hover⟩

/-- **Nobody keeps a server in the header phase.** Under all limits and for every sequence of reads,
whatever they bring as long as it is not nothing: after at most one read more than the limit has
bytes, and at most twice as many rounds of the reader as it has bytes, the header is complete, or
malformed, or beyond one of the limits. Reading a header on a connection is this loop, and it ends
so if as many reads bring bytes there. Between the reads, a reader in whatever state that is given
bytes makes at most one round more than it has bytes then, for a round either gives the answer or
takes bytes from the front of the buffer. -/
theorem header_phase_ends (limits : HeaderLimits) (pieces : Nat → Bytes)
    (hsome : ∀ n, pieces n ≠ []) :
    (∃ reads ≤ limits.maxBytes + 1, ∃ rounds ≤ 2 * limits.maxBytes, ∃ answer,
      HeaderLoop (pieceByPiece pieces) { limits } 0 reads rounds (some answer, reads) ∧
        HeaderOver limits answer) ∧
    (∀ e : Exchange ν, ∃ reads ≤ e.settings.limits.maxBytes + 1,
      ∃ rounds ≤ 2 * e.settings.limits.maxBytes,
        HeaderLoop (exec read.run) { limits := e.settings.limits } e reads rounds
            (exec readHeader.run e) ∧
          (BringsBytes (exec read.run) (e.settings.limits.maxBytes + 1) e →
            ∃ answer, (exec readHeader.run e).1 = some answer ∧
              HeaderOver e.settings.limits answer)) ∧
    (∀ (reader : HeaderReader) (data : Bytes), ∃ rounds ≤ reader.buffer.length + data.length + 1,
      reader.Feeding data rounds (reader.feed data)) ∧
    ∀ reader : HeaderReader, (∃ final answer, reader.advance = .stop final answer) ∨
      ∃ next taken, reader.advance = .next next ∧ taken ≠ [] ∧
        reader.buffer = taken ++ next.buffer := by
  refine ⟨exists_end_of_pieces limits hsome, exists_end_of_readHeader, fun reader data => ?_,
    fun reader => ?_⟩
  · obtain ⟨rounds, hfeed⟩ := reader.exists_feeding data
    exact ⟨rounds, hfeed.count_le, hfeed⟩
  · cases hround : reader.advance with
    | stop final answer => exact .inl ⟨final, answer, rfl⟩
    | next next =>
        obtain ⟨taken, htaken, hbuffer⟩ := taken_of_next hround
        exact .inr ⟨next, taken, rfl, htaken, hbuffer⟩

/-- A limit of three bytes. -/
def threeBytes : HeaderLimits := { maxBytes := 3 }

/-- A connection on which four letters come one at a time, under a limit of three bytes. -/
def drippingExchange : Exchange Unit :=
  Exchange.accept { sessions := { mint := fun _ => "" } } { limits := threeBytes } none
    { script := List.replicate 4 (.bytes [0x78]) } {} []

/-- The fourth letter is refused, and no fifth is waited for. -/
theorem header_phase_ends_dripping :
    (∀ n, dripping n ≠ []) ∧ BringsBytes (exec read.run) 4 drippingExchange ∧
      (∃ reads ≤ 4, ∃ rounds ≤ 6, ∃ answer,
        HeaderLoop (pieceByPiece dripping) { limits := threeBytes } 0 reads rounds
            (some answer, reads) ∧
          HeaderOver threeBytes answer) ∧
      HeaderLoop (pieceByPiece dripping) { limits := threeBytes } 0 4 3
        (some (.error (.request (.tooLarge 4 3))), 4) ∧
      ∃ answer, (exec readHeader.run drippingExchange).1 = some answer ∧
        HeaderOver threeBytes answer := by
  have hsome (n : Nat) : dripping n ≠ [] := List.cons_ne_nil _ _
  have hbrings : BringsBytes (exec read.run) 4 drippingExchange :=
    ⟨[0x78], _, rfl, [0x78], _, rfl, [0x78], _, rfl, [0x78], _, rfl, trivial⟩
  obtain ⟨hpieces, hconnection, -, -⟩ := header_phase_ends (ν := Unit) threeBytes dripping hsome
  obtain ⟨-, -, -, -, -, hover⟩ := hconnection drippingExchange
  exact ⟨hsome, hbrings, hpieces, headerLoop_dripping threeBytes, hover hbrings⟩

end Serving

end HttpServer
