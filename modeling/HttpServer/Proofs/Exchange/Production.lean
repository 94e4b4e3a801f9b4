import HttpServer.Proofs.Exchange.Performing
import HttpServer.Proofs.Exchange.Wire
import HttpServer.Proofs.Stream.Contract
import HttpServer.Proofs.Stream.Segments

/-!
# Production while a stream is sent

Whoever answers the writer of a stream (`Serving.Respondent`) may have bytes for it at any time or
none, may be complete at any time or never, and may find the connection alive or not; all that is
asked of it is that writes are those of the exchange and nothing else touches the wire
(`Serving.Answers`). The producer of an exchange is one such respondent (`Serving.sendStream_eq`).
In every way in which sending the stream ends, the contract with the respondent is kept
(`Serving.production_contract`).
-/

namespace HttpServer

namespace Exchange

variable {ν : Type}

/-- The header announces a stream, and the producer wakes its writer. -/
def announceStream (e : Exchange ν) : Exchange ν :=
  (e.changeHeader fun h => h.announceChunks e.source.queue.encoding).connectStream

end Exchange

namespace Serving

open Exchange Transcript

variable {ν : Type}

/-- Someone who answers the calls of a writer. -/
abbrev Respondent (ν : Type) := (call : WriterCall) → Serving ν call.Reply

/-- **What a respondent has to do**: writes are those of the exchange, and whatever else is asked,
whatever the answer and whether or not there is one, leaves the wire and the response as they
are. -/
structure Answers (respondent : Respondent ν) : Prop where
  write : ∀ bytes, respondent (.write bytes) = (transmit bytes).run
  waits : ∀ call, (∀ bytes, call ≠ .write bytes) → Moves Waits (respondent call)

/-- The producer of an exchange is a respondent. -/
theorem answers_answer : Answers (answer : Respondent ν) :=
  ⟨fun _ => rfl, fun _ => moves_answer_of_not_write⟩

/-- Runs a writer that a respondent answers. -/
def runWriterWith (respondent : Respondent ν) :
    Nat → Writer → Serving ν (Except ConnectionError Unit)
  | 0, _ => never
  | calls + 1, writer =>
    match writer.call with
    | none => pure writer.result
    | some call => do
      let reply ← respondent call
      runWriterWith respondent calls (writer.resume call reply)

/-- Ends production where the header could not be sent. -/
def refuse (respondent : Respondent ν) (e : SendError) : Serving ν Unit :=
  respondent (.endProduction (some e.toIoError))

/-- Sends the header of a stream and the stream that a respondent feeds, and finishes. -/
def sendStreamWith (respondent : Respondent ν) (calls : Nat) :
    ExceptT SendError (Serving ν) Unit := do
  modify announceStream
  match ← ExceptT.lift sendHeader.run with
  | .error e =>
    ExceptT.lift (refuse respondent e)
    throw e
  | .ok () =>
    (ExceptT.mk (runWriterWith respondent calls {})).adapt .connection
    finish

/-- Running the writer of an exchange is running one that its producer answers. -/
theorem runWriter_eq (calls : Nat) (w : Writer) :
    (runWriter calls w : Serving ν (Except ConnectionError Unit)) =
      runWriterWith answer calls w := by
  induction calls generalizing w with
  | zero => rfl
  | succ calls ih =>
      rw [runWriter, runWriterWith]
      cases w.call with
      | none => rfl
      | some call => exact congrArg (answer call >>= ·) (funext fun reply => ih _)

/-- The producer of an exchange is one of those who can answer. -/
theorem sendStream_eq (calls : Nat) :
    (sendStream calls : ExceptT SendError (Serving ν) Unit) = sendStreamWith answer calls := by
  rw [sendStream, sendStreamWith, runWriter_eq]
  rfl

/-- What a writer and its respondent say to each other when the writer is run. -/
def dialogue (respondent : Respondent ν) : Nat → Writer → Exchange ν → Transcript
  | 0, _, _ => []
  | calls + 1, w, e =>
    match w.call with
    | none => []
    | some call =>
      match exec (respondent call) e with
      | (some reply, later) =>
        ⟨call, reply, later.outgoing.written.drop e.outgoing.written.length⟩ ::
          dialogue respondent calls (w.resume call reply) later
      | (none, _) => []

/-- What is said while a stream is sent. Where the header cannot be sent, that is all the respondent
hears. -/
def production (respondent : Respondent ν) (calls : Nat) (e : Exchange ν) : Transcript :=
  match exec sendHeader.run e.announceStream with
  | (some (.ok ()), sent) => dialogue respondent calls {} sent
  | (some (.error failure), _) => [⟨.endProduction (some failure.toIoError), (), []⟩]
  | (none, _) => []

variable {respondent : Respondent ν}

/-- What a respondent does changes only what sending may change. -/
theorem Answers.sends (h : Answers respondent) (call : WriterCall) :
    Moves Sends (respondent call) := by
  cases call with
  | write bytes =>
      rw [h.write]
      exact moves_transmit bytes
  | _ => exact Moves.sends (h.waits _ fun _ hno => by cases hno)

/-- The loop that a respondent answers changes only what sending may change, by induction on its
calls. -/
theorem Answers.sends_runWriterWith (h : Answers respondent) (calls : Nat) (w : Writer) :
    Moves Sends (runWriterWith respondent calls w) := by
  induction calls generalizing w with
  | zero => exact moves_never.sends
  | succ calls ih =>
      unfold runWriterWith
      split
      · exact moves_pure _
      · exact moves_bind (h.sends _) fun _ => ih _

/-- A write fits its answer: it puts all of its bytes on the wire if it succeeds, and a front of
them otherwise. -/
theorem fits_transmit {bytes : Bytes} {e later : Exchange ν} {reply : Except ConnectionError Unit}
    (hexec : exec (transmit bytes).run e = (some reply, later)) :
    ∃ put, later.outgoing.written = e.outgoing.written ++ put ∧
      (Answered.mk (.write bytes) reply put).Fits := by
  obtain ⟨put, hwritten, hprefix, hok, _⟩ := puts_transmit bytes e
  rw [hexec] at hwritten hok
  refine ⟨put, hwritten, ?_⟩
  cases reply with
  | ok _ => exact hok () rfl
  | error failure => exact hprefix

/-- What an answer puts on the wire agrees with it. -/
theorem Answers.fits (h : Answers respondent) {call : WriterCall} {e later : Exchange ν}
    {reply : call.Reply} (hexec : exec (respondent call) e = (some reply, later)) :
    ∃ put, later.outgoing.written = e.outgoing.written ++ put ∧
      (Answered.mk call reply put).Fits := by
  cases call with
  | write bytes =>
      rw [h.write] at hexec
      exact fits_transmit hexec
  | _ =>
      have hwaits := (h.waits _ fun _ hno => by cases hno).exec hexec
      refine ⟨[], ?_, rfl⟩
      rw [hwaits.outgoing, List.append_nil]

/-- **A whole run of a writer keeps the contract** that each call keeps. -/
theorem Answers.tells_dialogue (h : Answers respondent) {calls : Nat} {w : Writer}
    {log : Transcript} {e later : Exchange ν} {result : Except ConnectionError Unit}
    (htells : w.Tells log) (hmeasured : log.Measured)
    (hexec : exec (runWriterWith respondent calls w) e = (some result, later)) :
    Measured (log ++ dialogue respondent calls w e) ∧
      later.outgoing.written = e.outgoing.written ++ wire (dialogue respondent calls w e) ∧
      ∃ last : Writer, last.Tells (log ++ dialogue respondent calls w e) ∧ last.call = none ∧
        last.result = result := by
  induction calls generalizing w log e with
  | zero => exact absurd hexec not_exec_never
  | succ calls ih =>
      rw [runWriterWith] at hexec
      rw [dialogue]
      cases hcall : w.call with
      | none =>
          rw [hcall] at hexec
          cases hexec
          rw [List.append_nil]
          exact ⟨hmeasured, (List.append_nil _).symm, w, htells, hcall, rfl⟩
      | some call =>
          rw [hcall] at hexec
          dsimp only at hexec ⊢
          rw [exec_bind] at hexec
          rcases hanswer : exec (respondent call) e with ⟨_ | reply, mid⟩
          · rw [hanswer] at hexec
            cases hexec
          · rw [hanswer] at hexec
            obtain ⟨put, hwritten, hfits⟩ := h.fits hanswer
            have hput : mid.outgoing.written.drop e.outgoing.written.length = put := by
              rw [hwritten, List.drop_left]
            dsimp only
            rw [hput, List.append_cons]
            have hnext := w.tells_answered htells (a := ⟨call, reply, put⟩) hcall hfits
            have hkept := w.measured_answered hmeasured htells (a := ⟨call, reply, put⟩) hcall
            obtain ⟨hdone, hlater, hlast⟩ := ih hnext hkept hexec
            refine ⟨hdone, ?_, hlast⟩
            rw [hlater, hwritten, List.append_assoc]
            rfl

/-- How production ends with a result of sending. -/
def outcomeOf : Except SendError Unit → Option IoError
  | .ok () => none
  | .error e => some e.toIoError

/-- What stands behind the chunks in the end. -/
def closingOf : Except SendError Unit → List Bytes
  | .ok () => [lastChunk]
  | .error _ => []

/-- Once a writer is through, its result agrees with what it left behind. -/
theorem tally_of_through {w : Writer} {log : Transcript} (htells : w.Tells log)
    (hthrough : w.call = none) :
    ∃ write, Tally log [outcomeOf (w.result.mapError .connection)] (due write) write
        (closingOf (w.result.mapError .connection)) ∧
      ∀ failure ∈ write, w.result = .error failure.2 := by
  obtain ⟨stage, encoder⟩ := w
  cases stage <;> cases hthrough
  case finished => exact ⟨none, htells, nofun⟩
  case failed e =>
    obtain ⟨write, hcauses, htally⟩ := htells
    refine ⟨write, htally, ?_⟩
    rintro failure hfailure
    rcases hcauses with hsame | ⟨hnone, _⟩
    · cases hfailure
      cases hsame
      rfl
    · rw [hnone] at hfailure
      cases hfailure

/-- What a writer has done that was run until it was through. -/
theorem Answers.contract_of_run (h : Answers respondent) {calls : Nat} {e later : Exchange ν}
    {result : Except ConnectionError Unit}
    (hexec : exec (runWriterWith respondent calls {}) e = (some result, later)) :
    let log := dialogue respondent calls {} e
    log.Measured ∧
      (∃ write, Tally log [outcomeOf (result.mapError .connection)] (due write) write
          (closingOf (result.mapError .connection)) ∧
        ∀ failure ∈ write, result = .error failure.2) ∧
      later.outgoing.written = e.outgoing.written ++ log.wire := by
  obtain ⟨hmeasured, hwire, last, htells, hthrough, hresult⟩ :=
    h.tells_dialogue Writer.tells_nil measured_nil hexec
  have htally := tally_of_through htells hthrough
  rw [hresult, List.nil_append] at htally
  rw [List.nil_append] at hmeasured
  exact ⟨hmeasured, htally, hwire⟩

/-- **Sending a stream keeps the contract with whoever feeds it**, in every way in which it ends.
Production ends exactly once, and without a failure exactly if sending succeeds. A failed write is
reported exactly once if the connection was not stopped, and nothing else is. Bytes are consumed
only after the chunk of them was written and flushed, and never more than were available. What was
flushed is chunks that hold something, with the end of the body behind them exactly if sending
succeeds; this is all that is on the wire behind the header, but for a first part of the chunk or
end of which the write failed. -/
theorem production_contract (hanswers : Answers respondent) {calls : Nat} {e later : Exchange ν}
    {result : Except SendError Unit}
    (hexec : exec (sendStreamWith respondent calls).run e = (some result, later)) :
    let log := production respondent calls e
    log.Measured ∧
      (∃ write, Tally log [outcomeOf result] (due write) write (closingOf result) ∧
        ∀ failure ∈ write, result = .error (.connection failure.2)) ∧
      later.outgoing.written =
        (exec sendHeader.run e.announceStream).2.outgoing.written ++ log.wire := by
  rw [sendStreamWith, exec_ebind, exec_emodify] at hexec
  dsimp only at hexec
  rw [exec_ebind, exec_lift] at hexec
  rw [production]
  rcases hsend : exec sendHeader.run e.announceStream with ⟨_ | failure | _, sent⟩
  · rw [hsend] at hexec
    cases hexec
  · rw [hsend] at hexec
    dsimp only [Option.map] at hexec
    rw [exec_ebind, exec_lift] at hexec
    rcases hend : exec (refuse respondent failure) sent with ⟨_ | reply, mid⟩
    · rw [hend] at hexec
      cases hexec
    · rw [hend] at hexec
      cases hexec
      have hwaits := (hanswers.waits (.endProduction (some failure.toIoError)) nofun).exec hend
      refine ⟨measured_nil.concat nofun, ⟨none, Tally.nil.ended _ rfl, nofun⟩, ?_⟩
      rw [hwaits.outgoing]
      exact (List.append_nil _).symm
  · rw [hsend] at hexec
    dsimp only [Option.map] at hexec ⊢
    rw [exec_ebind, exec_adapt, ExceptT.run_mk] at hexec
    rcases hrun : exec (runWriterWith respondent calls {}) sent with ⟨_ | written, mid⟩
    · rw [hrun] at hexec
      cases hexec
    · obtain ⟨hmeasured, ⟨write, htally, hcause⟩, hwire⟩ := hanswers.contract_of_run hrun
      rw [hrun] at hexec
      cases written with
      | error failure =>
          cases hexec
          refine ⟨hmeasured, ⟨write, htally, fun other hother => ?_⟩, hwire⟩
          cases hcause other hother
          rfl
      | ok _ =>
          -- The header was sent, so there is nothing left that could fail.
          have hsent : mid.response.headerSent = true :=
            ((hanswers.sends_runWriterWith calls {}).exec hrun).headerSent
              (headerSent_of_sendHeader hsend)
          change exec finish.run mid = _ at hexec
          rw [exec_finish_of_headerSent hsent] at hexec
          cases hexec
          refine ⟨hmeasured, ⟨write, htally, fun other hother => ?_⟩, ?_⟩
          · cases hcause other hother
          · exact (outgoing_shutDown mid).trans hwire

deriving instance DecidableEq for Except

/-- An exchange whose producer is complete and still has some bytes, with a peer that takes what it
takes. -/
def streaming (outgoing : Outgoing) (buffer : Bytes) : Exchange Unit :=
  { (accept { sessions := { mint := fun _ => "" } } {} none {} outgoing [] : Exchange Unit) with
    stream := some {
      source := .plain { buffer, complete := true }
      notes := { ended := fun _ => (), writeFailed := fun _ => (), feedFailed := fun _ => () } } }

/-- One chunk and the end of the body go out behind the header, and production ends well. -/
theorem production_contract_hello :
    Answers (answer : Respondent Unit) ∧
      ∃ later, exec (sendStreamWith answer 20).run (streaming {} (Utf8.ofString "hello")) =
          (some (.ok ()), later) ∧
        ends (production answer 20 (streaming {} (Utf8.ofString "hello"))) = [none] ∧
        later.outgoing.written = Utf8.ofString
          "HTTP/1.1 200 OK\r\nTransfer-Encoding: chunked\r\n\r\n5\r\nhello\r\n0\r\n\r\n" := by
  have hfacts :
      (exec (sendStreamWith answer 20).run (streaming {} (Utf8.ofString "hello"))).1 =
        some (.ok ()) ∧
      (exec (sendStreamWith answer 20).run
        (streaming {} (Utf8.ofString "hello"))).2.outgoing.written = Utf8.ofString
          "HTTP/1.1 200 OK\r\nTransfer-Encoding: chunked\r\n\r\n5\r\nhello\r\n0\r\n\r\n" := by
    decide +kernel
  have hexec : exec (sendStreamWith answer 20).run (streaming {} (Utf8.ofString "hello")) =
      (some (.ok ()), _) := Prod.ext hfacts.1 rfl
  obtain ⟨_, ⟨_, htally, _⟩, _⟩ := production_contract answers_answer hexec
  exact ⟨answers_answer, _, hexec, htally.ends, hfacts.2⟩

theorem rest_gather_of_isChunked {body : Bytes} (h : IsChunked body) :
    (Chunk.gather body).rest = [] := by
  obtain ⟨pieces, hpieces, hbody⟩ := h
  rcases hbody with rfl | rfl
  · have hall := Chunk.gather_ofPieces_append hpieces []
    rw [List.append_nil, Chunk.gather_nil] at hall
    rw [hall]
  · have hlast := Chunk.gather_lastChunk_append []
    rw [List.append_nil] at hlast
    rw [Chunk.gather_ofPieces_append hpieces, hlast]

/-- **A stream can be cut on the wire.** The peer takes the first bytes of a chunk and no more, so
that what stands behind the header is no sequence of chunks. And where the end of the body is
written but cannot be flushed, it is on the wire although sending fails. -/
theorem cut_on_wire :
    (∃ later, exec (sendStream 20).run
          (streaming { limit := some 50 } (Utf8.ofString "hello")) =
        (some (.error (.connection (.io ⟨.brokenPipe, none⟩))), later) ∧
      later.outgoing.written = Utf8.ofString
        "HTTP/1.1 200 OK\r\nTransfer-Encoding: chunked\r\n\r\n" ++ Utf8.ofString "5\r\n" ∧
      ¬ IsChunked (Utf8.ofString "5\r\n")) ∧
    ∃ later, exec (sendStream 20).run
          { streaming { flushFailure := some ⟨.other, none⟩ } [] with
            response := { headerSent := true } } =
        (some (.error (.connection (.io ⟨.other, none⟩))), later) ∧
      later.outgoing.written = lastChunk := by
  have hfacts :
      (exec (sendStream 20).run (streaming { limit := some 50 } (Utf8.ofString "hello"))).1 =
        some (.error (.connection (.io ⟨.brokenPipe, none⟩))) ∧
      (exec (sendStream 20).run
        (streaming { limit := some 50 } (Utf8.ofString "hello"))).2.outgoing.written =
          Utf8.ofString "HTTP/1.1 200 OK\r\nTransfer-Encoding: chunked\r\n\r\n" ++
            Utf8.ofString "5\r\n" := by
    decide +kernel
  have hunflushed :
      (exec (sendStream 20).run
        { streaming { flushFailure := some ⟨.other, none⟩ } [] with
          response := { headerSent := true } }).1 =
        some (.error (.connection (.io ⟨.other, none⟩))) ∧
      (exec (sendStream 20).run
        { streaming { flushFailure := some ⟨.other, none⟩ } [] with
          response := { headerSent := true } }).2.outgoing.written = lastChunk := by
    decide +kernel
  refine ⟨⟨_, Prod.ext hfacts.1 rfl, hfacts.2, fun hchunked => ?_⟩,
    _, Prod.ext hunflushed.1 rfl, hunflushed.2⟩
  have hstuck : Chunk.next? (Utf8.ofString "5\r\n") = none := by decide +kernel
  have hrest := rest_gather_of_isChunked hchunked
  rw [Chunk.gather_of_next?_eq_none hstuck] at hrest
  exact absurd hrest (by decide +kernel)

end Serving

end HttpServer
