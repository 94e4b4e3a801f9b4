import HttpServer.Proofs.Exchange.Evolution

/-!
# What sending does to an exchange

A write either finds the connection stopped, or appends as many bytes as the peer takes and goes on,
fails or stalls (`Serving.Transmits`). All ways to answer are made of writes, so they leave alone
what is no part of the response (`Serving.moves_respond`).
-/

namespace HttpServer

namespace Exchange

variable {ν : Type}

/-- Bytes are written as far as the peer takes them. -/
def deliver (e : Exchange ν) (data : Bytes) : Exchange ν :=
  { e with outgoing := (e.outgoing.write data).1 }

/-- The peer is sent as long a front of the bytes as it has room for. -/
theorem written_deliver (e : Exchange ν) (data : Bytes) :
    (e.deliver data).outgoing.written = e.outgoing.written ++ data.take (e.outgoing.room data) :=
  rfl

/-- Bytes can only be written while the connection runs. -/
theorem sends_deliver {e : Exchange ν} (hrunning : e.isStopped = false) (data : Bytes) :
    e.Sends (e.deliver data) := by
  refine ⟨⟨rfl, rfl, rfl, List.prefix_append _ _, id, .refl _, .refl _, ?_⟩, rfl, rfl, rfl, rfl⟩
  intro hstopped
  rw [hrunning] at hstopped
  cases hstopped

/-- The header can be changed at any time: nothing of it is on the wire yet. -/
theorem sends_changeHeader (e : Exchange ν) (change : ResponseHeader → ResponseHeader) :
    e.Sends (e.changeHeader change) :=
  ⟨⟨rfl, rfl, rfl, List.prefix_rfl, id, .refl _, .refl _, fun _ => rfl⟩, rfl, rfl, rfl, rfl⟩

/-- Shutting the stream down writes nothing and takes nothing back. -/
theorem sends_shutDown (e : Exchange ν) : e.Sends e.shutDown := by
  unfold shutDown
  split
  · exact Std.Refl.refl e
  · exact ⟨⟨rfl, rfl, rfl, List.prefix_rfl, id, .refl _, .refl _, fun _ => rfl⟩, rfl, rfl, rfl, rfl⟩

/-- Marking the header as sent concludes the response and does nothing else. -/
theorem sends_markHeaderSent (e : Exchange ν) : e.Sends e.markHeaderSent :=
  ⟨⟨rfl, rfl, rfl, List.prefix_rfl, fun _ => rfl, e.registry.ages_conclude e.connection, .refl _,
    fun _ => rfl⟩, rfl, rfl, rfl, rfl⟩

end Exchange

namespace Serving

variable {ν α ε : Type}

open Exchange

/-- To wait is a way of sending: nothing is changed that sending may not change. -/
theorem Moves.sends {c : Serving ν α} (h : Moves Waits c) : Moves Sends c :=
  h.mono fun _ _ => Waits.toSends

/-- **What a write can do** once it has begun. -/
inductive Transmits (e : Exchange ν) (data : Bytes) :
    Option (Except ConnectionError Unit) × Exchange ν → Prop
  | stopped (hstopped : e.isStopped = true) : Transmits e data (some (.error .aborted), e)
  | done (hrunning : e.isStopped = false) (hall : data.length ≤ e.outgoing.room data) :
      Transmits e data (some (.ok ()), e.deliver data)
  | fails (hrunning : e.isStopped = false) (failure : ConnectionError) :
      Transmits e data (some (.error failure), e.deliver data)
  | stalls {result : Option (Except ConnectionError Unit)} {later : Exchange ν}
      (hrunning : e.isStopped = false) (hresult : result ≠ some (.ok ()))
      (hwaits : (e.deliver data).Waits later) : Transmits e data (result, later)

/-- What ends in a failure is no success, whatever went before. -/
theorem not_ok_of_bind_throw {β : Type} (x : ExceptT ε (Serving ν) β) (failure : ε)
    (e : Exchange ν) :
    (exec (x >>= fun _ => (throw failure : ExceptT ε (Serving ν) Unit)).run e).1 ≠
      some (.ok ()) := by
  rw [exec_ebind]
  rcases exec x.run e with ⟨_ | _ | _, later⟩
  · nofun
  · nofun
  · nofun

/-- **A write ends in one of the four ways**, judged as other tasks have left the connection when it
begins. -/
theorem transmits (data : Bytes) (e : Exchange ν) :
    Transmits e.checkpoint data (exec (transmit data).run e) := by
  rw [transmit, exec_ebind, exec_emodify]
  dsimp only
  generalize e.checkpoint = e
  rw [exec_ebind, exec_eget]
  dsimp only
  by_cases hstopped : e.isStopped = true
  · simp only [hstopped, ↓reduceIte]
    exact .stopped hstopped
  · have hrunning : e.isStopped = false := by simpa using hstopped
    simp only [hstopped, Bool.false_eq_true, ↓reduceIte]
    rw [exec_ebind]
    change Transmits e data (exec (ExceptT.run _) (e.deliver data))
    cases hrefusal : (e.outgoing.write data).2 with
    | none =>
        have hall : data.length ≤ e.outgoing.room data := by
          simp only [Outgoing.write] at hrefusal
          split at hrefusal
          · cases hrefusal
          · omega
        cases hflush : (e.outgoing.write data).1.flushFailure with
        | none => exact .done hrunning hall
        | some failure => exact .fails hrunning _
    | some refusal =>
        cases refusal with
        | failure failure => exact .fails hrunning _
        | silence =>
            have hwaits : Moves Waits (do
                liftM awaitStop
                throw .aborted : ExceptT ConnectionError (Serving ν) Unit).run :=
              moves_ebind (moves_liftM moves_awaitStop) fun _ => moves_throw _
            exact .stalls hrunning (not_ok_of_bind_throw _ _ _) (hwaits _)

/-- Whatever becomes of a write, nothing is changed that is no part of the response. -/
theorem moves_transmit (data : Bytes) :
    Moves Sends (transmit data : ExceptT ConnectionError (Serving ν) Unit).run := by
  intro e
  refine IsTrans.trans _ _ _ e.waits_checkpoint.toSends ?_
  have htransmits := transmits data e
  generalize exec (transmit data).run e = outcome at htransmits
  cases htransmits with
  | stopped _ => exact Std.Refl.refl _
  | done hrunning _ => exact sends_deliver hrunning data
  | fails hrunning failure => exact sends_deliver hrunning data
  | stalls hrunning _ hwaits =>
      exact IsTrans.trans _ _ _ (sends_deliver hrunning data) hwaits.toSends

/-- A write leaves the response as it is. -/
theorem response_transmit (data : Bytes) (e : Exchange ν) :
    (exec (transmit data).run e).2.response = e.response := by
  rw [← e.waits_checkpoint.response]
  have htransmits := transmits data e
  generalize exec (transmit data).run e = outcome at htransmits
  cases htransmits with
  | stopped _ => rfl
  | done _ _ => rfl
  | fails _ failure => rfl
  | stalls _ _ hwaits => exact hwaits.response

theorem moves_changeHeader (change : ResponseHeader → ResponseHeader) :
    Moves Sends (modify fun e => e.changeHeader change :
      ExceptT ε (Serving ν) Unit).run :=
  moves_emodify fun e => e.sends_changeHeader change

/-- The interim line is at most one write. -/
theorem moves_sendContinue :
    Moves Sends (sendContinue : ExceptT SendError (Serving ν) Unit).run := by
  refine moves_ebind moves_eget fun e => ?_
  dsimp only
  split
  · exact moves_adapt (moves_transmit _)
  · exact moves_epure _

/-- Sending the header is at most a mark and one write. -/
theorem moves_sendHeader : Moves Sends (sendHeader : ExceptT SendError (Serving ν) Unit).run := by
  refine moves_ebind moves_eget fun e => ?_
  dsimp only
  split
  · split
    · exact moves_throw _
    · exact moves_ebind (moves_emodify sends_markHeaderSent) fun _ => moves_adapt (moves_transmit _)
  · exact moves_epure _

/-- A header is the same after it was sent. -/
theorem header_sendHeader (e : Exchange ν) :
    (exec sendHeader.run e).2.response.header = e.response.header := by
  rw [sendHeader, exec_ebind, exec_eget]
  dsimp only
  split
  · split
    · rfl
    · rw [exec_ebind, exec_emodify]
      dsimp only
      rw [exec_adapt]
      dsimp only
      rw [response_transmit]
      rfl
  · rfl

/-- Finishing sends a header, shuts the stream down and takes the connection out of the registry. -/
theorem moves_finish : Moves Sends (finish : ExceptT SendError (Serving ν) Unit).run := by
  refine moves_ebind (moves_emodify fun e => ?_) fun _ => ?_
  · split
    · exact Std.Refl.refl e
    · exact e.sends_changeHeader _
  refine moves_ebind (moves_lift moves_sendHeader) fun sent => ?_
  refine moves_ebind (moves_emodify fun e => ?_) fun _ => ?_
  · exact IsTrans.trans _ _ _ e.sends_shutDown (waits_unregister _).toSends
  · exact moves_pure sent

/-- The end of every response: a body, if it has any bytes, and finishing. -/
theorem moves_body (body : Bytes) :
    Moves Sends (do if body ≠ [] then (transmit body).adapt .connection
                    finish : ExceptT SendError (Serving ν) Unit).run := by
  split
  · exact moves_ebind (moves_adapt (moves_transmit _)) fun _ => moves_finish
  · exact moves_finish

/-- A whole body is sent by announcing it, sending the header and writing it. -/
theorem moves_sendBody (mediaType : String) (body : Bytes) :
    Moves Sends (sendBody mediaType body : ExceptT SendError (Serving ν) Unit).run := by
  refine moves_ebind (moves_changeHeader _) fun _ => ?_
  exact moves_ebind moves_sendHeader fun _ => moves_body body

/-- Reading a source of bytes takes time, in which other tasks act. -/
theorem moves_readSource (size rounds : Nat) (source : Incoming) :
    Moves Waits (readSource size rounds source : ExceptT IoError (Serving ν) _).run := by
  induction rounds generalizing source with
  | zero => exact moves_never
  | succ rounds ih =>
      refine moves_ebind moves_eget fun e => ?_
      split
      · exact moves_epure _
      · exact moves_throw _
      · exact moves_ebind (moves_liftM (moves_sleepUntil _)) fun _ => ih _
      · exact moves_never

/-- Copying a source is a sequence of reads and writes. -/
theorem moves_copySource (pieces : Nat) (source : Incoming) :
    Moves Sends (copySource pieces source : ExceptT SendError (Serving ν) Unit).run := by
  induction pieces generalizing source with
  | zero => exact moves_never.sends
  | succ pieces ih =>
      refine moves_ebind moves_eget fun e => ?_
      refine moves_ebind (moves_adapt (moves_readSource _ _ _).sends) fun found => ?_
      dsimp only
      split
      · exact moves_ebind (moves_adapt (moves_transmit _)) fun _ => ih _
      · exact moves_epure _

/-- A source is sent by announcing its length, sending the header and copying it. -/
theorem moves_sendReader (source : Incoming) (length : Nat) :
    Moves Sends (sendReader source length : ExceptT SendError (Serving ν) Unit).run := by
  refine moves_ebind (moves_changeHeader _) fun _ => ?_
  refine moves_ebind moves_sendHeader fun _ => ?_
  exact moves_ebind (moves_copySource _ _) fun _ => moves_finish

/-- A file is sent like any other source, and where there is none nothing is done. -/
theorem moves_sendFile (path : String) :
    Moves Sends (sendFile path : ExceptT SendError (Serving ν) Bool).run := by
  refine moves_ebind moves_eget fun e => ?_
  split
  · refine moves_ebind (moves_changeHeader _) fun _ => ?_
    exact moves_ebind (moves_sendReader _ _) fun _ => moves_epure _
  · exact moves_epure _

/-- A status is sent as a header without a body or with a body of its own. -/
theorem moves_sendStatus (code : Nat) :
    Moves Sends (sendStatus code : ExceptT SendError (Serving ν) Unit).run := by
  refine moves_ebind (moves_changeHeader _) fun _ => ?_
  split
  · exact moves_finish
  · exact moves_sendBody _ _

/-- Every way to answer leaves alone what is no part of the response. -/
theorem moves_respond (call : ResponseCall) :
    Moves Sends (respond call : ExceptT SendError (Serving ν) Unit).run := by
  cases call with
  | interim => exact moves_sendContinue
  | header => exact moves_sendHeader
  | text body => exact moves_sendBody _ _
  | bytes body => exact moves_sendBody _ _
  | reader source length => exact moves_sendReader source length
  | status code => exact moves_sendStatus code
  | redirect url code => exact moves_ebind (moves_changeHeader _) fun _ => moves_finish
  | finish => exact moves_finish

end Serving

end HttpServer
