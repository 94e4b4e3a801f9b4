import HttpServer.Proofs.Exchange.Sending

/-!
# What programs do to an exchange

A body that is fed while it is sent, and a body that is read, are loops over writes, reads and
waits; an invariant of these steps is one of the loop. With that each operation takes an exchange to
one that it evolves into (`Serving.moves_perform`), and so does every program
(`Action.evolves_run`).
-/

namespace HttpServer

namespace Exchange

variable {ν : Type}

/-- A body that is opened for the writer is nothing that the peer sees. -/
theorem waits_openStream (e : Exchange ν) (body : ChunkedBody ν) : e.Waits (e.openStream body) := by
  have hopened (stream : BodyStream ν) : e.Waits { e with stream := some stream } :=
    waits_of_ages rfl rfl (.refl _) rfl rfl rfl rfl rfl rfl
  exact (hopened _).trans (waits_foldl waits_feed body.before _)

theorem waits_closeStream (e : Exchange ν) : e.Waits e.closeStream :=
  waits_of_ages rfl rfl (.refl _) rfl rfl rfl rfl rfl rfl

/-- What is still to be received is no part of the response. -/
theorem withholds_incoming (e : Exchange ν) (incoming : Incoming) :
    e.Withholds { e with incoming } :=
  withholds_of_ages rfl rfl rfl (.refl _) rfl rfl

/-- A change of the request that keeps the received header sends nothing. -/
theorem withholds_changeRequest (e : Exchange ν) {change : Request → Request}
    (h : ∀ request, (change request).header = request.header) :
    e.Withholds (e.changeRequest change) := by
  refine withholds_of_ages rfl rfl ?_ (.refl _) rfl rfl
  rw [changeRequest, Option.map_map]
  exact congrArg (fun f => e.request.map f) (funext h)

theorem waits_markTimedOut (e : Exchange ν) : e.Waits e.markTimedOut :=
  e.waits_registry (e.registry.ages_modify _ Handle.ages_markTimedOut)

end Exchange

namespace Serving

variable {ν α ε : Type}

open Exchange

/-! ## Bodies that are fed while they are sent -/

/-- Calls of the writer that write nothing leave the wire as it is. -/
theorem moves_answer_of_not_write {call : WriterCall} (h : ∀ bytes, call ≠ .write bytes) :
    Moves Waits (answer call : Serving ν call.Reply) := by
  cases call with
  | write bytes => exact absurd rfl (h bytes)
  | alive =>
      refine moves_bind (moves_modify fun e => e.waits_checkpoint) fun _ => ?_
      exact moves_bind moves_get fun _ => moves_pure _
  | available | data | complete => exact moves_bind moves_get fun _ => moves_pure _
  | consume amount => exact moves_modify fun e => e.waits_putSource _
  | reportError failure => exact moves_modify fun e => e.waits_putSource _
  | endProduction failure => exact moves_modify fun e => e.waits_putSource _
  | wait =>
      refine moves_bind (moves_await _ _) fun _ => ?_
      exact moves_modify fun e => e.waits_changeStream _

/-- **Whatever the writer asks for**, what answers it changes only what sending may change. -/
theorem moves_answer (call : WriterCall) : Moves Sends (answer call : Serving ν call.Reply) := by
  cases call with
  | write bytes => exact moves_transmit bytes
  | _ => exact Moves.sends (moves_answer_of_not_write nofun)

/-- The loop that answers a writer keeps what every answer keeps, by induction on the number of its
calls. -/
theorem moves_runWriter (calls : Nat) (w : Writer) :
    Moves Sends (runWriter calls w : Serving ν (Except ConnectionError Unit)) := by
  induction calls generalizing w with
  | zero => exact moves_never.sends
  | succ calls ih =>
      unfold runWriter
      split
      · exact moves_pure _
      · exact moves_bind (moves_answer _) fun _ => ih _

/-- A body that the writer has brought to its end is finished like any other. -/
theorem moves_writeStream (calls : Nat) :
    Moves Sends (((ExceptT.mk (runWriter calls {})).adapt .connection >>= fun _ => finish :
      ExceptT SendError (Serving ν) Unit)).run :=
  moves_ebind (moves_adapt (moves_runWriter calls {})) fun _ => moves_finish

/-- A stream is sent behind a header, or not at all if that cannot be written. -/
theorem moves_sendStream (calls : Nat) :
    Moves Sends (sendStream calls : ExceptT SendError (Serving ν) Unit).run := by
  refine moves_ebind (moves_emodify fun e => ?_) fun _ => ?_
  · exact IsTrans.trans _ _ _ (e.sends_changeHeader _) (waits_changeStream _ _).toSends
  refine moves_ebind (moves_lift moves_sendHeader) fun sent => ?_
  split
  · exact moves_ebind (moves_emodify fun e => (e.waits_putSource _).toSends) fun _ => moves_throw _
  · exact moves_writeStream calls

/-- A body that is fed is opened, sent and closed. -/
theorem moves_sendChunked (body : ChunkedBody ν) : Moves Sends (sendChunked body) := by
  refine moves_bind (moves_modify fun e => ?_) fun _ => ?_
  · exact ((e.waits_openStream body).trans (waits_agenda _ _)).toSends
  refine moves_bind (moves_sendStream _) fun _ => ?_
  refine moves_bind moves_get fun _ => ?_
  exact moves_bind (moves_modify fun e => e.waits_closeStream.toSends) fun _ => moves_pure _

/-! ## Bodies that are read -/

/-- What only sends is one way for an exchange to evolve. -/
theorem Moves.evolves {c : Serving ν α} (h : Moves Sends c) : Moves Evolves c :=
  h.mono fun _ _ => Sends.toEvolves

/-- What only waits sends nothing. -/
theorem Moves.withholds {c : Serving ν α} (h : Moves Waits c) : Moves Withholds c :=
  h.mono fun _ _ => Waits.toWithholds

/-- Reading with a deadline sends nothing, in whatever way it ends. -/
theorem moves_readBy (deadline : Option Nat) (rounds : Nat) :
    Moves Withholds (readBy deadline rounds : ExceptT ConnectionError (Serving ν) Bytes).run := by
  induction rounds with
  | zero => exact moves_never.withholds
  | succ rounds ih =>
      refine moves_ebind (moves_emodify fun e => e.waits_checkpoint.toWithholds) fun _ => ?_
      refine moves_eget_bind fun e => ?_
      dsimp only
      split
      · exact Std.Refl.refl e
      refine moves_eset_bind (withholds_incoming e _) ?_
      split
      · exact moves_throw _
      · exact moves_epure _
      · exact moves_throw _
      · refine moves_ebind (moves_liftM (moves_await _ _).withholds) fun awaited => ?_
        split
        · exact moves_throw _
        · refine moves_ebind moves_eget fun later => ?_
          split
          · exact ih
          · refine moves_ebind (moves_emodify fun e => ?_) fun _ => moves_throw _
            exact e.waits_markTimedOut.toWithholds

theorem moves_read : Moves Withholds (read : ExceptT ConnectionError (Serving ν) Bytes).run :=
  moves_ebind moves_eget fun _ => moves_readBy _ _

/-- Bytes that go into a sink are nothing that the peer sees. -/
theorem moves_pour (sink : Sink) (record : SinkRecord) (data : Bytes) :
    Moves Withholds (pour sink record data : Serving ν (SinkRecord × Except IoError Unit)) := by
  refine moves_bind (moves_modify fun e => ?_) fun _ => moves_pure _
  exact withholds_of_ages rfl rfl rfl (.refl _) rfl rfl

/-- The loop that reads a body sends nothing, by induction on its rounds. -/
theorem moves_readOnward (sink : Sink) (rounds left : Nat) (record : SinkRecord) :
    Moves Withholds (readOnward sink rounds left record : Serving ν _) := by
  induction rounds generalizing left record with
  | zero => exact moves_pure _
  | succ rounds ih =>
      unfold readOnward
      split
      · exact moves_pure _
      refine moves_bind moves_read fun found => ?_
      split
      · exact moves_pure _
      refine moves_bind (moves_pour _ _ _) fun poured => ?_
      split
      · exact moves_pure _
      · exact ih _ _

/-- A body with a known length is read without anything being sent. -/
theorem moves_readCapped (sink : Sink) (cap : Nat) :
    Moves Withholds (readCapped sink cap : Serving ν _) := by
  refine moves_bind moves_get fun e => ?_
  refine moves_bind (moves_modify fun e => withholds_changeRequest e fun _ => rfl) fun _ => ?_
  refine moves_bind (moves_pour _ _ _) fun poured => ?_
  split
  · exact moves_pure _
  refine moves_bind (moves_readOnward _ _ _ _) fun read => ?_
  split
  · exact moves_pure _
  · exact moves_pure _

/-- Reading the body of a request sends nothing, even if it fails. -/
theorem moves_readBody (sink : Sink) (limit : Nat) :
    Moves Withholds (readBody sink limit : Serving ν _) := by
  refine moves_bind moves_get fun e => ?_
  split
  · exact moves_pure _
  · exact moves_readCapped _ _

/-! ## Operations and programs -/

/-- A change by which the registry ages sends nothing. -/
theorem moves_changeRegistry {change : Registry → Nat → Registry × Bool}
    (h : ∀ (r : Registry) id, r.Ages (change r id).1) :
    Moves Withholds (changeRegistry change : Serving ν Bool) := by
  refine moves_get_bind fun e => ?_
  exact moves_set_bind (e.waits_registry (h _ _)).toWithholds (moves_pure _)

/-- The operation answers the peer or changes what it is answered. -/
def answers : Operation ν → Bool
  | .change _ => true
  | .respond _ => true
  | .sendFile _ => true
  | .sendChunked _ => true
  | _ => false

/-- What does not answer sends nothing and leaves the response as it is. -/
theorem moves_perform_of_not_answers {op : Operation ν} (hno : answers op = false) :
    Moves Withholds (perform op) := by
  cases op with
  | note entry => exact moves_modify fun e => (e.waits_note entry).toWithholds
  | look => exact moves_bind moves_get fun _ => moves_pure _
  | setParameters parameters => exact moves_modify fun e => withholds_changeRequest e fun _ => rfl
  | patchCookie name value => exact moves_modify fun e => withholds_changeRequest e fun _ => rfl
  | readBody sink limit => exact moves_readBody sink limit
  | change _ | respond _ | sendFile _ | sendChunked _ => cases hno
  | stop =>
      change Moves Withholds (changeRegistry Registry.stop)
      exact moves_changeRegistry Registry.ages_stop
  | conclude =>
      change Moves Withholds (changeRegistry Registry.conclude)
      exact moves_changeRegistry Registry.ages_conclude
  | die =>
      refine moves_modify fun e => (e.waits_registry ?_).toWithholds
      exact e.registry.ages_modify _ Handle.ages_die
  | unregister =>
      change Moves Withholds (changeRegistry Registry.remove)
      exact moves_changeRegistry Registry.ages_remove
  | sleep ms => exact (moves_sleep ms).withholds
  | file call =>
      refine moves_get_bind fun e => ?_
      exact moves_set_bind (withholds_of_ages rfl rfl rfl (.refl _) rfl rfl) (moves_pure _)
  | session call =>
      refine moves_get_bind fun e => ?_
      exact moves_set_bind (withholds_of_ages rfl rfl rfl (.refl _) rfl rfl) (moves_pure _)

/-- **Whatever an operation does**, the exchange evolves. -/
theorem moves_perform (op : Operation ν) : Moves Evolves (perform op) := by
  by_cases hanswers : answers op = true
  · cases op with
    | change change => exact moves_modify fun e => (e.sends_changeHeader _).toEvolves
    | respond call => exact (moves_respond call).evolves
    | sendFile path => exact (moves_sendFile path).evolves
    | sendChunked body => exact (moves_sendChunked body).evolves
    | _ => cases hanswers
  · exact (moves_perform_of_not_answers (by simpa using hanswers)).mono
      fun _ _ => Withholds.toEvolves

end Serving

/-- **Whatever a program does**, the exchange evolves. -/
theorem Action.evolves_run {ν α : Type} (p : Action ν α) (e : Exchange ν) :
    e.Evolves (Serving.exec p.run e).2 :=
  Action.moves_run Serving.moves_perform p e

end HttpServer
