import HttpServer.Stream.Feed
import HttpServer.Stream.Writer

/-!
# A writer among the tasks that feed it

A `Transfer` is a writer together with the source that it empties and other tasks fill. The writer
and these tasks take turns in any order, one call at a time (`Transfer.Move`, `Transfer.run`): the
writer first connects to the source, so that its signals wake the writer, and then makes one call
after another, which the source answers at once (`Transfer.answer`). Only waiting has to be allowed
by a signal that was not used up yet, or by the end of the connection.
-/

namespace HttpServer

/-- The signal tells the writer to look again. -/
def Signal.wakes {τ : Type} : Signal τ → Bool
  | .produced _ => true
  | _ => false

/-- A writer and its source between two calls. -/
structure Transfer where
  /-- The writer, once it has connected to the source. -/
  writer : Option Writer := none
  source : Source
  /-- The source has signalled since the writer last waited. -/
  woken : Bool := false
  /-- The connection was not stopped. -/
  alive : Bool := true
  /-- What was written of the body. -/
  wire : Bytes := []
  /-- All bytes that were ever put into the queue of the source. -/
  queued : Bytes := []
  /-- Those of them that came after the writer last asked how many there are. -/
  unseen : Bytes := []

namespace Transfer

/-- Who acts next, and how. -/
inductive Move
  /-- The writer connects or makes its next call, which ends like this if it is a write. -/
  | writer (outcome : Except ConnectionError Unit)
  /-- Another task does something to the source. -/
  | feed (f : Feed)
  /-- The connection is stopped. -/
  | stop

/-- What a move does to the source, if another task makes it. -/
def Move.feed? : Move → Option Feed
  | .feed f => some f
  | _ => none

/-- The source has changed and given signals. -/
def react (t : Transfer) (changed : Source × List (Signal FeedTag)) : Transfer :=
  { t with source := changed.1, woken := t.woken || changed.2.any Signal.wakes }

/-- Another task does something to the source. -/
def feed (t : Transfer) (f : Feed) : Transfer :=
  let (source, signals, _) := t.source.feed f
  let fresh := source.queue.buffer.drop t.source.queue.buffer.length
  { t.react (source, signals) with queued := t.queued ++ fresh, unseen := t.unseen ++ fresh }

/-- Answers a call of the writer; waiting is not answered before there is a reason to go on. -/
def answer (t : Transfer) (outcome : Except ConnectionError Unit) :
    (call : WriterCall) → Option (Transfer × call.Reply)
  | .alive => some (t, t.alive)
  | .available => some ({ t with unseen := [] }, t.source.queue.available)
  | .data => some (t, t.source.queue.buffer)
  | .write bytes =>
    match outcome with
    | .ok () => some ({ t with wire := t.wire ++ bytes }, .ok ())
    | .error e => some (t, .error e)
  | .consume amount => some (t.react (t.source.consume amount), ())
  | .complete => some (t, t.source.queue.complete)
  | .reportError e => some (t.react (t.source, t.source.queue.reportError e), ())
  | .endProduction failure => some (t.react (t.source.endProduction failure), ())
  | .wait => if t.woken || !t.alive then some ({ t with woken := false }, ()) else none

/-- The writer takes a step: it connects, or makes a call and goes on with the answer. -/
def write (t : Transfer) (outcome : Except ConnectionError Unit) : Option Transfer :=
  match t.writer with
  | none => some { t with writer := some {}, source := t.source.connect }
  | some w =>
    match w.call with
    | none => none
    | some call => (t.answer outcome call).map fun (t, reply) =>
      { t with writer := some (w.resume call reply) }

/-- Makes a move, if it can be made now. -/
def step (t : Transfer) : Move → Option Transfer
  | .writer outcome => t.write outcome
  | .feed f => some (t.feed f)
  | .stop => some { t with alive := false }

/-- Makes moves one after another, if each can be made in its turn. -/
def run (t : Transfer) (moves : List Move) : Option Transfer := moves.foldlM step t

/-- **What a step of the writer can do**, by the stage in which it stands. -/
inductive WriterStep (t : Transfer) (outcome : Except ConnectionError Unit) : Transfer → Prop
  | connects (hw : t.writer = none) :
      WriterStep t outcome { t with writer := some {}, source := t.source.connect }
  | lives (w : Writer) (hw : t.writer = some w) (hstage : w.stage = .checkingLife)
      (halive : t.alive = true) :
      WriterStep t outcome { t with writer := some (w.goTo .lookingForBytes) }
  | aborts (w : Writer) (hw : t.writer = some w) (hstage : w.stage = .checkingLife)
      (halive : t.alive = false) : WriterStep t outcome { t with writer := some w.abort }
  | seesNothing (w : Writer) (hw : t.writer = some w) (hstage : w.stage = .lookingForBytes)
      (hnone : t.source.queue.available = 0) :
      WriterStep t outcome { t with unseen := [], writer := some (w.goTo .checkingCompletion) }
  | seesBytes (w : Writer) (hw : t.writer = some w) (hstage : w.stage = .lookingForBytes)
      (hsome : t.source.queue.available ≠ 0) :
      WriterStep t outcome
        { t with unseen := [], writer := some (w.goTo (.copying t.source.queue.available)) }
  | copies (w : Writer) (available : Nat) (hw : t.writer = some w)
      (hstage : w.stage = .copying available) :
      WriterStep t outcome { t with writer := some (w.takeChunk available t.source.queue.buffer) }
  | sends (w : Writer) (taken : Nat) (framed : Bytes) (hw : t.writer = some w)
      (hstage : w.stage = .writing taken framed) (hok : outcome = .ok ()) :
      WriterStep t outcome
        { t with wire := t.wire ++ framed, writer := some (w.goTo (.consuming taken)) }
  | takes (w : Writer) (amount : Nat) (hw : t.writer = some w)
      (hstage : w.stage = .consuming amount) :
      WriterStep t outcome
        { t.react (t.source.consume amount) with writer := some (w.goTo .checkingLife) }
  | findsMore (w : Writer) (hw : t.writer = some w) (hstage : w.stage = .checkingCompletion)
      (hmore : t.source.queue.complete = false) :
      WriterStep t outcome { t with writer := some (w.goTo .waiting) }
  | findsComplete (w : Writer) (hw : t.writer = some w) (hstage : w.stage = .checkingCompletion)
      (hcomplete : t.source.queue.complete = true) :
      WriterStep t outcome { t with writer := some w.close }
  | sendsLast (w : Writer) (framed : Bytes) (hw : t.writer = some w)
      (hstage : w.stage = .writingLast framed) (hok : outcome = .ok ()) :
      WriterStep t outcome { t with wire := t.wire ++ framed, writer := some (w.goTo .endingWell) }
  | endsWell (w : Writer) (hw : t.writer = some w) (hstage : w.stage = .endingWell) :
      WriterStep t outcome
        { t.react (t.source.endProduction none) with writer := some (w.goTo .finished) }
  | fails (w : Writer) (e : ConnectionError) (hw : t.writer = some w)
      (hstage : (∃ taken framed, w.stage = .writing taken framed) ∨
        ∃ framed, w.stage = .writingLast framed)
      (herror : outcome = .error e) :
      WriterStep t outcome { t with writer := some (w.writeFailed e) }
  | reports (w : Writer) (e : ConnectionError) (hw : t.writer = some w)
      (hstage : w.stage = .reporting e) :
      WriterStep t outcome
        { t.react (t.source, t.source.queue.reportError e.toIoError) with
          writer := some (w.goTo (.endingBadly e.toIoError e)) }
  | endsBadly (w : Writer) (failure : IoError) (e : ConnectionError) (hw : t.writer = some w)
      (hstage : w.stage = .endingBadly failure e) :
      WriterStep t outcome
        { t.react (t.source.endProduction (some failure)) with writer := some (w.goTo (.failed e)) }
  | wakes (w : Writer) (hw : t.writer = some w) (hstage : w.stage = .waiting)
      (hwoken : t.woken = true ∨ t.alive = false) :
      WriterStep t outcome { t with woken := false, writer := some (w.goTo .checkingLife) }

/-- **A call of the writer is one of its steps**, told apart by the stage that it was in. -/
theorem writerStep_of_write {t t' : Transfer} {outcome : Except ConnectionError Unit}
    (h : t.write outcome = some t') : WriterStep t outcome t' := by
  unfold write at h
  cases hw : t.writer with
  | none =>
      simp only [hw, Option.some.injEq] at h
      rw [← h]
      exact .connects hw
  | some w =>
      -- The writer's stage says which call it makes; with the answer it goes on by one equation.
      cases hstage : w.stage <;>
        simp only [hw, Writer.call, hstage, answer, Option.map_some, Option.some.injEq,
          Writer.resume] at h
      case checkingLife =>
        rw [← h, Writer.sawLife]
        by_cases halive : t.alive = true
        · rw [if_pos halive]
          exact .lives w hw hstage halive
        · rw [if_neg halive]
          exact .aborts w hw hstage (by simpa using halive)
      case lookingForBytes =>
        rw [← h, Writer.sawBytes]
        by_cases havailable : t.source.queue.available = 0
        · rw [if_pos havailable]
          exact .seesNothing w hw hstage havailable
        · rw [if_neg havailable]
          exact .seesBytes w hw hstage havailable
      case copying available =>
        rw [← h]
        exact .copies w available hw hstage
      case writing taken framed =>
        cases outcome with
        | ok _ =>
            simp only [Option.map_some, Option.some.injEq] at h
            rw [← h]
            exact .sends w taken framed hw hstage rfl
        | error e =>
            simp only [Option.map_some, Option.some.injEq] at h
            rw [← h]
            exact .fails w e hw (.inl ⟨taken, framed, hstage⟩) rfl
      case consuming amount =>
        rw [← h]
        exact .takes w amount hw hstage
      case checkingCompletion =>
        rw [← h]
        cases hcomplete : t.source.queue.complete
        · exact .findsMore w hw hstage hcomplete
        · exact .findsComplete w hw hstage hcomplete
      case writingLast framed =>
        cases outcome with
        | ok _ =>
            simp only [Option.map_some, Option.some.injEq] at h
            rw [← h]
            exact .sendsLast w framed hw hstage rfl
        | error e =>
            simp only [Option.map_some, Option.some.injEq] at h
            rw [← h]
            exact .fails w e hw (.inr ⟨framed, hstage⟩) rfl
      case endingWell =>
        rw [← h]
        exact .endsWell w hw hstage
      case reporting e =>
        rw [← h]
        exact .reports w e hw hstage
      case endingBadly failure e =>
        rw [← h]
        exact .endsBadly w failure e hw hstage
      case waiting =>
        split at h
        · rename_i hwoken
          simp only [Option.map_some, Option.some.injEq] at h
          rw [← h]
          exact .wakes w hw hstage (by simpa using hwoken)
        · cases h
      case finished | failed => cases h

/-- What every move preserves, given the moves before it, every run preserves. -/
theorem run_induction {P : List Move → Transfer → Prop}
    (hstep : ∀ {past : List Move} {t t' : Transfer} (move : Move), P past t →
      t.step move = some t' → P (past ++ [move]) t')
    {past moves : List Move} {t t' : Transfer} (h : P past t) (hrun : t.run moves = some t') :
    P (past ++ moves) t' := by
  induction moves generalizing past t with
  | nil =>
      cases hrun
      rw [List.append_nil]
      exact h
  | cons move moves ih =>
      obtain ⟨mid, hmid, hrest⟩ := Option.bind_eq_some_iff.1 hrun
      have hlater := ih (hstep move h hmid) hrest
      rwa [List.append_assoc] at hlater

/-- A writer that has failed makes no more calls. -/
theorem stage_ne_failed_of_write {t t' : Transfer} {outcome : Except ConnectionError Unit}
    (h : t.write outcome = some t') {w : Writer} (hw : t.writer = some w) (e : ConnectionError) :
    w.stage ≠ .failed e := by
  intro hstage
  rw [write, hw] at h
  simp only [Writer.call, hstage] at h
  cases h

/-- The writer itself gives no signals: those that are due come from the tasks that feed. -/
theorem queued_of_writerStep {t t' : Transfer} {outcome : Except ConnectionError Unit}
    (h : WriterStep t outcome t') : t'.queued = t.queued := by
  cases h <;> rfl

end Transfer

namespace Source

/-- Connecting takes nothing from the queue. -/
theorem queue_connect_buffer (s : Source) : s.connect.queue.buffer = s.queue.buffer := by
  cases s <;> rfl

/-- Connecting does not end the queue either. -/
theorem queue_connect_complete (s : Source) : s.connect.queue.complete = s.queue.complete := by
  cases s <;> rfl

/-- What is consumed leaves the queue at its front. -/
theorem queue_consume (s : Source) (amount : Nat) :
    (s.consume amount).1.queue = { s.queue with buffer := s.queue.buffer.drop amount } := by
  cases s <;> rfl

/-- When the production is over, the queue is complete and nobody is told of its end any more. -/
theorem queue_endProduction (s : Source) (failure : Option IoError) :
    (s.endProduction failure).1.queue = { s.queue with complete := true, onFinish := none } := by
  cases s <;> rfl

end Source

/-- The queue of a source has grown: bytes were put behind the others, none of them after it was
complete, and it never stops being complete. -/
structure Producer.GrowsTo {τ : Type} (p later : Producer τ) : Prop where
  buffer : ∃ fresh, later.buffer = p.buffer ++ fresh ∧ (p.complete = true → fresh = [])
  complete : p.complete = true → later.complete = true

namespace Producer

variable {τ : Type}

theorem GrowsTo.refl (p : Producer τ) : p.GrowsTo p := ⟨⟨[], by simp⟩, id⟩

/-- A queue grows in steps. -/
theorem GrowsTo.trans {p mid later : Producer τ} (first : p.GrowsTo mid)
    (second : mid.GrowsTo later) : p.GrowsTo later := by
  obtain ⟨a, ha, hcomplete⟩ := first.buffer
  obtain ⟨b, hb, hlater⟩ := second.buffer
  refine ⟨⟨a ++ b, by rw [hb, ha, List.append_assoc], fun h => ?_⟩,
    second.complete ∘ first.complete⟩
  rw [hcomplete h, hlater (first.complete h), List.append_nil]

/-- Bytes are pushed to the end of a queue, or not at all if it is complete. -/
theorem growsTo_push (p : Producer τ) (data : Bytes) : p.GrowsTo (p.push data).1 := by
  unfold push
  split
  · exact .refl p
  · rename_i h
    rw [not_or] at h
    exact ⟨⟨data, rfl, fun hcomplete => absurd hcomplete h.2⟩, id⟩

/-- Finishing a queue adds nothing to it. -/
theorem growsTo_finish (p : Producer τ) : p.GrowsTo p.finish.1 :=
  ⟨⟨[], by simp [finish]⟩, fun _ => rfl⟩

theorem growsTo_endProduction (p : Producer τ) (failure : Option IoError) :
    p.GrowsTo (p.endProduction failure).1 :=
  ⟨⟨[], by simp [endProduction]⟩, fun _ => rfl⟩

end Producer

namespace Source

/-- Closing an encoder pushes its trailer, if there is one, and finishes the queue. -/
theorem growsTo_close {σ τ : Type} (p : EncodedProducer σ τ) (trailer : Except IoError Bytes) :
    p.queue.GrowsTo (p.close trailer).1.queue := by
  cases trailer with
  | ok bytes => exact (p.queue.growsTo_push bytes).trans (Producer.growsTo_finish _)
  | error e => exact p.queue.growsTo_finish

/-- Whatever other tasks do to a source, its queue only grows. -/
theorem growsTo_feed (s : Source) (f : Feed) : s.queue.GrowsTo (s.feed f).1.queue := by
  cases s with
  | plain p =>
      cases f with
      | push data => exact p.growsTo_push data
      | finish => exact p.growsTo_finish
      | flush => exact .refl p
      | endProduction failure => exact p.growsTo_endProduction failure
      | unregister => exact .refl p
  | encoded p =>
      cases f with
      | push data =>
          change p.queue.GrowsTo (p.write data).1.queue
          unfold EncodedProducer.write
          split
          · exact .refl _
          split
          · exact .refl _
          · exact p.queue.growsTo_push _
      | finish =>
          change p.queue.GrowsTo p.finish.1.queue
          unfold EncodedProducer.finish
          split <;> exact growsTo_close p _
      | flush => exact .refl _
      | endProduction failure => exact p.queue.growsTo_endProduction failure
      | unregister => exact .refl _

end Source

namespace Transfer

/-- What other tasks put into the queue of a transfer is booked as queued and as unseen. -/
theorem exists_fresh_feed (t : Transfer) (f : Feed) :
    ∃ fresh, (t.feed f).source.queue.buffer = t.source.queue.buffer ++ fresh ∧
      (t.feed f).queued = t.queued ++ fresh ∧ (t.feed f).unseen = t.unseen ++ fresh := by
  obtain ⟨fresh, hbuffer, _⟩ := (t.source.growsTo_feed f).buffer
  have hbooked : (t.source.feed f).1.queue.buffer.drop t.source.queue.buffer.length = fresh := by
    rw [hbuffer, List.drop_left]
  refine ⟨fresh, hbuffer, ?_, ?_⟩
  · exact congrArg (t.queued ++ ·) hbooked
  · exact congrArg (t.unseen ++ ·) hbooked

/-- A queue that is complete stays so, whatever it is fed. -/
theorem complete_feed (t : Transfer) (f : Feed) (h : t.source.queue.complete = true) :
    (t.feed f).source.queue.complete = true :=
  (t.source.growsTo_feed f).complete h

end Transfer

end HttpServer
