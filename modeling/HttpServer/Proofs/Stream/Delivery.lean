import HttpServer.Proofs.Stream.Framing
import HttpServer.Proofs.Stream.Interleaving

/-!
# What a streamed body delivers

Whatever the order in which a writer and the tasks that feed it take their turns, each byte that was
queued is on the wire or still in the queue, in order and once (`Transfer.Accounted`). So when the
writer ends production well, the body it framed is all that was queued but for what the queue still
holds; and this is what came between the moment at which the writer last asked how many bytes there
are and the moment at which it found the source complete (`Transfer.delivered_iff_unseen_eq_nil`).
Bytes are lost if a task pushes and finishes in between (`Transfer.lost_pushedBetweenLooks`).
-/

namespace HttpServer

namespace WriterStage

/-- How many bytes of the queue are on the wire already. -/
def written : WriterStage → Nat
  | .consuming amount => amount
  | _ => 0

/-- The end of the body is on the wire. -/
def closed : WriterStage → Bool
  | .endingWell => true
  | .finished => true
  | _ => false

/-- The end of the body has not been framed, and nothing has gone wrong. -/
def streaming : WriterStage → Bool
  | .writingLast _ => false
  | .endingWell => false
  | .finished => false
  | .reporting _ => false
  | .endingBadly .. => false
  | .failed _ => false
  | _ => true

/-- What the writer relies on in a stage, given the queue and the bytes that it has not seen. -/
def Grounded (queue : Producer FeedTag) (unseen : Bytes) : WriterStage → Prop
  | .copying available => 0 < available ∧ available ≤ queue.buffer.length
  | .writing taken framed =>
    0 < taken ∧ taken ≤ queue.buffer.length ∧ framed = chunk taken (queue.buffer.take taken)
  | .consuming amount => amount ≤ queue.buffer.length
  | .checkingCompletion => queue.buffer = unseen
  | .writingLast framed => framed = lastChunk ∧ queue.complete = true ∧ queue.buffer = unseen
  | .endingWell => queue.complete = true ∧ queue.buffer = unseen
  | .finished => queue.complete = true ∧ queue.buffer = unseen
  | _ => True

/-- No more bytes have been written than the queue still holds: they are consumed only after
that. -/
theorem written_le {queue : Producer FeedTag} {unseen : Bytes} {stage : WriterStage}
    (h : stage.Grounded queue unseen) : stage.written ≤ queue.buffer.length := by
  cases stage with
  | consuming amount => exact h
  | _ => exact Nat.zero_le _

/-- What a stage relies on outlasts the growth of the queue. -/
theorem Grounded.of_append {queue later : Producer FeedTag} {unseen fresh : Bytes}
    {stage : WriterStage} (h : stage.Grounded queue unseen)
    (hbuffer : later.buffer = queue.buffer ++ fresh)
    (hcomplete : queue.complete = true → later.complete = true) :
    stage.Grounded later (unseen ++ fresh) := by
  have hlength : queue.buffer.length ≤ later.buffer.length := by
    rw [hbuffer, List.length_append]
    omega
  cases stage with
  | copying available => exact ⟨h.1, Nat.le_trans h.2 hlength⟩
  | writing taken framed =>
      obtain ⟨hpos, hle, hframed⟩ := h
      refine ⟨hpos, Nat.le_trans hle hlength, ?_⟩
      rw [hframed, hbuffer, List.take_append_of_le_length hle]
  | consuming amount => exact Nat.le_trans h hlength
  | checkingCompletion =>
      have hqueue : queue.buffer = unseen := h
      exact hbuffer.trans (by rw [hqueue])
  | writingLast framed =>
      obtain ⟨hframed, hdone, hqueue⟩ := h
      exact ⟨hframed, hcomplete hdone, hbuffer.trans (by rw [hqueue])⟩
  | endingWell | finished =>
      obtain ⟨hdone, hqueue⟩ := h
      exact ⟨hcomplete hdone, hbuffer.trans (by rw [hqueue])⟩
  | _ => trivial

end WriterStage

/-- **Every queued byte is accounted for.** The wire holds chunks of data, and behind them the end
of the body if it was written. Their data and what the queue still holds, but for what is on the
wire already, are all the bytes that were queued. -/
structure Balanced (stage : WriterStage) (encoder : ChunkEncoder) (queue : Producer FeedTag)
    (wire queued unseen : Bytes) : Prop where
  framed : ∃ pieces : List Bytes, (∀ data ∈ pieces, data ≠ []) ∧
    wire = Chunk.ofPieces pieces ++ (if stage.closed then lastChunk else []) ∧
    pieces.flatten ++ queue.buffer.drop stage.written = queued
  unfinished : stage.streaming = true → encoder.finished = false
  grounded : stage.Grounded queue unseen

namespace Balanced

variable {stage : WriterStage} {encoder : ChunkEncoder} {queue : Producer FeedTag}
  {wire queued unseen : Bytes}

/-- The writer goes to another stage, with nothing written and nothing taken. -/
theorem goTo (h : Balanced stage encoder queue wire queued unseen) (next : WriterStage)
    {seen : Bytes} (hwritten : next.written = stage.written) (hclosed : next.closed = stage.closed)
    (hstreaming : next.streaming = true → stage.streaming = true)
    (hgrounded : next.Grounded queue seen) : Balanced next encoder queue wire queued seen where
  framed := by
    rw [hwritten, hclosed]
    exact h.framed
  unfinished hnext := h.unfinished (hstreaming hnext)
  grounded := hgrounded

/-- Only the bytes of a queue matter, and whether it is complete. -/
theorem congr_queue (h : Balanced stage encoder queue wire queued unseen)
    {later : Producer FeedTag} (hbuffer : later.buffer = queue.buffer)
    (hcomplete : queue.complete = true → later.complete = true) :
    Balanced stage encoder later wire queued unseen where
  framed := by
    rw [hbuffer]
    exact h.framed
  unfinished := h.unfinished
  grounded := by
    have hgrown : stage.Grounded later (unseen ++ []) :=
      h.grounded.of_append (by rw [hbuffer, List.append_nil]) hcomplete
    rwa [List.append_nil] at hgrown

/-- The end of production takes nothing from the balance. -/
theorem endProduction {s : Source} (h : Balanced stage encoder s.queue wire queued unseen)
    (failure : Option IoError) :
    Balanced stage encoder (s.endProduction failure).1.queue wire queued unseen := by
  have hqueue := s.queue_endProduction failure
  exact h.congr_queue (by rw [hqueue]) (fun _ => by rw [hqueue])

/-- More bytes are queued. -/
theorem of_append (h : Balanced stage encoder queue wire queued unseen)
    {later : Producer FeedTag} {fresh : Bytes} (hbuffer : later.buffer = queue.buffer ++ fresh)
    (hcomplete : queue.complete = true → later.complete = true) :
    Balanced stage encoder later wire (queued ++ fresh) (unseen ++ fresh) where
  framed := by
    obtain ⟨pieces, hne, hwire, hsum⟩ := h.framed
    refine ⟨pieces, hne, hwire, ?_⟩
    rw [hbuffer, List.drop_append_of_le_length (WriterStage.written_le h.grounded), ← hsum,
      List.append_assoc]
  unfinished := h.unfinished
  grounded := h.grounded.of_append hbuffer hcomplete

/-- What the writer takes is something. -/
theorem take_ne_nil {bs : Bytes} {taken : Nat} (hpos : 0 < taken) (hle : taken ≤ bs.length) :
    bs.take taken ≠ [] := by
  rw [← List.length_pos_iff, List.length_take_of_le hle]
  exact hpos

/-- The writer frames bytes of the queue as a chunk. -/
theorem takeChunk {available : Nat} {w : Writer}
    (h : Balanced (.copying available) w.encoder queue wire queued unseen) :
    Balanced (w.takeChunk available queue.buffer).stage (w.takeChunk available queue.buffer).encoder
      queue wire queued unseen := by
  obtain ⟨hpos, hle⟩ := h.grounded
  have hlength : (queue.buffer.take available).length = available := List.length_take_of_le hle
  have hdata : queue.buffer.take available ≠ [] := take_ne_nil hpos hle
  have hopen : w.encoder.finished = false := h.unfinished rfl
  have hcurrent : BodyPart.current [queue.buffer.take available] = queue.buffer.take available := by
    simp [BodyPart.current, hdata]
  have hsize : BodyPart.size [queue.buffer.take available] = available := by
    simp [BodyPart.size, Nat.min_eq_left hle]
  have hencode : w.encoder.encode (.data [queue.buffer.take available]) =
      ({ w.encoder with sentSize := w.encoder.sentSize + available },
        chunk available (queue.buffer.take available)) := by
    simp [ChunkEncoder.encode, hopen, hsize, hcurrent, Nat.ne_of_gt hpos]
  have hchunk : w.takeChunk available queue.buffer =
      { stage := .writing available (chunk available (queue.buffer.take available))
        encoder := { w.encoder with sentSize := w.encoder.sentSize + available } } := by
    simp only [Writer.takeChunk, hdata, ↓reduceIte, hencode, hlength]
  rw [hchunk]
  exact ⟨h.framed, fun _ => hopen, hpos, hle, rfl⟩

/-- The chunk is on the wire. -/
theorem sends {taken : Nat} {framed : Bytes}
    (h : Balanced (.writing taken framed) encoder queue wire queued unseen) :
    Balanced (.consuming taken) encoder queue (wire ++ framed) queued unseen := by
  obtain ⟨pieces, hne, hwire, hsum⟩ := h.framed
  obtain ⟨hpos, hle, hframed⟩ := h.grounded
  have hlength : (queue.buffer.take taken).length = taken := List.length_take_of_le hle
  refine ⟨⟨pieces ++ [queue.buffer.take taken], ?_, ?_, ?_⟩, fun _ => h.unfinished rfl, hle⟩
  · intro data hmem
    rcases List.mem_append.1 hmem with hmem | hmem
    · exact hne data hmem
    · rw [List.mem_singleton.1 hmem]
      exact take_ne_nil hpos hle
  · simp only [WriterStage.closed, Bool.false_eq_true, ↓reduceIte, List.append_nil] at hwire ⊢
    rw [hwire, hframed, Chunk.ofPieces, Chunk.ofPieces, List.flatMap_append,
      List.flatMap_singleton, hlength]
  · rw [List.flatten_append, List.flatten_singleton, List.append_assoc, ← hsum]
    exact congrArg (pieces.flatten ++ ·) (List.take_append_drop taken queue.buffer)

/-- The queue lets go of what is on the wire. -/
theorem takes {amount : Nat} {later : Producer FeedTag}
    (h : Balanced (.consuming amount) encoder queue wire queued unseen)
    (hbuffer : later.buffer = queue.buffer.drop amount) :
    Balanced .checkingLife encoder later wire queued unseen where
  framed := by
    obtain ⟨pieces, hne, hwire, hsum⟩ := h.framed
    exact ⟨pieces, hne, hwire, by rw [hbuffer]; exact hsum⟩
  unfinished _ := h.unfinished rfl
  grounded := trivial

/-- The writer frames the end of the body. -/
theorem close {w : Writer}
    (h : Balanced .checkingCompletion w.encoder queue wire queued unseen)
    (hcomplete : queue.complete = true) :
    Balanced w.close.stage w.close.encoder queue wire queued unseen := by
  have hopen : w.encoder.finished = false := h.unfinished rfl
  have hclose : w.close =
      { stage := .writingLast lastChunk, encoder := { w.encoder with finished := true } } := by
    simp [Writer.close, ChunkEncoder.encode, hopen]
  rw [hclose]
  exact ⟨h.framed, nofun, rfl, hcomplete, h.grounded⟩

/-- The end of the body is on the wire. -/
theorem sendsLast {framed : Bytes}
    (h : Balanced (.writingLast framed) encoder queue wire queued unseen) :
    Balanced .endingWell encoder queue (wire ++ framed) queued unseen := by
  obtain ⟨pieces, hne, hwire, hsum⟩ := h.framed
  obtain ⟨rfl, hcomplete, hqueue⟩ := h.grounded
  refine ⟨⟨pieces, hne, ?_, hsum⟩, nofun, hcomplete, hqueue⟩
  simp only [WriterStage.closed, Bool.false_eq_true, ↓reduceIte, List.append_nil] at hwire ⊢
  rw [hwire]

end Balanced

namespace Transfer

/-- The writer of a transfer; one that has not connected yet is about to start. -/
def current (t : Transfer) : Writer := t.writer.getD {}

/-- Every queued byte of a transfer is accounted for. -/
def Accounted (t : Transfer) : Prop :=
  Balanced t.current.stage t.current.encoder t.source.queue t.wire t.queued t.unseen

/-- Bytes that are fed are accounted for as queued. -/
theorem accounted_feed {t : Transfer} (h : t.Accounted) (f : Feed) : (t.feed f).Accounted := by
  obtain ⟨fresh, hbuffer, hqueued, hunseen⟩ := t.exists_fresh_feed f
  unfold Accounted
  rw [hqueued, hunseen]
  exact h.of_append hbuffer (t.complete_feed f)

/-- What is accounted for while the writer stands in a stage. -/
theorem Accounted.balanced {t : Transfer} {w : Writer} {stage : WriterStage} (h : t.Accounted)
    (hw : t.writer = some w) (hstage : w.stage = stage) :
    Balanced stage w.encoder t.source.queue t.wire t.queued t.unseen := by
  have hcurrent : t.current = w := by rw [current, hw, Option.getD_some]
  rw [Accounted, hcurrent, hstage] at h
  exact h

/-- **Each step of the writer keeps the account**; the cases are those of its stages. -/
theorem accounted_write {t t' : Transfer} {outcome : Except ConnectionError Unit}
    (h : t.Accounted) (hstep : WriterStep t outcome t') : t'.Accounted := by
  cases hstep with
  | connects hw =>
      rw [Accounted, current, hw] at h
      exact h.congr_queue (t.source.queue_connect_buffer)
        (fun hcomplete => t.source.queue_connect_complete.trans hcomplete)
  | lives w hw hstage _ =>
      exact (h.balanced hw hstage).goTo .lookingForBytes rfl rfl id trivial
  | aborts w hw hstage _ =>
      exact (h.balanced hw hstage).goTo (.endingBadly _ _) rfl rfl nofun trivial
  | seesNothing w hw hstage hnone =>
      refine (h.balanced hw hstage).goTo .checkingCompletion rfl rfl id ?_
      exact List.length_eq_zero_iff.1 hnone
  | seesBytes w hw hstage hsome =>
      refine (h.balanced hw hstage).goTo (.copying _) rfl rfl id ?_
      exact ⟨Nat.pos_of_ne_zero hsome, Nat.le_refl _⟩
  | copies w available hw hstage =>
      exact (h.balanced hw hstage).takeChunk
  | sends w taken framed hw hstage _ =>
      exact (h.balanced hw hstage).sends
  | takes w amount hw hstage =>
      refine (h.balanced hw hstage).takes ?_
      exact congrArg Producer.buffer (t.source.queue_consume amount)
  | findsMore w hw hstage _ =>
      exact (h.balanced hw hstage).goTo .waiting rfl rfl id trivial
  | findsComplete w hw hstage hcomplete =>
      exact (h.balanced hw hstage).close hcomplete
  | sendsLast w framed hw hstage _ =>
      exact (h.balanced hw hstage).sendsLast
  | endsWell w hw hstage =>
      have hended := (h.balanced hw hstage).endProduction none
      exact hended.goTo .finished rfl rfl nofun hended.grounded
  | fails w e hw hstage _ =>
      rw [Writer.writeFailed]
      rcases hstage with ⟨taken, framed, hstage⟩ | ⟨framed, hstage⟩ <;> split
      · exact (h.balanced hw hstage).goTo (.endingBadly _ _) rfl rfl nofun trivial
      · exact (h.balanced hw hstage).goTo (.reporting _) rfl rfl nofun trivial
      · exact (h.balanced hw hstage).goTo (.endingBadly _ _) rfl rfl nofun trivial
      · exact (h.balanced hw hstage).goTo (.reporting _) rfl rfl nofun trivial
  | reports w e hw hstage =>
      exact (h.balanced hw hstage).goTo (.endingBadly _ _) rfl rfl nofun trivial
  | endsBadly w failure e hw hstage =>
      exact ((h.balanced hw hstage).endProduction _).goTo (.failed e) rfl rfl nofun trivial
  | wakes w hw hstage _ =>
      exact (h.balanced hw hstage).goTo .checkingLife rfl rfl id trivial

/-- **Each move of either side keeps the account.** -/
theorem accounted_step {t t' : Transfer} (move : Move) (h : t.Accounted)
    (hstep : t.step move = some t') : t'.Accounted := by
  cases move with
  | writer outcome => exact accounted_write h (writerStep_of_write hstep)
  | feed f =>
      rw [step, Option.some.injEq] at hstep
      rw [← hstep]
      exact accounted_feed h f
  | stop =>
      rw [step, Option.some.injEq] at hstep
      rw [← hstep]
      exact h

/-- No run loses account of a byte, whatever its source and however its writes end. -/
theorem accounted_run {moves : List Move} {t t' : Transfer} (h : t.Accounted)
    (hrun : t.run moves = some t') : t'.Accounted :=
  @run_induction (fun _ t => t.Accounted) accounted_step [] moves t t' h hrun

end Transfer

namespace Feed

/-- The bytes that it gives. -/
def data : Feed → Bytes
  | .push data => data
  | _ => []

/-- No bytes are taken behind it. -/
def ends : Feed → Bool
  | .finish => true
  | .endProduction _ => true
  | _ => false

/-- The bytes that are taken of what other tasks give, one after another. -/
def offered : List Feed → Bytes
  | [] => []
  | f :: later => if f.ends then [] else f.data ++ offered later

/-- Bytes are offered until the source has ended. -/
theorem offered_concat (fed : List Feed) (f : Feed) :
    offered (fed ++ [f]) = offered fed ++ (if fed.any ends then [] else f.data) := by
  induction fed with
  | nil => cases f <;> simp [offered, ends, data]
  | cons first fed ih =>
      rw [List.cons_append, offered, offered, ih, List.any_cons]
      by_cases hends : first.ends = true
      · simp [hends]
      · simp [hends]

/-- Of pushes with an end behind them everything is offered. -/
theorem offered_pushes (pushes : List Bytes) :
    offered (pushes.map .push ++ [.finish]) = pushes.flatten := by
  induction pushes with
  | nil => rfl
  | cons data pushes ih =>
      rw [List.map_cons, List.cons_append, offered, ih]
      rfl

theorem ends_of_mem_pushes {pushes : List Bytes} {fed : List Feed}
    (h : fed <+: pushes.map .push) : fed.any ends = false := by
  rw [List.any_eq_false]
  intro f hmem
  obtain ⟨data, _, rfl⟩ := List.mem_map.1 (h.subset hmem)
  exact Bool.false_ne_true

end Feed

namespace Transfer

/-- What other tasks did in some moves, in order. -/
def feeds (moves : List Move) : List Feed := moves.filterMap Move.feed?

/-- What is fed stands in the order of the moves. -/
theorem feeds_concat (moves : List Move) (move : Move) :
    feeds (moves ++ [move]) = feeds moves ++ move.feed?.toList := by
  rw [feeds, List.filterMap_append]
  cases move <;> rfl

/-- A plain source takes what it is fed until it is complete. -/
theorem feed_of_plain {t : Transfer} {p : Producer FeedTag} (h : t.source = .plain p) (f : Feed) :
    (∃ later, (t.feed f).source = .plain later) ∧
      (t.feed f).queued = t.queued ++ (if p.complete then [] else f.data) ∧
      (t.feed f).source.queue.complete = (p.complete || f.ends) := by
  simp only [feed, react, h]
  cases f with
  | push data =>
      by_cases hdropped : data = [] ∨ p.complete = true
      · rcases hdropped with rfl | hcomplete
        · simp [Source.feed, Source.queue, Producer.push, Feed.data, Feed.ends]
        · simp [Source.feed, Source.queue, Producer.push, Feed.ends, hcomplete]
      · have hopen : p.complete = false := by simpa using (not_or.1 hdropped).2
        simp [Source.feed, Source.queue, Producer.push, Feed.data, Feed.ends, hopen,
          (not_or.1 hdropped).1]
  | finish => simp [Source.feed, Source.queue, Producer.finish, Feed.data, Feed.ends]
  | flush => simp [Source.feed, Source.queue, Producer.flush, Feed.data, Feed.ends]
  | endProduction failure =>
      simp [Source.feed, Source.queue, Producer.endProduction, Feed.data, Feed.ends]
  | unregister => simp [Source.feed, Source.queue, Feed.data, Feed.ends]

/-- The writer leaves a plain source plain. -/
theorem source_of_writerStep {t t' : Transfer} {outcome : Except ConnectionError Unit}
    {p : Producer FeedTag} (h : t.source = .plain p) (hstep : WriterStep t outcome t') :
    ∃ later, t'.source = .plain later := by
  cases hstep with
  | connects | takes | endsWell | endsBadly => exact ⟨_, by simp only [react, h]; rfl⟩
  | _ => exact ⟨p, h⟩

/-- Before the writer fails, only other tasks make its source complete. -/
theorem complete_of_writerStep {t t' : Transfer} {outcome : Except ConnectionError Unit}
    (h : t.Accounted) (hstep : WriterStep t outcome t')
    (hwell : ∀ e, t'.current.stage ≠ .failed e) :
    t'.source.queue.complete = t.source.queue.complete := by
  cases hstep with
  | connects hw => exact t.source.queue_connect_complete
  | takes w amount hw hstage =>
      have hqueue := congrArg Producer.complete (t.source.queue_consume amount)
      exact hqueue
  | endsWell w hw hstage =>
      have hcomplete : t.source.queue.complete = true := (h.balanced hw hstage).grounded.1
      rw [hcomplete]
      exact congrArg Producer.complete (t.source.queue_endProduction none)
  | endsBadly w failure e hw hstage => exact absurd rfl (hwell e)
  | _ => rfl

/-- A transfer from a plain source after some moves: everything that other tasks gave is queued, as
long as the writer has not failed. -/
structure Fed (moves : List Move) (t : Transfer) : Prop where
  accounted : t.Accounted
  plain : ∃ p, t.source = .plain p
  booked : (∀ e, t.current.stage ≠ .failed e) →
    t.queued = Feed.offered (feeds moves) ∧ t.source.queue.complete = (feeds moves).any Feed.ends

/-- The writer feeds nothing. -/
theorem fed_write {t t' : Transfer} {moves : List Move} {outcome : Except ConnectionError Unit}
    (h : Fed moves t) (hwrite : t.write outcome = some t') :
    Fed (moves ++ [.writer outcome]) t' := by
  have hstep := writerStep_of_write hwrite
  have hsame : feeds (moves ++ [.writer outcome]) = feeds moves := by
    rw [feeds_concat]
    exact List.append_nil _
  obtain ⟨p, hp⟩ := h.plain
  refine ⟨accounted_write h.accounted hstep, source_of_writerStep hp hstep, fun hwell => ?_⟩
  have hbefore : ∀ e, t.current.stage ≠ .failed e := by
    intro e hfailed
    cases hw : t.writer with
    | none => simp [current, hw] at hfailed
    | some w =>
        rw [current, hw] at hfailed
        exact stage_ne_failed_of_write hwrite hw e hfailed
  obtain ⟨hqueued, hcomplete⟩ := h.booked hbefore
  rw [hsame, queued_of_writerStep hstep, complete_of_writerStep h.accounted hstep hwell]
  exact ⟨hqueued, hcomplete⟩

/-- What is fed is queued as far as it is offered. -/
theorem fed_feed {t : Transfer} {moves : List Move} (h : Fed moves t) (f : Feed) :
    Fed (moves ++ [.feed f]) (t.feed f) := by
  obtain ⟨p, hp⟩ := h.plain
  obtain ⟨hplain, hqueued, hcomplete⟩ := feed_of_plain hp f
  refine ⟨accounted_feed h.accounted f, hplain, fun hwell => ?_⟩
  obtain ⟨hbooked, hended⟩ := h.booked hwell
  have hp' : p.complete = (feeds moves).any Feed.ends := by
    rw [hp] at hended
    exact hended
  have hone : (Move.feed f).feed?.toList = [f] := rfl
  rw [feeds_concat, hone, Feed.offered_concat, List.any_append, hqueued, hcomplete, hp', hbooked]
  exact ⟨rfl, by simp⟩

/-- **What was queued is what was offered**, after one more move. -/
theorem fed_step {t t' : Transfer} {moves : List Move} (move : Move) (h : Fed moves t)
    (hstep : t.step move = some t') : Fed (moves ++ [move]) t' := by
  cases move with
  | writer outcome => exact fed_write h hstep
  | feed f =>
      rw [step, Option.some.injEq] at hstep
      rw [← hstep]
      exact fed_feed h f
  | stop =>
      rw [step, Option.some.injEq] at hstep
      have hsame : feeds (moves ++ [.stop]) = feeds moves := by
        rw [feeds_concat]
        exact List.append_nil _
      rw [← hstep]
      exact ⟨h.accounted, h.plain, by rw [hsame]; exact h.booked⟩

/-- A transfer of which nothing has happened yet. -/
def start (encoding : String) : Transfer := { source := .ofEncoding encoding }

theorem fed_start (encoding : String) : Fed [] (start encoding) where
  accounted := ⟨⟨[], nofun, rfl, rfl⟩, fun _ => rfl, trivial⟩
  plain := ⟨_, rfl⟩
  booked _ := ⟨rfl, rfl⟩

/-- So it is after any moves, by induction on them. -/
theorem fed_run {encoding : String} {moves : List Move} {t : Transfer}
    (h : (start encoding).run moves = some t) : Fed moves t :=
  run_induction fed_step (fed_start encoding) h

/-- **What a streamed body delivers.** Another task pushes some data and then finishes, while the
writer takes its steps in between. If the writer ends production well, the body on the wire reads
back as what was pushed, in order, but for the bytes that the queue still holds when production
ends. These are the bytes that were pushed after the writer last asked how many there are, so
nothing is lost exactly if there are none. -/
theorem delivered_iff_unseen_eq_nil {encoding : String} {pushes : List Bytes} {moves : List Move}
    {t : Transfer} {w : Writer} (hrun : (start encoding).run moves = some t)
    (hfeeds : feeds moves <+: pushes.map .push ++ [.finish]) (hw : t.writer = some w)
    (hended : w.stage = .endingWell ∨ w.stage = .finished) :
    (∃ delivered, Chunk.decode t.wire = some (delivered, []) ∧
      delivered ++ t.source.queue.buffer = pushes.flatten ∧ t.source.queue.buffer = t.unseen) ∧
    ((Chunk.decode t.wire = some (pushes.flatten, []) ∧ t.source.queue.buffer = []) ↔
      t.unseen = []) := by
  have hfed := fed_run hrun
  -- The last stages rely on a complete queue that holds just the unseen bytes.
  have hlast : t.source.queue.complete = true ∧ t.source.queue.buffer = t.unseen ∧
      w.stage.closed = true ∧ w.stage.written = 0 := by
    rcases hended with hstage | hstage
    · have hground := (hfed.accounted.balanced hw hstage).grounded
      exact ⟨hground.1, hground.2, by rw [hstage]; rfl, by rw [hstage]; rfl⟩
    · have hground := (hfed.accounted.balanced hw hstage).grounded
      exact ⟨hground.1, hground.2, by rw [hstage]; rfl, by rw [hstage]; rfl⟩
  obtain ⟨hcomplete, hunseen, hclosed, hwritten⟩ := hlast
  have hwell : ∀ e, t.current.stage ≠ .failed e := by
    intro e hfailed
    rw [current, hw, Option.getD_some] at hfailed
    rw [hfailed] at hclosed
    cases hclosed
  obtain ⟨hqueued, hends⟩ := hfed.booked hwell
  -- The source is complete, so the other task has finished, and has pushed everything before.
  have hall : feeds moves = pushes.map .push ++ [.finish] := by
    rcases List.prefix_concat_iff.1 hfeeds with hall | hshort
    · exact hall
    · rw [hcomplete, Feed.ends_of_mem_pushes hshort] at hends
      cases hends
  rw [hall, Feed.offered_pushes] at hqueued
  obtain ⟨pieces, hne, hwire, hsum⟩ := (hfed.accounted.balanced hw rfl).framed
  rw [hclosed, if_pos rfl] at hwire
  rw [hwritten, List.drop_zero, hqueued] at hsum
  have hdecode : Chunk.decode t.wire = some (pieces.flatten, []) := by
    have hread := Chunk.decode_chunks hne []
    rw [List.append_nil] at hread
    rw [hwire]
    exact hread
  refine ⟨⟨pieces.flatten, hdecode, hsum, hunseen⟩, ?_⟩
  constructor
  · rintro ⟨_, hnone⟩
    rw [← hunseen, hnone]
  · intro hnone
    have hempty : t.source.queue.buffer = [] := by rw [hunseen, hnone]
    rw [hempty, List.append_nil] at hsum
    exact ⟨by rw [hdecode, hsum], hempty⟩

/-- The writer makes some steps, and none of its writes fails. -/
def stepsOfWriter (count : Nat) : List Move := List.replicate count (.writer (.ok ()))

/-- One byte is pushed before the writer looks for bytes, and the other task finishes while the
writer sends it. -/
def pushedInTime : List Move :=
  stepsOfWriter 2 ++ [.feed (.push [0x78])] ++ stepsOfWriter 3 ++ [.feed .finish] ++ stepsOfWriter 5

/-- A byte that is pushed before the writer looks is delivered. -/
theorem delivered_pushedInTime :
    ∃ t w, (start "").run pushedInTime = some t ∧ t.writer = some w ∧ w.stage = .endingWell ∧
      feeds pushedInTime = [[0x78]].map .push ++ [.finish] ∧ t.unseen = [] ∧
      Chunk.decode t.wire = some ([0x78], []) ∧ t.source.queue.buffer = [] := by
  refine ⟨_, _, rfl, rfl, rfl, rfl, rfl, ?_⟩
  have hfeeds : feeds pushedInTime <+: [[0x78]].map .push ++ [.finish] := List.prefix_refl _
  exact (delivered_iff_unseen_eq_nil rfl hfeeds rfl (.inl rfl)).2.2 rfl

/-- One byte is pushed, and the other task finishes, between the moment at which the writer finds no
bytes and the moment at which it asks whether more will come. -/
def pushedBetweenLooks : List Move :=
  stepsOfWriter 3 ++ [.feed (.push [0x78]), .feed .finish] ++ stepsOfWriter 2

/-- **A body can lose bytes.** No write fails and the connection lives, and yet the writer ends
production well with a byte in the queue that is not on the wire. -/
theorem lost_pushedBetweenLooks :
    ∃ t w, (start "").run pushedBetweenLooks = some t ∧ t.writer = some w ∧
      w.stage = .endingWell ∧ feeds pushedBetweenLooks = [[0x78]].map .push ++ [.finish] ∧
      t.alive = true ∧ Chunk.decode t.wire = some ([], []) ∧ t.source.queue.buffer = [0x78] := by
  refine ⟨_, _, rfl, rfl, rfl, rfl, rfl, ?_, rfl⟩
  exact Chunk.decode_lastChunk_append []

end Transfer

end HttpServer
