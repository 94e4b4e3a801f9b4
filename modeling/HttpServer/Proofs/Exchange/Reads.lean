import HttpServer.Proofs.Connection.Arrivals
import HttpServer.Proofs.Exchange.Performing
import HttpServer.Proofs.Request.Segmentation

/-!
# Reading, one read after another

A read takes bytes from the front of what the transport delivers, or it fails and takes none
(`Serving.brings_read`). It looks neither at the files nor at the request
(`Serving.exec_read_bearing`), so what successive reads bring does not depend on what is done with
the bytes in between (`Serving.Reads`). Reading a header is such a sequence of reads. It ends with
the reader that the whole stream leads to when it comes in one piece, but for the bytes that were
not read yet (`Serving.run_of_exec_readHeader`).
-/

namespace HttpServer

namespace Exchange

variable {ν : Type}

/-- A read asks for at least one byte. -/
theorem readSize_pos (e : Exchange ν) : 0 < e.readSize :=
  Nat.lt_of_lt_of_le Nat.zero_lt_one (Nat.le_max_right _ _)

/-- The exchange with these files and this request. -/
def bearing (e : Exchange ν) (files : FileTree) (request : Option Request) : Exchange ν :=
  { e with files, request }

/-- Waiting takes nothing from the transport. -/
theorem Waits.content {e later : Exchange ν} (h : e.Waits later) :
    later.incoming.content = e.incoming.content :=
  congrArg Incoming.content h.toSends.incoming

section Bearing

variable (e : Exchange ν) (files : FileTree) (request : Option Request)

/-- Neither files nor request matter to the tasks that stop the connection. -/
theorem checkpoint_bearing :
    (e.bearing files request).checkpoint = e.checkpoint.bearing files request := by
  unfold checkpoint
  dsimp only [bearing]
  split <;> rfl

theorem signal_bearing (s : Signal FeedTag) :
    (e.bearing files request).signal s = (e.signal s).bearing files request := by
  unfold signal
  dsimp only [bearing]
  split <;> rfl

theorem feed_bearing (f : Feed) :
    (e.bearing files request).feed f = (e.feed f).bearing files request := by
  have hsignals (signals : List (Signal FeedTag)) (e : Exchange ν) :
      signals.foldl signal (e.bearing files request) =
        (signals.foldl signal e).bearing files request :=
    List.foldl_hom (fun e : Exchange ν => e.bearing files request)
      fun e s => e.signal_bearing files request s
  unfold feed
  dsimp only [bearing]
  split
  · rfl
  rename_i stream _
  have hfed := hsignals (stream.source.feed f).2.1
    (e.changeStream fun old => { old with source := (stream.source.feed f).1 })
  dsimp only [changeStream, bearing] at hfed ⊢
  rw [hfed]
  split <;> rfl

/-- Nothing that happens while one waits looks at the files or at the request. -/
theorem undergo_bearing (o : Occurrence) :
    (e.bearing files request).undergo o = (e.undergo o).bearing files request := by
  cases o with
  | clearRegistry => rfl
  | feed batch =>
      exact List.foldl_hom (fun e : Exchange ν => e.bearing files request)
        fun e f => e.feed_bearing files request f

end Bearing

end Exchange

namespace Serving

open Exchange

variable {ν : Type}

/-! ## A single read -/

theorem exec_await (ready : Exchange ν → Bool) (deadline : Option Nat) (e : Exchange ν) :
    exec (await ready deadline) e = awaitAmong ready deadline e.agenda e := rfl

/-- **One round of a read**: the connection may be stopped, bytes may be there, or the read has
failed or has to wait. -/
theorem exec_readBy_succ (deadline : Option Nat) (rounds : Nat) (e : Exchange ν) :
    exec (readBy deadline (rounds + 1)).run e =
      if e.checkpoint.isStopped then (some (.error .aborted), e.checkpoint)
      else
        let found := e.checkpoint.incoming.poll e.checkpoint.readSize e.checkpoint.now
        let e := { e.checkpoint with incoming := found.1 }
        match found.2 with
        | .bytes [] => (some (.error .closed), e)
        | .bytes data => (some (.ok data), e)
        | .failure failure => (some (.error (.io failure)), e)
        | .later due =>
          match awaitAmong isStopped (earlier due deadline) e.agenda e with
          | (none, later) => (none, later)
          | (some .fulfilled, later) => (some (.error .aborted), later)
          | (some .expired, later) =>
            if due.any (· ≤ later.now) then exec (readBy deadline rounds).run later
            else (some (.error .timedOut), later.markTimedOut) := by
  rw [readBy, exec_ebind, exec_emodify]
  dsimp only
  rw [exec_ebind, exec_eget]
  dsimp only
  split
  · rfl
  generalize e.checkpoint.incoming.poll e.checkpoint.readSize e.checkpoint.now = found
  obtain ⟨incoming, delivery⟩ := found
  dsimp only
  rw [exec_ebind, exec_eset]
  dsimp only
  have hagenda : e.checkpoint.agenda = ({ e.checkpoint with incoming } : Exchange ν).agenda := rfl
  rw [hagenda]
  generalize ({ e.checkpoint with incoming } : Exchange ν) = polled
  rcases delivery with ⟨_ | ⟨first, rest⟩⟩ | failure | due
  · rfl
  · rfl
  · rfl
  dsimp only
  rw [exec_ebind, exec_liftM, exec_await]
  rcases awaitAmong isStopped (earlier due deadline) polled.agenda polled with ⟨_ | _ | _, later⟩
  · rfl
  · rfl
  dsimp only [Option.map_some]
  rw [exec_ebind, exec_eget]
  dsimp only
  split
  · rfl
  · rfl

/-- A read has as many rounds as the transport has arrivals, and one more. -/
theorem exec_read (e : Exchange ν) :
    exec read.run e = exec (readBy e.readDeadline (e.incoming.script.length + 1)).run e := by
  rw [read, exec_ebind, exec_eget]

/-- **What a read brings** from a stream that has these bytes to deliver: some of them from the
front, the news that there are none, or nothing, and then they can still be read. -/
inductive Brings (content : Bytes) : Option (Except ConnectionError Bytes) × Exchange ν → Prop
  | data {data : Bytes} {later : Exchange ν} (hdata : data ≠ [])
      (hcontent : content = data ++ later.incoming.content) :
      Brings content (some (.ok data), later)
  | closed {later : Exchange ν} (hnone : content = []) :
      Brings content (some (.error .closed), later)
  | fails {later : Exchange ν} (failure : IoError) (hnone : content = []) :
      Brings content (some (.error (.io failure)), later)
  | aborted {later : Exchange ν} (hkept : later.incoming.content = content) :
      Brings content (some (.error .aborted), later)
  | timedOut {later : Exchange ν} (hkept : later.incoming.content = content) :
      Brings content (some (.error .timedOut), later)
  | hangs {later : Exchange ν} (hkept : later.incoming.content = content) :
      Brings content (none, later)

/-- **A read takes bytes from the front** of what the transport delivers, by induction on its
rounds. -/
theorem brings_readBy (deadline : Option Nat) (rounds : Nat) (e : Exchange ν) :
    Brings e.incoming.content (exec (readBy deadline rounds).run e) := by
  induction rounds generalizing e with
  | zero =>
      have hkept := Waits.content (moves_never (α := Except ConnectionError Bytes) e)
      have hnever := exec_never (α := Except ConnectionError Bytes) e
      change Brings e.incoming.content (exec never e)
      rcases h : exec never e with ⟨outcome, later⟩
      rw [h] at hkept hnever
      cases hnever
      exact .hangs hkept
  | succ rounds ih =>
      rw [exec_readBy_succ]
      have hcheck := Waits.content e.waits_checkpoint
      rw [← hcheck]
      generalize e.checkpoint = e
      split
      · exact .aborted rfl
      have hfinds := e.incoming.finds_poll e.readSize_pos e.now
      generalize e.incoming.poll e.readSize e.now = found at hfinds ⊢
      cases hfinds with
      | @bytes _ data hdata hcontent =>
          cases data with
          | nil => exact absurd rfl hdata
          | cons first rest => exact .data hdata hcontent
      | ends hnone => exact .closed hnone
      | fails failure hnone => exact .fails failure hnone
      | @pauses incoming due hsame =>
          dsimp only
          rw [← hsame]
          have hkept := Waits.content (waits_awaitAmong isStopped (earlier due deadline) e.agenda
            { e with incoming })
          generalize
            awaitAmong isStopped (earlier due deadline) e.agenda { e with incoming } = waited
            at hkept ⊢
          obtain ⟨_ | _ | _, later⟩ := waited
          · exact .hangs hkept
          · exact .aborted hkept
          dsimp only at hkept ⊢
          split
          · rw [← hkept]
            exact ih later
          · exact .timedOut hkept

/-- **No read loses or invents a byte.** -/
theorem brings_read (e : Exchange ν) : Brings e.incoming.content (exec read.run e) := by
  rw [exec_read]
  exact brings_readBy _ _ e

/-- A read that succeeds brings something. -/
theorem ne_nil_of_exec_read {e later : Exchange ν} {data : Bytes}
    (h : exec read.run e = (some (.ok data), later)) : data ≠ [] := by
  have hbrings := brings_read e
  rw [h] at hbrings
  cases hbrings with
  | data hdata _ => exact hdata

/-- What a read brings and what it leaves is what there was. -/
theorem content_of_exec_read {e later : Exchange ν} {data : Bytes}
    (h : exec read.run e = (some (.ok data), later)) :
    e.incoming.content = data ++ later.incoming.content := by
  have hbrings := brings_read e
  rw [h] at hbrings
  cases hbrings with
  | data _ hcontent => exact hcontent

/-- A read that fails by itself finds nothing left to read. -/
theorem content_eq_nil_of_exec_read {e later : Exchange ν} {failure : ConnectionError}
    (h : exec read.run e = (some (.error failure), later)) (haborted : failure ≠ .aborted)
    (htimedOut : failure ≠ .timedOut) : e.incoming.content = [] := by
  have hbrings := brings_read e
  rw [h] at hbrings
  cases hbrings with
  | closed hnone => exact hnone
  | fails _ hnone => exact hnone
  | aborted _ => exact absurd rfl haborted
  | timedOut _ => exact absurd rfl htimedOut

/-! ## Reading looks neither at the files nor at the request -/

section Bearing

variable (files : FileTree) (request : Option Request)

/-- Running out of time is the same for any files and request. -/
theorem expire_bearing (deadline : Option Nat) (e : Exchange ν) :
    expire deadline (e.bearing files request) =
      ((expire deadline e).1, (expire deadline e).2.bearing files request) := by
  unfold expire
  split
  · split <;> rfl
  · rfl

/-- Waiting looks at neither, if what is waited for does not, by induction on what is due. -/
theorem awaitAmong_bearing (ready : Exchange ν → Bool)
    (hready : ∀ e : Exchange ν, ready (e.bearing files request) = ready e) (deadline : Option Nat)
    (agenda : List (Nat × Occurrence)) (e : Exchange ν) :
    awaitAmong ready deadline agenda (e.bearing files request) =
      ((awaitAmong ready deadline agenda e).1,
        (awaitAmong ready deadline agenda e).2.bearing files request) := by
  induction agenda generalizing e with
  | nil =>
      rw [awaitAmong, awaitAmong, hready]
      split
      · rfl
      · exact expire_bearing files request deadline e
  | cons entry agenda ih =>
      rw [awaitAmong, awaitAmong, hready]
      split
      · rfl
      split
      · exact expire_bearing files request deadline e
      split
      · rfl
      · have hundergo := undergo_bearing (({ e with agenda }).passTo entry.1) files request entry.2
        exact (congrArg _ hundergo).trans (ih _)

/-- Reading looks at neither, by induction on its rounds. -/
theorem exec_readBy_bearing (deadline : Option Nat) (rounds : Nat) (e : Exchange ν) :
    exec (readBy deadline rounds).run (e.bearing files request) =
      ((exec (readBy deadline rounds).run e).1,
        (exec (readBy deadline rounds).run e).2.bearing files request) := by
  induction rounds generalizing e with
  | zero =>
      change exec never _ = ((exec never e).1, (exec never e).2.bearing files request)
      rw [never, exec_bind, exec_bind, exec_await, exec_await,
        awaitAmong_bearing files request _ (fun _ => rfl)]
      have hagenda : (e.bearing files request).agenda = e.agenda := rfl
      rw [hagenda]
      rcases awaitAmong (fun _ => false) none e.agenda e with ⟨_ | _, later⟩
      · rfl
      · rfl
  | succ rounds ih =>
      rw [exec_readBy_succ, exec_readBy_succ, checkpoint_bearing]
      generalize e.checkpoint = e
      have hstopped : (e.bearing files request).isStopped = e.isStopped := rfl
      rw [hstopped]
      split
      · rfl
      have hpoll : (e.bearing files request).incoming.poll (e.bearing files request).readSize
          (e.bearing files request).now = e.incoming.poll e.readSize e.now := rfl
      rw [hpoll]
      rcases e.incoming.poll e.readSize e.now with ⟨incoming, ⟨_ | ⟨first, rest⟩⟩ | failure | due⟩
      · rfl
      · rfl
      · rfl
      dsimp only
      have hawait := awaitAmong_bearing files request isStopped (fun _ => rfl)
        (earlier due deadline) e.agenda { e with incoming }
      dsimp only [bearing] at hawait ⊢
      rw [hawait]
      rcases awaitAmong isStopped (earlier due deadline) e.agenda { e with incoming } with
        ⟨_ | _ | _, later⟩
      · rfl
      · rfl
      dsimp only
      split
      · exact ih later
      · rfl

/-- **Reading looks neither at the files nor at the request** of the exchange. -/
theorem exec_read_bearing (e : Exchange ν) :
    exec read.run (e.bearing files request) =
      ((exec read.run e).1, (exec read.run e).2.bearing files request) := by
  rw [exec_read, exec_read]
  exact exec_readBy_bearing files request _ _ e

end Bearing

/-! ## Successive reads -/

/-- **Reads that succeed one after another**, what each of them brings, and the exchange that the
last one leaves behind. -/
inductive Reads : Exchange ν → List Bytes → Exchange ν → Prop
  | none (e : Exchange ν) : Reads e [] e
  | next {e mid last : Exchange ν} {data : Bytes} {chunks : List Bytes}
      (hread : exec read.run e = (some (.ok data), mid)) (hrest : Reads mid chunks last) :
      Reads e (data :: chunks) last

/-- **What successive reads bring** and what is left is all that the transport delivers. -/
theorem Reads.content {e last : Exchange ν} {chunks : List Bytes} (h : Reads e chunks last) :
    e.incoming.content = chunks.flatten ++ last.incoming.content := by
  induction h with
  | none e => rfl
  | next hread hrest ih =>
      rw [content_of_exec_read hread, ih, List.flatten_cons, List.append_assoc]

/-- Reads that go on for as long as reads succeed start with all reads that can be made. -/
theorem Reads.isPrefix {e last final : Exchange ν} {chunks all : List Bytes}
    (h : Reads e chunks last) (hall : Reads e all final)
    (hlast : ∀ data later, exec read.run final ≠ (some (.ok data), later)) : chunks <+: all := by
  induction h generalizing all with
  | none e => exact List.nil_prefix
  | next hread hrest ih =>
      cases hall with
      | none => exact absurd hread (hlast _ _)
      | next hread' hrest' =>
          cases hread.symm.trans hread'
          exact List.cons_prefix_cons.2 ⟨rfl, ih hrest'⟩

/-- Reads that were made are among all reads that can be made. -/
theorem Reads.length_le {e last final : Exchange ν} {chunks all : List Bytes} (inHand : Bytes)
    (h : Reads e chunks last) (hall : Reads e all final)
    (hlast : ∀ data later, exec read.run final ≠ (some (.ok data), later)) :
    (inHand ++ chunks.flatten).length ≤ (inHand ++ all.flatten).length := by
  obtain ⟨rest, rfl⟩ := h.isPrefix hall hlast
  rw [List.flatten_append, ← List.append_assoc]
  exact (List.prefix_append _ _).length_le

/-- Nobody stops the connection, and the stream brings bytes until it ends. -/
structure Undisturbed (e : Exchange ν) : Prop where
  running : e.isStopped = false
  uncut : e.cutOff = none
  bytes : e.incoming.OnlyBytes

/-- An undisturbed transport that has anything left delivers it. -/
theorem Undisturbed.exists_read {e : Exchange ν} (h : Undisturbed e)
    (hsome : e.incoming.script ≠ []) :
    ∃ data later, exec read.run e = (some (.ok data), later) ∧ Undisturbed later := by
  have hcheck : e.checkpoint = e := by
    rw [checkpoint, h.uncut]
  obtain ⟨incoming, data, hdata, hpoll, hlater⟩ :=
    h.bytes.exists_poll hsome e.readSize_pos e.now
  refine ⟨data, { e with incoming }, ?_, h.running, h.uncut, hlater⟩
  rw [exec_read, exec_readBy_succ, hcheck, h.running, hpoll]
  cases data with
  | nil => exact absurd rfl hdata
  | cons first rest => rfl

/-- **Without disturbance** reads bring all that the stream delivers. -/
theorem Undisturbed.exists_reads {e : Exchange ν} (h : Undisturbed e) :
    ∃ chunks last, Reads e chunks last ∧ chunks.flatten = e.incoming.content := by
  induction hlength : e.incoming.content.length using Nat.strongRecOn generalizing e with
  | ind length ih =>
      subst hlength
      by_cases hnone : e.incoming.script = []
      · refine ⟨[], e, .none e, ?_⟩
        rw [Incoming.content, hnone]
        rfl
      obtain ⟨data, mid, hread, hmid⟩ := h.exists_read hnone
      have hcontent := content_of_exec_read hread
      have hless : mid.incoming.content.length < e.incoming.content.length := by
        have hsome := List.length_pos_iff.2 (ne_nil_of_exec_read hread)
        rw [hcontent, List.length_append]
        omega
      obtain ⟨chunks, last, hreads, hflatten⟩ := ih _ hless hmid rfl
      refine ⟨data :: chunks, last, .next hread hreads, ?_⟩
      rw [hcontent, List.flatten_cons, hflatten]

/-! ## Reading a header -/

/-- Reads that complete a header have fed the reader what they brought. -/
theorem reads_of_exec_readHeaderWithin {reads : Nat} {reader final : HeaderReader}
    {e later : Exchange ν} (hopen : reader.isFinished = false)
    (h : exec (readHeaderWithin reads reader).run e = (some (.ok final), later)) :
    ∃ chunks, Reads e chunks later ∧
      (reader.extend chunks.flatten).run = (final, .ok .finished) := by
  induction reads generalizing reader e with
  | zero => exact absurd h not_exec_never
  | succ reads ih =>
      obtain ⟨data, mid, hdata, h⟩ := exists_of_exec_ebind h
      have hread := exec_of_exec_adapt hdata
      split at h
      · cases h
      · rename_i next hnext
        cases h
        exact ⟨[data], .next hread (.none _), by simpa using HeaderReader.run_of_feed hopen hnext⟩
      · rename_i next hnext
        have hrun := HeaderReader.run_of_feed hopen hnext
        have hopenNext : next.isFinished = false := by
          simpa using HeaderReader.isFinished_run hrun
        obtain ⟨chunks, hreads, hfinal⟩ := ih hopenNext h
        refine ⟨data :: chunks, .next hread hreads, ?_⟩
        rw [List.flatten_cons, HeaderReader.extend_append,
          HeaderReader.run_extend_of_needMoreData hrun, hfinal]

/-- **Where a header ends does not depend on the reads.** The reader of a header that was completed
is the one that the whole stream leads to, but for the bytes that can still be read. -/
theorem run_of_exec_readHeader {e later : Exchange ν} {reader : HeaderReader}
    (h : exec readHeader.run e = (some (.ok reader), later)) :
    ({ limits := e.settings.limits, buffer := e.incoming.content } : HeaderReader).run =
      (reader.extend later.incoming.content, .ok .finished) := by
  obtain ⟨_, _, hget, h⟩ := exists_of_exec_ebind h
  cases hget
  obtain ⟨chunks, hreads, hrun⟩ := reads_of_exec_readHeaderWithin rfl h
  rw [hreads.content]
  exact HeaderReader.run_extend_of_ne hrun (by simp) later.incoming.content

end Serving

end HttpServer
