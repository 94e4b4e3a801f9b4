import HttpServer.Proofs.Response.HeaderLines
import HttpServer.Proofs.Server.FailedHandlers

/-!
# Handlers that crash

A handler that panics, or that fails with something that no client is to see, is answered for: its
response is finished with status 500. The header that goes out is the one that the handler has been
editing. So the answer is a bare failure exactly if what the handler left in the header can be
written and tells of no body, or of an empty one (`Server.bareFailure_iff`,
`Server.crash_keeps_length`).
-/

namespace HttpServer

open Serving Exchange ResponseHeader

/-! ## Bare failures -/

namespace ResponseHeader

/-- **A bare failure** on the wire: this one header and nothing behind it. The first line tells of
an internal error, and the others announce a body of no bytes, once, and no coding of it. -/
structure BareFailure (h : ResponseHeader) (wire : Bytes) : Prop where
  framed : h.Framed wire
  read : readBack wire = some ("HTTP/" ++ h.version ++ " 500 Internal Server Error", h.lines)
  lengths : h.lengths = ["0"]
  codings : h.codings = []

/-- The header with which a crash is answered, made out of the one that the handler left. -/
def forCrash (left : ResponseHeader) : ResponseHeader := (left.setCode 500).announceNoBody

/-- What was left in a header lets a bare failure be made of it. -/
structure Harmless (left : ResponseHeader) : Prop where
  version : '\r' ∉ left.version.toList ∧ '\n' ∉ left.version.toList
  lines : ∀ line ∈ left.lines, LineFits line
  lengths : left.lengths = [] ∨ left.lengths = ["0"]
  codings : left.codings = []

variable (left : ResponseHeader)

/-- A crash leaves the version that the handler has set. -/
theorem version_forCrash : left.forCrash.version = left.version := by
  rcases announceNoBody_eq (left.setCode 500) with h | h
  · rw [forCrash, h]
    rfl
  · rw [forCrash, h]
    rfl

/-- Its message is the phrase of status 500. -/
theorem message_forCrash : left.forCrash.message = "Internal Server Error" := by
  rcases announceNoBody_eq (left.setCode 500) with h | h
  · rw [forCrash, h]
    rfl
  · rw [forCrash, h]
    rfl

theorem statusLine_forCrash :
    left.forCrash.statusLine =
      "HTTP/" ++ left.forCrash.version ++ " 500 Internal Server Error" := by
  have hcode : left.forCrash.code = 500 := code_announceNoBody _
  have hend : " " ++ (decimal 500 ++ (" " ++ "Internal Server Error")) =
      " 500 Internal Server Error" := by
    decide
  rw [statusLine, message_forCrash, hcode, String.append_assoc, String.append_assoc,
    String.append_assoc, hend]
  rfl

/-- Announcing that there is no body adds no line that could not be written. -/
theorem lineFits_forCrash_iff :
    (∀ line ∈ left.forCrash.lines, LineFits line) ↔ ∀ line ∈ left.lines, LineFits line := by
  rcases announceNoBody_eq (left.setCode 500) with h | h
  · rw [forCrash, h]
    rfl
  · have hadded : LineFits ("Content-Length", "0") := ⟨by decide, by decide⟩
    rw [forCrash, h]
    simp only [lines, List.mem_append, List.mem_singleton, or_imp, forall_and, forall_eq, hadded,
      and_true]
    rfl

/-- The header for a crash can be written exactly if the lines of the handler can. -/
theorem fault?_forCrash_eq_none_iff :
    left.forCrash.fault? = none ↔ ∀ line ∈ left.lines, LineFits line := by
  have hmessage : '\r' ∉ "Internal Server Error".toList ∧
      '\n' ∉ "Internal Server Error".toList := by
    decide
  rw [fault?_eq_none_iff, message_forCrash, lineFits_forCrash_iff]
  exact and_iff_right hmessage

/-- Which body is announced in answer to a crash. -/
theorem announces_forCrash_iff : (left.forCrash.lengths = ["0"] ∧ left.forCrash.codings = []) ↔
    (left.lengths = [] ∨ left.lengths = ["0"]) ∧ left.codings = [] := by
  have hmade : MadeFor 0 (left.setCode 500) left.forCrash := madeFor_announceNoBody _
  have hcodings : left.forCrash.codings = left.codings := hmade.codings
  rw [hcodings]
  refine and_congr_left fun hnone => ?_
  by_cases hlengths : left.lengths = []
  · have hfresh := hmade.fresh ⟨hlengths, hnone⟩
    rw [forCrash, code_announceNoBody] at hfresh
    exact iff_of_true hfresh (.inl hlengths)
  · have hkept : left.forCrash.lengths = left.lengths := hmade.kept hlengths
    rw [hkept]
    exact (or_iff_right hlengths).symm

/-- **When the answer to a crash is a bare failure.** -/
theorem bareFailure_forCrash_iff :
    left.forCrash.BareFailure (left.forCrash.writeTo []).1 ↔ left.Harmless := by
  cases hfault : left.forCrash.fault? with
  | some fault =>
      -- The header is refused, and then nothing is on the wire.
      rw [writeTo_nil_of_fault hfault]
      refine iff_of_false (fun hbare => ?_) fun hharmless => ?_
      · obtain ⟨lines, _, _, hwire⟩ := hbare.framed
        exact absurd hwire.symm (List.append_ne_nil_of_right_ne_nil _ (List.cons_ne_nil _ _))
      · cases hfault.symm.trans (left.fault?_forCrash_eq_none_iff.2 hharmless.lines)
  | none =>
      have hframed := framed_toBytes_iff hfault
      rw [statusLine_forCrash, version_forCrash] at hframed
      rw [writeTo_nil_of_fits hfault]
      constructor
      · rintro ⟨hshape, hread, hlengths, hcodings⟩
        rw [version_forCrash] at hread
        obtain ⟨hleft, hnone⟩ := left.announces_forCrash_iff.1 ⟨hlengths, hcodings⟩
        exact ⟨hframed.1 ⟨hshape, hread⟩, left.fault?_forCrash_eq_none_iff.1 hfault, hleft, hnone⟩
      · rintro ⟨hversion, _, hleft, hnone⟩
        obtain ⟨hshape, hread⟩ := hframed.2 hversion
        obtain ⟨hlengths, hcodings⟩ := left.announces_forCrash_iff.2 ⟨hleft, hnone⟩
        exact ⟨hshape, by rw [version_forCrash]; exact hread, hlengths, hcodings⟩

end ResponseHeader

/-! ## Handlers that only edit the header -/

namespace Action

variable {ν α : Type}

/-- The program does nothing but change the header of the response. -/
def Edits (p : Action ν α) : Prop := p.Only fun op => ∃ c, op = .change c

/-- **All that comes of editing** is another header. -/
theorem Edits.exec_run {p : Action ν α} (h : p.Edits) (e : Exchange ν) :
    ∃ outcome changes,
      exec p.run e = (some outcome, e.changeHeader (HeaderChange.applyAll changes)) := by
  induction p generalizing e with
  | done a => exact ⟨some a, [], rfl⟩
  | panic => exact ⟨none, [], rfl⟩
  | perform op next ih =>
      -- The first change is made, and the rest of the program goes on behind it.
      obtain ⟨⟨c, rfl⟩, hnext⟩ := h
      obtain ⟨outcome, changes, hrest⟩ := ih () (hnext ()) (e.changeHeader c.apply)
      refine ⟨outcome, c :: changes, ?_⟩
      rw [exec_run_perform]
      exact hrest

end Action

/-! ## The answer to a crash -/

namespace Server

variable {ν : Type}

/-- A handler that came to this end has crashed: it panicked, or it failed with something that is
not shown. -/
inductive Crashes (s : Server ν) : Option (Except HandlerError Unit) → Prop
  | panic : s.Crashes none
  | failure (reason : String) (hhidden : s.settings.exposeFailures = false) :
      s.Crashes (some (.error (.other reason)))

/-- Every crash is answered in the same way. -/
theorem Crashes.settle_eq {s : Server ν} {outcome : Option (Except HandlerError Unit)}
    (h : s.Crashes outcome) : s.settle outcome = s.sendInternalError .finish := by
  cases h with
  | panic => rfl
  | failure reason hhidden =>
      rw [settle, handlerFailed, hhidden]
      rfl

/-- The connection of an exchange that a handler finds is registered, or it was stopped. -/
theorem Admits.isServed {s : Server ν} {e admitted : Exchange ν} {handler : Handler ν}
    (h : s.Admits e handler admitted) (hserved : e.IsServed) : admitted.IsServed := by
  cases h with
  | @route reader found admitted route hread hfind hguard =>
      have hrouted : (routed (found.bind reader) route).IsServed :=
        (moves_readHeader.exec hread).isServed hserved
      have hevolves := s.guard.run.evolves_run (routed (found.bind reader) route)
      rw [hguard] at hevolves
      exact hevolves.isServed hrouted
  | missing hread => exact (moves_readHeader.exec hread).isServed hserved

/-- Where nothing stands in the way of writing, a header is on the wire unless it cannot be
written. -/
theorem written_sendHeader {e : Exchange ν} (h : e.Writable)
    (hunsent : e.response.headerSent = false) :
    ∃ result later, exec sendHeader.run e = (some result, later) ∧
      later.outgoing.written = e.outgoing.written ++ (e.response.header.writeTo []).1 := by
  cases hfault : e.response.header.fault? with
  | none =>
      rw [h.exec_sendHeader hunsent hfault, writeTo_nil_of_fits hfault]
      exact ⟨_, _, rfl, written_deliver_of_acceptsAll h.markHeaderSent.accepts _⟩
  | some fault =>
      rw [exec_sendHeader_of_fault hunsent hfault, writeTo_nil_of_fault hfault]
      exact ⟨_, _, rfl, (List.append_nil _).symm⟩

/-- Finishing writes the header, or nothing of it. -/
theorem written_finish {e : Exchange ν} (h : e.Writable) (hunsent : e.response.headerSent = false) :
    ∃ result later, exec finish.run e = (some result, later) ∧
      later.outgoing.written =
        e.outgoing.written ++ (e.response.header.announceNoBody.writeTo []).1 := by
  obtain ⟨result, mid, hsend, hwritten⟩ :=
    written_sendHeader (h.changeHeader fun header => header.announceNoBody) hunsent
  rw [exec_finish, if_neg (by simp [hunsent]), hsend]
  exact ⟨result, _, rfl, (outgoing_shutDown mid).trans hwritten⟩

/-- Behind a response that was finished nothing more goes on the wire, whatever the error hook
does. -/
theorem written_of_finish {s : Server ν} {e later : Exchange ν} {result : Except SendError Unit}
    (hserved : e.IsServed) (hfinish : exec finish.run e = (some result, later))
    (next : Unit → Action ν Unit) :
    (exec ((s.send .finish).bind next).run e).2.outgoing.written = later.outgoing.written := by
  have hrespond : exec (respond .finish).run e = (some result, later) := hfinish
  obtain ⟨rest, hrest⟩ : ∃ rest : Action ν Unit,
      exec (s.send .finish).run e = exec rest.run later := by
    rw [exec_send, hrespond]
    cases result with
    | ok _ => exact ⟨pure (), rfl⟩
    | error failure => exact ⟨s.reportSend failure, rfl⟩
  -- The connection is stopped by then, so what is left to run is silent whatever it is.
  rw [Action.exec_run_bind, hrest, ← Action.exec_run_bind]
  exact ((rest.bind next).evolves_run later).silent (isStopped_finish hserved hfinish)

/-- **The answer to a crash.** A handler crashed while its response was open and nothing stood in
the way of writing. Then the header that it left is all that is sent, with the status of a
failure. -/
theorem written_of_crash {s : Server ν} {e admitted crashed : Exchange ν} {handler : Handler ν}
    (hserved : e.IsServed) (hadmits : s.Admits e handler admitted)
    {outcome : Option (Except HandlerError Unit)}
    (hrun : exec handler.run.run admitted = (some outcome, crashed)) (hcrash : s.Crashes outcome)
    (hopen : crashed.hasConcluded = false) (hwritable : crashed.Writable) :
    (exec s.serve e).2.outgoing.written =
      crashed.outgoing.written ++ (crashed.response.header.forCrash.writeTo []).1 := by
  have hevolves := handler.run.evolves_run admitted
  rw [hrun] at hevolves
  have hfailed : (crashed.changeHeader fun h => h.setCode 500).IsServed :=
    hevolves.isServed (hadmits.isServed hserved)
  have hunsent : crashed.response.headerSent = false :=
    headerSent_of_not_hasConcluded (by simp [hopen])
  obtain ⟨result, later, hfinish, hwritten⟩ :=
    written_finish (hwritable.changeHeader fun h => h.setCode 500) hunsent
  have hsettle (next : Unit → Action ν Unit) :
      exec ((s.sendInternalError .finish).bind next).run crashed =
        exec ((s.send .finish).bind next).run (crashed.changeHeader fun h => h.setCode 500) := by
    rw [Action.exec_run_bind, exec_sendInternalError, if_neg (by simp [hopen]),
      ← Action.exec_run_bind]
  rw [exec_serve_of_admits hadmits, exec_servedBy_of_run hrun, written_release, hcrash.settle_eq,
    hsettle, written_of_finish hfailed hfinish, hwritten]
  rfl

/-- **Which crashes are answered by a bare failure.** A handler edits the header of its response in
any way and then crashes, on a connection that lives and whose peer takes all that is written. Then
one header is all that is sent, unless it cannot be written. It is made out of what the handler
left, and it is a bare failure exactly if that was harmless. -/
theorem bareFailure_iff {s : Server ν} {e admitted crashed : Exchange ν} {handler : Handler ν}
    (hserved : e.IsServed) (hadmits : s.Admits e handler admitted)
    (hopen : admitted.hasConcluded = false) (hwritable : admitted.Writable)
    (hedits : handler.run.Edits) {outcome : Option (Except HandlerError Unit)}
    (hrun : exec handler.run.run admitted = (some outcome, crashed)) (hcrash : s.Crashes outcome) :
    ∃ changes sent,
      crashed.response.header = HeaderChange.applyAll changes admitted.response.header ∧
      (exec s.serve e).2.outgoing.written = admitted.outgoing.written ++ sent ∧
      (sent = [] ∨ sent = crashed.response.header.forCrash.toBytes) ∧
      (crashed.response.header.forCrash.BareFailure sent ↔ crashed.response.header.Harmless) := by
  obtain ⟨_, changes, hedited⟩ := hedits.exec_run admitted
  obtain rfl : crashed = admitted.changeHeader (HeaderChange.applyAll changes) :=
    congrArg Prod.snd (hrun.symm.trans hedited)
  have hwritten := written_of_crash hserved hadmits hrun hcrash hopen (hwritable.changeHeader _)
  refine ⟨changes, _, rfl, hwritten, ?_, bareFailure_forCrash_iff _⟩
  cases hfault : (admitted.changeHeader
      (HeaderChange.applyAll changes)).response.header.forCrash.fault? with
  | none => exact .inr (by rw [writeTo_nil_of_fits hfault])
  | some fault => exact .inl (by rw [writeTo_nil_of_fault hfault])

/-- A handler that changes the header in this way and then panics. -/
def crashesAfter (c : HeaderChange) : Handling Unit Unit := do
  Action.change c
  ExceptT.lift .panic

/-- A handler that edits the header and crashes does only that. -/
theorem edits_crashesAfter (c : HeaderChange) : (crashesAfter c).run.Edits :=
  ⟨⟨c, rfl⟩, fun _ => trivial⟩

/-- A handler that sets a field of its own. -/
def tracing : Handling Unit Unit := crashesAfter (.setField "X-Trace" "7")

theorem harmless_tracing : (({} : ResponseHeader).setField "X-Trace" "7").Harmless where
  version := by decide
  lines line hline := by
    obtain rfl : line = ("X-Trace", "7") := List.mem_singleton.1 hline
    exact ⟨by decide, by decide⟩
  lengths := .inl (by decide)
  codings := by decide

/-- A crash behind a field that tells of no body is answered by a bare failure. -/
theorem bareFailure_tracing :
    (postServer tracing).Admits tornExchange tracing (reached tracing) ∧
      (({} : ResponseHeader).setField "X-Trace" "7").forCrash.BareFailure
        (exec (postServer tracing).serve tornExchange).2.outgoing.written := by
  have hserved : tornExchange.IsServed := isServed_accept _ _ _ _ _ _
  have hadmits := admits_postServer tracing
  have hopen : (reached tracing).hasConcluded = false := by decide +kernel
  have hwritable : (reached tracing).Writable :=
    ⟨⟨by decide +kernel, by decide +kernel⟩, by decide +kernel, by decide +kernel⟩
  have hstart : (reached tracing).outgoing.written = [] := by decide +kernel
  have hleft : (reached tracing).response.header = {} := by decide +kernel
  have hrun : exec tracing.run.run (reached tracing) =
      (some none, (reached tracing).changeHeader (HeaderChange.setField "X-Trace" "7").apply) := rfl
  obtain ⟨changes, sent, _, hwritten, _, hbare⟩ := bareFailure_iff hserved hadmits hopen hwritable
    (edits_crashesAfter _) hrun .panic
  have hheader : ((reached tracing).changeHeader
      (HeaderChange.setField "X-Trace" "7").apply).response.header =
        ({} : ResponseHeader).setField "X-Trace" "7" :=
    congrArg (fun header => header.setField "X-Trace" "7") hleft
  rw [hstart, List.nil_append] at hwritten
  rw [hheader, ← hwritten] at hbare
  exact ⟨hadmits, hbare.2 harmless_tracing⟩

/-- A handler that announces the body that it is about to send. -/
def announcing : Handling Unit Unit := crashesAfter (.setField "Content-Length" "5")

/-- **A crash keeps the length of a body** that is never sent. The client is told to wait for five
bytes, and nothing comes. -/
theorem crash_keeps_length :
    (postServer announcing).Admits tornExchange announcing (reached announcing) ∧
      (reached announcing).hasConcluded = false ∧ (reached announcing).Writable ∧
      announcing.run.Edits ∧ (exec announcing.run.run (reached announcing)).1 = some none ∧
      (exec (postServer announcing).serve tornExchange).2.outgoing.written =
        Utf8.ofString "HTTP/1.1 500 Internal Server Error\r\nContent-Length: 5\r\n\r\n" ∧
      ∀ h : ResponseHeader, ¬ h.BareFailure
        (exec (postServer announcing).serve tornExchange).2.outgoing.written := by
  have hwritten : (exec (postServer announcing).serve tornExchange).2.outgoing.written =
      Utf8.ofString "HTTP/1.1 500 Internal Server Error\r\nContent-Length: 5\r\n\r\n" := by
    decide +kernel
  have hread : readBack (Utf8.ofString
      "HTTP/1.1 500 Internal Server Error\r\nContent-Length: 5\r\n\r\n") =
        some ("HTTP/1.1 500 Internal Server Error", [("Content-Length", "5")]) := by
    decide +kernel
  refine ⟨admits_postServer _, by decide +kernel,
    ⟨⟨by decide +kernel, by decide +kernel⟩, by decide +kernel, by decide +kernel⟩,
    edits_crashesAfter _, by decide +kernel, hwritten, fun h hbare => ?_⟩
  have hheader := hbare.read
  rw [hwritten, hread] at hheader
  have hlines : [("Content-Length", "5")] = h.lines := congrArg Prod.snd (Option.some.inj hheader)
  have hlengths : h.lengths = ["5"] := by
    rw [lengths, values, ← hlines]
    decide
  exact absurd (hlengths.symm.trans hbare.lengths) (by decide)

end Server

end HttpServer
