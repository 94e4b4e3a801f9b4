import HttpServer.Proofs.Exchange.AnyPeer
import HttpServer.Proofs.Exchange.HeaderReading
import HttpServer.Proofs.Server.Handlers

/-!
# One exchange per connection

Whatever a peer sends and takes, and whatever the handlers of a server do, a connection that was
served is stopped and registered no more, at most one handler was run for it, and at most one header
went out. A request that cannot be read is answered with status 400 and told to the error hook, and
one that the peer does not finish is not answered at all (`Server.one_exchange`).
-/

namespace HttpServer

open Serving Exchange

/-! ## Programs that return -/

namespace Action

variable {ν α β : Type}

/-- Wherever it is run, the program does not panic. -/
def Returns (p : Action ν α) : Prop := ∀ e, (exec p.run e).1 ≠ some none

theorem returns_pure (a : α) : (pure a : Action ν α).Returns := by
  intro e
  exact nofun

/-- Programs in a row return if each does. -/
theorem returns_bind {p : Action ν α} {f : α → Action ν β} (hp : p.Returns)
    (hf : ∀ a, (f a).Returns) : (p >>= f).Returns := by
  intro e
  change (exec (p.bind f).run e).1 ≠ some none
  rw [exec_run_bind]
  have hfirst := hp e
  generalize exec p.run e = outcome at hfirst
  obtain ⟨_ | _ | a, later⟩ := outcome
  · exact nofun
  · exact absurd rfl hfirst
  · exact hf a later

/-- Operations do not panic. -/
theorem returns_ofOperation (op : Operation ν) : (ofOperation op).Returns := by
  intro e
  rw [exec_run_ofOperation]
  cases (exec (Serving.perform op) e).1 with
  | none => exact nofun
  | some reply => exact nofun

theorem returns_look : (look : Action ν View).Returns := returns_ofOperation .look

theorem returns_recover (p : Action ν α) : p.recover.Returns := by
  intro e
  rw [exec_run_recover]
  cases (exec p.run e).1 with
  | none => exact nofun
  | some result => exact nofun

/-- A program that does not answer withholds what it does. -/
theorem Only.withholds {p : Action ν α} (h : p.Only fun op => answers op = false) :
    Moves Withholds p.run := by
  induction p with
  | done a => exact moves_pure _
  | panic => exact moves_pure _
  | perform op next ih =>
      exact moves_bind (moves_perform_of_not_answers h.1) fun reply => ih reply (h.2 reply)

end Action

namespace Server

variable {ν : Type}

/-- The hooks and the session middleware do not panic. -/
structure HooksReturn (s : Server ν) : Prop where
  onError : ∀ handle failure, (s.onError handle failure).Returns
  onTimeout : s.onTimeout.Returns
  guard : s.guard.run.Returns

namespace HooksReturn

open HttpServer.Action

variable {s : Server ν} (h : s.HooksReturn)

include h

theorem report (e : HttpError) : (s.report e).Returns :=
  returns_bind returns_look fun _ => h.onError _ _

theorem reportSend (e : SendError) : (s.reportSend e).Returns := by
  unfold Server.reportSend
  split
  · exact returns_pure _
  · exact h.report _

theorem send (call : ResponseCall) : (s.send call).Returns := by
  refine returns_bind (returns_ofOperation (.respond call)) ?_
  intro reply
  cases reply with
  | ok _ => exact returns_pure _
  | error e => exact h.reportSend e

theorem sendUnlessConcluded (call : ResponseCall) : (s.sendUnlessConcluded call).Returns := by
  refine returns_bind returns_look ?_
  intro v
  split
  · exact h.send call
  · exact returns_pure _

theorem sendInternalError (call : ResponseCall) : (s.sendInternalError call).Returns := by
  refine returns_bind returns_look ?_
  intro v
  split
  · exact returns_bind (returns_ofOperation (.change _)) fun _ => h.send call
  · exact returns_pure _

/-- **A handler that failed is answered for** without a panic; the cases are those of its
failure. -/
theorem handlerFailed (e : HandlerError) : (s.handlerFailed e).Returns := by
  cases e with
  | status code => exact h.sendUnlessConcluded _
  | send e => exact h.reportSend e
  | other reason => exact h.sendInternalError _
  | body e =>
      change Returns (if _ then _ else _)
      split
      · exact returns_pure _
      refine returns_bind returns_look ?_
      intro v
      split
      · exact returns_pure _
      split
      · exact returns_bind (h.report _) fun _ => h.sendUnlessConcluded _
      · exact h.sendUnlessConcluded _

/-- **A handler may panic**: it is run to recover from that, and only hooks can do harm. -/
theorem invoke (handler : Handler ν) : (s.invoke handler).Returns := by
  refine returns_bind (returns_recover _) ?_
  intro outcome
  split
  · exact returns_pure _
  · exact h.handlerFailed _
  · exact h.sendInternalError _

/-- The middleware that guards the routes returns by assumption, and so does what is told of its
failure. -/
theorem permits : s.permits.Returns := by
  refine returns_bind h.guard ?_
  intro result
  split
  · exact returns_pure _
  · exact returns_bind (h.reportSend _) fun _ => returns_pure _

/-- Whatever route is found or missing, what is done for it returns. -/
theorem dispatch : s.dispatch.Returns := by
  refine returns_bind returns_look ?_
  intro v
  split
  · refine returns_bind (returns_ofOperation (.setParameters _)) ?_
    intro _
    refine returns_bind h.permits ?_
    intro permitted
    split
    · exact h.invoke _
    · exact returns_pure _
  · split
    · exact h.sendUnlessConcluded _
    · exact h.invoke _
    · exact h.sendUnlessConcluded _

/-- What is left unfinished is finished without a panic. -/
theorem answer : s.answer.Returns := by
  refine returns_bind h.dispatch ?_
  intro _
  refine returns_bind returns_look ?_
  intro v
  split
  · exact h.onTimeout
  · exact h.sendUnlessConcluded _

/-- A header that never got complete ends in a report, in an answer or in nothing. -/
theorem headerFailed (e : HttpError) : (s.headerFailed e).Returns := by
  unfold Server.headerFailed
  split
  · exact returns_bind (h.report _) fun _ => h.send _
  · exact h.onTimeout
  · exact returns_pure _
  · exact returns_pure _
  · exact h.report _

/-- **Serving a connection ends well** if it ends. -/
theorem serve (e : Exchange ν) : (exec s.serve e).1 ≠ some none := by
  have hrelease {p : Action ν Unit} (hp : p.Returns) (e : Exchange ν) :
      (exec (release p) e).1 ≠ some none := by
    have hreturns := hp e
    rw [exec_release]
    generalize exec p.run e = outcome at hreturns
    obtain ⟨_ | _ | _, later⟩ := outcome
    · exact nofun
    · exact absurd rfl hreturns
    · exact nofun
  rw [exec_serve]
  rcases exec readHeader.run e with ⟨_ | failure | reader, found⟩
  · exact nofun
  · exact hrelease (h.headerFailed failure) found
  · exact hrelease h.answer (found.bind reader)

end HooksReturn

/-! ## What is left of a connection -/

/-- A connection that was taken out of the registry is stopped. -/
theorem isStopped_of_exec_release {p : Action ν Unit} {e later : Exchange ν} (hserved : e.IsServed)
    (h : exec (release p) e = (some (some ()), later)) :
    later.isStopped = true ∧ later.connection = e.connection ∧
      later.registry.contains later.connection = false := by
  have hevolves := p.evolves_run e
  rw [exec_release] at h
  generalize exec p.run e = outcome at h hevolves
  obtain ⟨_ | _ | _, mid⟩ := outcome
  · cases h
  · cases h
  · cases h
    refine ⟨?_, hevolves.connection, mid.registry.contains_remove mid.connection⟩
    rw [isStopped_iff]
    exact Registry.isStopped_remove (hevolves.isServed hserved)

/-- **A connection that was served** is stopped and registered no more. -/
theorem isStopped_of_exec_serve {s : Server ν} {e later : Exchange ν} (hserved : e.IsServed)
    (h : exec s.serve e = (some (some ()), later)) :
    later.isStopped = true ∧ later.connection = e.connection ∧
      later.registry.contains later.connection = false := by
  have hread := moves_readHeader e
  rw [exec_serve] at h
  generalize exec readHeader.run e = outcome at h hread
  obtain ⟨_ | failure | reader, found⟩ := outcome
  · cases h
  · obtain ⟨hstopped, hsame, hgone⟩ := isStopped_of_exec_release (hread.isServed hserved) h
    exact ⟨hstopped, hsame.trans hread.connection, hgone⟩
  · have hbound : (found.bind reader).IsServed := hread.isServed hserved
    obtain ⟨hstopped, hsame, hgone⟩ := isStopped_of_exec_release hbound h
    exact ⟨hstopped, hsame.trans hread.connection, hgone⟩

/-! ## The wire of a connection -/

/-- The operations that serving a connection performs, in order. -/
def visits (s : Server ν) (e : Exchange ν) : List (Visit ν) :=
  match exec readHeader.run e with
  | (some (.ok reader), found) => s.answer.visits (found.bind reader)
  | (some (.error failure), found) => (s.headerFailed failure).visits found
  | (none, _) => []

/-- Taking the connection out of the registry puts nothing on the wire. -/
theorem spells_release (p : Action ν Unit) (e : Exchange ν) :
    Spells (p.visits e) e (exec (release p) e).2 := by
  have hspells := p.spells_run e
  rw [exec_release]
  generalize exec p.run e = outcome at hspells
  obtain ⟨_ | _ | _, later⟩ := outcome
  · exact hspells
  · exact hspells
  · exact ⟨hspells.resent, hspells.unsent, hspells.sent⟩

/-- **At most one header goes out** on a connection. -/
theorem spells_serve (s : Server ν) (e : Exchange ν) :
    Spells (s.visits e) e (exec s.serve e).2 := by
  have hread := moves_readHeader e
  rw [exec_serve, visits]
  generalize exec readHeader.run e = outcome at hread
  obtain ⟨_ | failure | reader, found⟩ := outcome
  · exact (Spells.nil found).of_withholds hread
  · exact (spells_release _ found).of_withholds hread
  · -- The request that the exchange is bound to is no part of the wire.
    obtain ⟨hresent, hunsent, hsent⟩ := spells_release s.answer (found.bind reader)
    have hbound : Spells (s.answer.visits (found.bind reader)) found
      (exec (release s.answer) (found.bind reader)).2 := ⟨hresent, hunsent, hsent⟩
    exact hbound.of_withholds hread

end Server

/-! ## Requests that cannot be read -/

namespace Exchange

variable {ν : Type}

/-- Nothing stands in the way of writing: the peer takes all that it is sent, and nobody has stopped
the connection or stops it as a use of it begins. -/
structure Writable (e : Exchange ν) : Prop where
  accepts : e.outgoing.AcceptsAll
  running : e.isStopped = false
  uncut : e.cutOff = none

namespace Writable

variable {e : Exchange ν} (h : e.Writable)

include h

/-- A write goes through as a whole. -/
theorem exec_transmit (data : Bytes) :
    exec (transmit data).run e = (some (.ok ()), e.deliver data) := by
  have hcheck : e.checkpoint = e := by
    rw [checkpoint, h.uncut]
  rw [exec_transmit_of_acceptsAll h.accepts, hcheck, if_neg (by simp [h.running])]

/-- Nothing stands in the way of the next write. -/
theorem deliver (data : Bytes) : (e.deliver data).Writable := ⟨h.accepts, h.running, h.uncut⟩

theorem changeHeader (change : ResponseHeader → ResponseHeader) :
    (e.changeHeader change).Writable :=
  ⟨h.accepts, h.running, h.uncut⟩

/-- The response may be concluded, the connection goes on. -/
theorem markHeaderSent : e.markHeaderSent.Writable :=
  ⟨h.accepts, (e.isStopped_modify (fun handle => handle.conclude.1) fun _ => rfl).trans h.running,
    h.uncut⟩

/-- A header without a fault goes out. -/
theorem exec_sendHeader (hunsent : e.response.headerSent = false)
    (hfault : e.response.header.fault? = none) :
    exec sendHeader.run e =
      (some (.ok ()), e.markHeaderSent.deliver e.response.header.toBytes) := by
  rw [sendHeader, exec_ebind, exec_eget]
  dsimp only
  rw [if_pos (by simp [hunsent]), ResponseHeader.writeTo, hfault]
  dsimp only
  rw [exec_ebind, exec_emodify]
  dsimp only
  rw [exec_adapt, List.nil_append, h.markHeaderSent.exec_transmit]
  rfl

/-- A body that can be announced is sent. -/
theorem exec_sendBody (mediaType : String) (body : Bytes)
    (hunsent : e.response.headerSent = false)
    (hfault : (headerOfBody e.response.header mediaType body).fault? = none) :
    (exec (sendBody mediaType body).run e).1 = some (.ok ()) := by
  have hheader := (h.changeHeader (headerOfBody · mediaType body)).exec_sendHeader hunsent hfault
  have hsent := (h.changeHeader (headerOfBody · mediaType body)).markHeaderSent.deliver
    (e.changeHeader (headerOfBody · mediaType body)).response.header.toBytes
  change (exec ((modify fun e => e.changeHeader (headerOfBody · mediaType body)) >>= fun _ =>
    sendHeader >>= fun _ => _).run e).1 = _
  rw [exec_ebind, exec_emodify]
  dsimp only
  rw [exec_ebind, hheader]
  dsimp only
  by_cases hbody : body = []
  · rw [if_neg (by simpa using hbody), exec_finish_of_headerSent rfl]
  · rw [if_pos hbody, exec_ebind, exec_adapt, hsent.exec_transmit]
    dsimp only [Option.map_some, Except.mapError]
    rw [exec_finish_of_headerSent rfl]

end Writable

end Exchange

namespace Server

variable {ν : Type}

/-- What a client is told whose request cannot be read. -/
def badRequest : Bytes :=
  Utf8.ofString ("HTTP/1.1 400 Bad Request\r\nContent-Type: text/plain; charset=utf-8\r\n" ++
    "Content-Length: 11\r\n\r\nBad Request")

/-- The answer to a request that cannot be read. -/
theorem exec_sendStatus_badRequest {e : Exchange ν} (h : e.Writable) (hfresh : e.response = {}) :
    ∃ later, exec (sendStatus 400).run e = (some (.ok ()), later) ∧
      later.outgoing.written = e.outgoing.written ++ badRequest := by
  have hchanged := h.changeHeader fun header => header.setCode 400
  have hheader : (e.changeHeader fun header => header.setCode 400).response.header =
      ({} : ResponseHeader).setCode 400 := by
    rw [Exchange.changeHeader, hfresh]
  have hunsent : (e.changeHeader fun header => header.setCode 400).response.headerSent = false := by
    rw [Exchange.changeHeader, hfresh]
  have hresult := hchanged.exec_sendBody plainTextType (Utf8.ofString (reasonPhrase 400)) hunsent
    (by rw [hheader]; decide +kernel)
  obtain ⟨sent, hwritten, _, hall, _⟩ := puts_sendBody plainTextType
    (Utf8.ofString (reasonPhrase 400)) (e.changeHeader fun header => header.setCode 400)
  rw [hall () hresult, if_neg (by simp [hunsent]), hheader] at hwritten
  have hstatus : exec (sendStatus 400).run e =
      exec (sendBody plainTextType (Utf8.ofString (reasonPhrase 400))).run
        (e.changeHeader fun header => header.setCode 400) := by
    rw [sendStatus, exec_ebind, exec_emodify]
    rfl
  have hbytes : (headerOfBody (({} : ResponseHeader).setCode 400) plainTextType
      (Utf8.ofString (reasonPhrase 400))).toBytes ++ Utf8.ofString (reasonPhrase 400) =
        badRequest := by
    decide +kernel
  refine ⟨_, by rw [hstatus, ← hresult], ?_⟩
  rw [hwritten, hbytes]
  rfl

/-- To report is to run the error hook. -/
theorem exec_report (s : Server ν) (failure : HttpError) (e : Exchange ν) :
    exec (s.report failure).run e = exec (s.onError e.handle failure).run e :=
  Action.exec_run_look_bind _ e

/-- What cannot be sent is reported. -/
theorem exec_send (s : Server ν) (call : ResponseCall) (e : Exchange ν) :
    exec (s.send call).run e = match exec (respond call).run e with
      | (some (.ok ()), later) => (some (some ()), later)
      | (some (.error failure), later) => exec (s.reportSend failure).run later
      | (none, later) => (none, later) := by
  change exec (Action.bind (Action.respond call).run _).run e = _
  rw [Action.exec_run_bind, Action.exec_run_respond]
  rcases exec (respond call).run e with ⟨_ | _ | _, later⟩ <;> rfl

/-- What fails to be a request is told to the error hook, and then it is answered. -/
theorem exec_headerFailed_of_refused {s : Server ν} {found told : Exchange ν} {failure : ParseError}
    (htold : exec (s.onError found.handle (.request failure)).run found =
      (some (some ()), told)) :
    exec (s.headerFailed (.request failure)).run found = exec (s.send (.status 400)).run told := by
  change exec (Action.bind (s.report _) fun _ => s.send (.status 400)).run found = _
  rw [Action.exec_run_bind, exec_report, htold]

/-- **A request that cannot be read** is told to the error hook, once, and answered with status
400. -/
theorem exec_serve_of_refused {s : Server ν} {e found told : Exchange ν} {failure : ParseError}
    (hread : exec readHeader.run e = (some (.error (.request failure)), found))
    (htold : exec (s.onError found.handle (.request failure)).run found = (some (some ()), told))
    (hquiet : (s.onError found.handle (.request failure)).Only fun op => answers op = false)
    (hwritable : told.Writable) (hfresh : e.response = {}) :
    exec s.serve e = (some (some ()), (exec (sendStatus 400).run told).2.unregister) ∧
      (exec s.serve e).2.outgoing.written = e.outgoing.written ++ badRequest := by
  have hwithholds : e.Withholds told :=
    IsTrans.trans _ _ _ (moves_readHeader.exec hread) (hquiet.withholds.exec htold)
  obtain ⟨later, hsent, hwritten⟩ :=
    exec_sendStatus_badRequest hwritable (hwithholds.response.trans hfresh)
  have hserve : exec s.serve e = (some (some ()), later.unregister) := by
    have hrespond : exec (respond (.status 400)).run told = (some (.ok ()), later) := hsent
    rw [exec_serve, hread]
    dsimp only
    rw [exec_release, exec_headerFailed_of_refused htold, exec_send, hrespond]
  rw [hserve, hsent]
  refine ⟨rfl, ?_⟩
  change later.outgoing.written = _
  rw [hwritten, hwithholds.outgoing]

/-- A request that cannot be read is answered with nothing if the connection was stopped before the
error hook was done. -/
theorem written_serve_of_stopped {s : Server ν} {e found told : Exchange ν} {failure : ParseError}
    (hread : exec readHeader.run e = (some (.error (.request failure)), found))
    (htold : exec (s.onError found.handle (.request failure)).run found = (some (some ()), told))
    (hquiet : (s.onError found.handle (.request failure)).Only fun op => answers op = false)
    (hstopped : told.isStopped = true) :
    (exec s.serve e).2.outgoing.written = e.outgoing.written := by
  have hwithholds : e.Withholds told :=
    IsTrans.trans _ _ _ (moves_readHeader.exec hread) (hquiet.withholds.exec htold)
  have hsilent := ((s.send (.status 400)).evolves_run told).silent hstopped
  rw [hwithholds.outgoing] at hsilent
  rw [exec_serve, hread]
  dsimp only
  rw [exec_release, exec_headerFailed_of_refused htold]
  generalize exec (s.send (.status 400)).run told = outcome at hsilent
  obtain ⟨_ | _ | _, later⟩ := outcome
  · exact hsilent
  · exact hsilent
  · exact hsilent

/-- **A request that the peer did not finish**, or whose connection was stopped, is not answered. -/
theorem exec_serve_of_unread {s : Server ν} {e found : Exchange ν} {failure : ConnectionError}
    (hread : exec readHeader.run e = (some (.error (.connection failure)), found))
    (hfailure : failure = .closed ∨ failure = .aborted) :
    exec s.serve e = (some (some ()), found.unregister) ∧
      (exec s.serve e).2.outgoing.written = e.outgoing.written := by
  have hserve : exec s.serve e = (some (some ()), found.unregister) := by
    rw [exec_serve, hread]
    dsimp only
    rw [exec_release]
    rcases hfailure with rfl | rfl
    · rfl
    · rfl
  rw [hserve]
  exact ⟨rfl, congrArg Outgoing.written (moves_readHeader.exec hread).outgoing⟩

/-! ## The whole connection -/

/-- A new exchange of the server; another thread may stop its connection as its uses begin. -/
def acceptAmid (s : Server ν) (premises : Premises) (remote : Option PeerAddress)
    (incoming : Incoming) (outgoing : Outgoing) (agenda : List (Nat × Occurrence))
    (cutOff : Option Nat) : Exchange ν :=
  { s.accept premises remote incoming outgoing agenda with cutOff }

/-- **One exchange per connection.** Whatever a peer sends and takes, whatever other tasks do
meanwhile and whatever the handlers do, hooks that do not panic given: when a connection was served,
it is stopped and registered no more; at most one handler was run for it, and that once; and behind
interim lines at most one header reached the peer.

If its header cannot be read, the error hook hears of it once. Then the one answer is of status 400
where nothing stands in the way of writing (`Exchange.Writable`): the peer takes all that it is
sent, and neither the hook nor another task has stopped the connection by then or stops it in the
middle of the answer. Where the connection has been stopped by then, nothing is written at all.

If the peer closes, or the connection is stopped, before the header is complete or refused, nothing
of the server runs and nothing is written. -/
theorem one_exchange {s : Server ν} (hhooks : s.HooksReturn) (premises : Premises)
    (remote : Option PeerAddress) (incoming : Incoming) (outgoing : Outgoing)
    (agenda : List (Nat × Occurrence)) (cutOff : Option Nat) :
    let e := s.acceptAmid premises remote incoming outgoing agenda cutOff
    (∀ result later, exec s.serve e = (some result, later) →
      result = some () ∧ later.isStopped = true ∧ later.connection = e.connection ∧
        later.registry.contains e.connection = false) ∧
    s.Calls e ∧
    (match Visit.sentHeader (s.visits e) with
      | none => ∃ lines, Visit.Lines (s.visits e) lines ∧
        (exec s.serve e).2.outgoing.written = outgoing.written ++ lines.flatten
      | some h => ∃ lines head parts, Visit.Lines (s.visits e) lines ∧ head <+: h.toBytes ∧
        Visit.Parts (s.visits e) parts ∧ (exec s.serve e).2.outgoing.written =
          outgoing.written ++ lines.flatten ++ head ++ parts.flatten) ∧
    ∀ mid reader, Incomplete e { limits := s.settings.limits } mid reader →
      (∀ data found next failure told, exec read.run mid = (some (.ok data), found) →
        reader.feed data = (next, .error failure) →
        exec (s.onError found.handle (.request failure)).run found = (some (some ()), told) →
        (s.onError found.handle (.request failure)).Only (fun op => answers op = false) →
        (told.Writable →
          exec s.serve e = (some (some ()), (exec (sendStatus 400).run told).2.unregister) ∧
            (exec s.serve e).2.outgoing.written = outgoing.written ++ badRequest) ∧
          (told.isStopped = true → (exec s.serve e).2.outgoing.written = outgoing.written)) ∧
      (∀ result found, exec read.run mid = (some result, found) →
        result = .error .closed ∨ found.isStopped = true →
        exec s.serve e = (some (some ()), found.unregister) ∧
          (exec s.serve e).2.outgoing.written = outgoing.written) := by
  intro e
  have hserved : e.IsServed := premises.registry.serves_create remote
  refine ⟨?_, s.calls_serve e, ?_, ?_⟩
  · intro result later h
    have hresult : result = some () := by
      have hreturns := hhooks.serve e
      rw [h] at hreturns
      cases result with
      | none => exact absurd rfl hreturns
      | some _ => rfl
    subst hresult
    obtain ⟨hstopped, hsame, hgone⟩ := isStopped_of_exec_serve hserved h
    rw [hsame] at hgone
    exact ⟨rfl, hstopped, hsame, hgone⟩
  · have hspells := s.spells_serve e
    cases hheader : Visit.sentHeader (s.visits e) with
    | none => exact hspells.unsent rfl hheader
    | some h => exact hspells.sent rfl h hheader
  · intro mid reader hincomplete
    refine ⟨?_, ?_⟩
    · intro data found next failure told hread hfeed htold hquiet
      have hrefused := exec_readHeader_of_refused hincomplete hread hfeed
      exact ⟨fun hwritable => exec_serve_of_refused hrefused htold hquiet hwritable rfl,
        written_serve_of_stopped hrefused htold hquiet⟩
    · intro result found hread hends
      have hfailure : result = .error .closed ∨ result = .error .aborted :=
        hends.imp_right (isStopped_exec_read hread).1
      rcases hfailure with rfl | rfl
      · exact exec_serve_of_unread (exec_readHeader_of_unread hincomplete hread) (.inl rfl)
      · exact exec_serve_of_unread (exec_readHeader_of_unread hincomplete hread) (.inr rfl)

/-- Greets whoever asks for anything. -/
def greeter : Server Unit where
  router := ⟨[{
    method := "GET"
    template := "/"
    pattern := .below "/"
    priority := 0
    handler := Action.send (.text "hello") }]⟩

theorem hooksReturn_greeter : greeter.HooksReturn where
  onError _ _ := Action.returns_pure ()
  onTimeout := Action.returns_pure ()
  guard := Action.returns_pure _

/-- A line of bytes that is no request line: a word that ends with the line. -/
def garbled : Bytes := [0x47, 0x45, 0x54, 0x0A]

/-- A connection on which such a line arrives. -/
def garbledExchange : Exchange Unit :=
  greeter.acceptAmid { sessions := { mint := fun _ => "" } } none { script := [.bytes garbled] } {}
    [] none

/-- The line is answered with status 400, and the connection is stopped. -/
theorem one_exchange_garbled :
    greeter.HooksReturn ∧ ∃ later, exec greeter.serve garbledExchange = (some (some ()), later) ∧
      later.isStopped = true ∧ later.outgoing.written = badRequest := by
  obtain ⟨hends, _, _, hreads⟩ := one_exchange hooksReturn_greeter
    { sessions := { mint := fun _ => "" } } none { script := [.bytes garbled] } {} [] none
  obtain ⟨hrefused, _⟩ := hreads garbledExchange {} (.start garbledExchange {})
  have hread : exec read.run garbledExchange =
      (some (.ok garbled), { garbledExchange with incoming := {} }) := rfl
  have hfeed : ({} : HeaderReader).feed garbled =
      ({ buffer := garbled }, .error (.endedBefore .method)) := by
    rw [HeaderReader.feed_of_fits rfl (by decide)]
    exact HeaderReader.run_eq_of_stop rfl
  obtain ⟨hanswered, _⟩ := hrefused garbled _ _ _ _ hread hfeed rfl trivial
  obtain ⟨hserve, hwritten⟩ := hanswered ⟨⟨rfl, rfl⟩, rfl, rfl⟩
  obtain ⟨_, hstopped, _⟩ := hends _ _ hserve
  rw [hserve] at hwritten
  exact ⟨hooksReturn_greeter, _, hserve, hstopped, hwritten⟩

end Server

end HttpServer
