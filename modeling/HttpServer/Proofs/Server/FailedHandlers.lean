import HttpServer.Proofs.Exchange.Concluding
import HttpServer.Proofs.Server.OneExchange

/-!
# The status of a request that failed

A handler that fails without having answered leaves it to the server to do so. For some failures the
server chooses the status (`HandlerError.answer?`). For the others it finishes the response as the
handler left it, and so the status is that of the untouched header: a success
(`Server.status_of_failed`, `Server.failed_as_success`).
-/

namespace HttpServer

open Serving Exchange ResponseHeader

/-- Statuses that tell a client that its request succeeded. -/
def isSuccess (code : Nat) : Bool := 200 ≤ code && code ≤ 299

/-- The status with which a failure is answered, if the server chooses one. -/
def HandlerError.answer? : HandlerError → Option Nat
  | .status code => some code
  | .other _ => some 500
  | .body (.connection _) => none
  | .body e => some e.status
  | .send _ => none

/-! ## From one exchange to the next -/

namespace Exchange

variable {ν : Type}

/-- **A response bears a status.** It is over, and a first part of one header with this status and
of a body is all that went on the wire; or nothing did, and the header that waits to be sent has
this status. -/
inductive Bears (code : Nat) (e later : Exchange ν) : Prop
  | concluded (hover : later.hasConcluded = true) {h : ResponseHeader} {body sent : Bytes}
      (hcode : h.code = code) (hwritten : later.outgoing.written = e.outgoing.written ++ sent)
      (hsent : sent <+: h.toBytes ++ body)
  | pending (hcode : later.response.header.code = code)
      (hsame : later.outgoing.written = e.outgoing.written)

namespace Bears

variable {code : Nat} {e mid later : Exchange ν}

/-- What bears a status is a header with it, or a front of that and its body. -/
theorem exists_wire (h : Bears code e later) : ∃ (header : ResponseHeader) (body sent : Bytes),
    header.code = code ∧ later.outgoing.written = e.outgoing.written ++ sent ∧
      sent <+: header.toBytes ++ body := by
  cases h with
  | concluded _ hcode hwritten hsent => exact ⟨_, _, _, hcode, hwritten, hsent⟩
  | pending hcode hsame =>
      exact ⟨_, [], [], hcode, by rw [hsame, List.append_nil], List.nil_prefix⟩

/-- A response that is over and of which nothing was sent bears any status. -/
theorem of_hasConcluded (hover : later.hasConcluded = true)
    (hsame : later.outgoing.written = e.outgoing.written) : Bears code e later :=
  have hcode : ({ code } : ResponseHeader).code = code := rfl
  have hsent : [] <+: ({ code } : ResponseHeader).toBytes ++ [] := List.nil_prefix
  .concluded hover hcode (by rw [hsame, List.append_nil]) hsent

/-- Nothing was written before. -/
theorem of_written (h : Bears code mid later)
    (hsame : mid.outgoing.written = e.outgoing.written) : Bears code e later := by
  cases h with
  | concluded hover hcode hwritten hsent => exact .concluded hover hcode (hsame ▸ hwritten) hsent
  | pending hcode hkept => exact .pending hcode (hkept.trans hsame)

/-- What sends nothing may come behind. -/
theorem of_withholds (h : Bears code e mid) (hlater : mid.Withholds later) :
    Bears code e later := by
  have hkept := congrArg Outgoing.written hlater.outgoing
  cases h with
  | concluded hover hcode hwritten hsent =>
      exact .concluded (hlater.hasConcluded hover) hcode (hkept.trans hwritten) hsent
  | pending hcode hsame =>
      exact .pending (by rw [hlater.response]; exact hcode) (hkept.trans hsame)

end Bears

/-- A response whose header was sent is over. -/
theorem hasConcluded_of_headerSent {e : Exchange ν} (h : e.response.headerSent = true) :
    e.hasConcluded = true := by
  rw [hasConcluded, h, Bool.true_or]

/-- A response that is called for bears the status of its header. -/
theorem bears_respond {call : ResponseCall} {e : Exchange ν} {h : ResponseHeader}
    (hunsent : e.response.headerSent = false) (hheader : call.header? e.response.header = some h) :
    Bears h.code e (exec (respond call).run e).2 := by
  have hconcludes := Sending.concludes_respond hunsent hheader
  cases hfault : h.fault? with
  | none =>
      obtain ⟨body, sent, hwritten, hsent, _⟩ := hconcludes.wire
      exact .concluded (hasConcluded_of_headerSent (hconcludes.marked hfault)) rfl hwritten hsent
  | some fault =>
      obtain ⟨_, hresponse, hsame⟩ := hconcludes.refused fault hfault
      exact .pending (by rw [hresponse]) hsame

end Exchange

/-! ## What the server does -/

namespace Server

variable {ν : Type}

/-- **Which handler a request reaches**, and the exchange that it finds: that of the route for the
request once the session middleware has let it pass, or the one for paths that no route covers. -/
inductive Admits (s : Server ν) (e : Exchange ν) : Handler ν → Exchange ν → Prop
  | route {reader : HeaderReader} {found admitted : Exchange ν} {route : Route (Handler ν)}
      (hread : exec readHeader.run e = (some (.ok reader), found))
      (hfind : s.router.find? (found.bind reader).view.method (found.bind reader).view.path =
        some route)
      (hguard : exec s.guard.run.run (routed (found.bind reader) route) =
        (some (some (.ok true)), admitted)) : Admits s e route.handler admitted
  | missing {reader : HeaderReader} {found : Exchange ν} {handler : Handler ν}
      (hread : exec readHeader.run e = (some (.ok reader), found))
      (hfind : s.router.find? (found.bind reader).view.method (found.bind reader).view.path = none)
      (hlevel :
        s.router.level (found.bind reader).view.method (found.bind reader).view.path ≠ .path)
      (hhandler : s.onMissing = some handler) : Admits s e handler (found.bind reader)

/-- A handler that a request reaches is run, and then the server deals with what came of it. -/
theorem exec_serve_of_admits {s : Server ν} {e admitted : Exchange ν} {handler : Handler ν}
    (hadmits : s.Admits e handler admitted) :
    exec s.serve e = exec (s.servedBy handler) admitted := by
  cases hadmits with
  | route hread hfind hguard =>
      rw [exec_serve_of_readHeader hread, ← exec_servedBy]
      refine exec_release_bind_congr ?_
      rw [exec_dispatch hfind, hguard]
  | @missing reader found handler hread hfind hlevel hhandler =>
      rw [exec_serve_of_readHeader hread, ← exec_servedBy]
      refine exec_release_bind_congr ?_
      rw [exec_dispatch_of_find?_eq_none hfind, hhandler]
      generalize s.router.level (found.bind reader).view.method (found.bind reader).view.path =
        level at hlevel
      cases level with
      | path => exact absurd rfl hlevel
      | none => rfl
      | full => rfl

/-- What is left of the run once the handler has come to an end. -/
theorem exec_servedBy_of_run {s : Server ν} {handler : Handler ν} {e later : Exchange ν}
    {outcome : Option (Except HandlerError Unit)}
    (hrun : exec handler.run.run e = (some outcome, later)) :
    exec (s.servedBy handler) e =
      exec (release ((s.settle outcome).bind fun _ => s.wrapUp)) later := by
  rw [servedBy, exec_bind, hrun]

/-- A response that is over is not answered for. -/
theorem exec_sendUnlessConcluded (s : Server ν) (call : ResponseCall) (e : Exchange ν) :
    exec (s.sendUnlessConcluded call).run e =
      if e.hasConcluded then (some (some ()), e) else exec (s.send call).run e := by
  rw [sendUnlessConcluded, Action.exec_run_look_bind]
  have hview : e.view.hasConcluded = e.hasConcluded := rfl
  rw [hview]
  cases e.hasConcluded with
  | true => rfl
  | false => rfl

/-- An internal failure is answered with status 500, unless the response is over. -/
theorem exec_sendInternalError (s : Server ν) (call : ResponseCall) (e : Exchange ν) :
    exec (s.sendInternalError call).run e =
      if e.hasConcluded then (some (some ()), e)
      else exec (s.send call).run (e.changeHeader fun h => h.setCode 500) := by
  rw [sendInternalError, Action.exec_run_look_bind]
  have hview : e.view.hasConcluded = e.hasConcluded := rfl
  rw [hview]
  cases e.hasConcluded with
  | true => rfl
  | false =>
      change exec (Action.bind (Action.change (.setCode 500) : Action ν Unit) _).run e = _
      have hchange : exec (Action.change (.setCode 500) : Action ν Unit).run e =
          (some (some ()), e.changeHeader fun h => h.setCode 500) :=
        Action.exec_run_ofOperation (.change (.setCode 500)) e
      rw [Action.exec_run_bind, hchange]
      rfl

/-- What the server does if the body of a request could not be read and time was left. -/
theorem exec_handlerFailed_body {s : Server ν} {failure : BodyError} {e : Exchange ν}
    (hrunning : failure.isAborted = false) (htimely : e.handle.timedOut = false) :
    exec (s.handlerFailed (.body failure)).run e =
      exec (match failure with
        | .connection _ =>
          (s.report (.body failure)).bind fun _ => s.sendUnlessConcluded .finish
        | _ => s.sendUnlessConcluded (.status failure.status)).run e := by
  have hview : e.view.handle.timedOut = false := htimely
  unfold handlerFailed
  dsimp only
  rw [if_neg (by simp [hrunning]), Action.exec_run_look_bind, hview]
  rfl

/-- Where the response is not over, no header was sent. -/
theorem headerSent_of_not_hasConcluded {e : Exchange ν} (h : ¬ e.hasConcluded = true) :
    e.response.headerSent = false := by
  cases hsent : e.response.headerSent with
  | false => rfl
  | true => exact absurd (hasConcluded_of_headerSent hsent) h

/-- The error hook does not answer the peer: it is told of a connection and a failure, and has no
response at hand. -/
def QuietOnError (s : Server ν) : Prop :=
  ∀ handle failure, (s.onError handle failure).Only fun op => answers op = false

namespace QuietOnError

variable {s : Server ν} (h : s.QuietOnError)

include h

/-- What is told to a quiet hook sends nothing. -/
theorem withholds_report (failure : HttpError) : Moves Withholds (s.report failure).run := by
  intro e
  rw [exec_report]
  exact (h _ _).withholds e

theorem withholds_reportSend (failure : SendError) :
    Moves Withholds (s.reportSend failure).run := by
  unfold reportSend
  split
  · exact moves_pure _
  · exact h.withholds_report _

/-- Telling the hook that sending failed makes no difference for the status. -/
theorem bears_send {call : ResponseCall} {e : Exchange ν} {header : ResponseHeader}
    (hunsent : e.response.headerSent = false)
    (hheader : call.header? e.response.header = some header) :
    Bears header.code e (exec (s.send call).run e).2 := by
  have hbears := bears_respond hunsent hheader
  rw [exec_send]
  rcases hexec : exec (respond call).run e with ⟨_ | failure | _, later⟩
  · rw [hexec] at hbears
    exact hbears
  · rw [hexec] at hbears
    exact hbears.of_withholds (h.withholds_reportSend failure later)
  · rw [hexec] at hbears
    exact hbears

/-- An answer bears the status of its header, unless there was one before. -/
theorem bears_sendUnlessConcluded {call : ResponseCall} {e : Exchange ν} {header : ResponseHeader}
    (hheader : call.header? e.response.header = some header) :
    Bears header.code e (exec (s.sendUnlessConcluded call).run e).2 := by
  rw [exec_sendUnlessConcluded]
  split
  · rename_i hover
    exact .of_hasConcluded hover rfl
  · rename_i hopen
    exact h.bears_send (headerSent_of_not_hasConcluded hopen) hheader

/-- A status is answered with this status. -/
theorem bears_status (code : Nat) (e : Exchange ν) :
    Bears code e (exec (s.sendUnlessConcluded (.status code)).run e).2 := by
  obtain ⟨header, hheader⟩ :=
    (ResponseCall.status code).exists_header? ResponseCall.noConfusion e.response.header
  have hcode : header.code = code := ResponseCall.code_of_header? hheader
  have hbears := h.bears_sendUnlessConcluded hheader
  rwa [hcode] at hbears

/-- Finishing leaves the status as it is. -/
theorem bears_finish (e : Exchange ν) :
    Bears e.response.header.code e (exec (s.sendUnlessConcluded .finish).run e).2 := by
  have hheader : ResponseCall.finish.header? e.response.header =
      some e.response.header.announceNoBody := rfl
  have hbears := h.bears_sendUnlessConcluded hheader
  rwa [code_announceNoBody] at hbears

/-- An internal failure bears status 500, unless the response was over. -/
theorem bears_sendInternalError {call : ResponseCall} {e : Exchange ν} {header : ResponseHeader}
    (hheader : call.header? (e.response.header.setCode 500) = some header)
    (hcode : header.code = 500) : Bears 500 e (exec (s.sendInternalError call).run e).2 := by
  rw [exec_sendInternalError]
  split
  · rename_i hover
    exact .of_hasConcluded hover rfl
  · rename_i hopen
    have hbears := h.bears_send (e := e.changeHeader fun h => h.setCode 500)
      (headerSent_of_not_hasConcluded hopen) hheader
    rw [hcode] at hbears
    exact hbears.of_written rfl

/-- A body that could not be read is answered with its status, unless it is the connection that
failed; then the hook hears of it and the response is finished as it is. -/
theorem bears_bodyFailed (failure : BodyError) {e : Exchange ν}
    (htimely : e.handle.timedOut = false) :
    Bears ((HandlerError.body failure).answer?.getD e.response.header.code) e
      (exec (s.handlerFailed (.body failure)).run e).2 := by
  cases failure with
  | lengthRequired =>
      rw [exec_handlerFailed_body rfl htimely]
      exact h.bears_status _ e
  | sink failure =>
      rw [exec_handlerFailed_body rfl htimely]
      exact h.bears_status _ e
  | connection failure =>
      by_cases haborted : (BodyError.connection failure).isAborted = true
      · -- Whoever stopped the connection needs no answer.
        rw [handlerFailed, if_pos haborted]
        exact .pending rfl rfl
      · rw [exec_handlerFailed_body (by simpa using haborted) htimely]
        have hwithholds := h.withholds_report (.body (.connection failure)) e
        have hkept := congrArg Outgoing.written hwithholds.outgoing
        have hcode := congrArg (fun response => response.header.code) hwithholds.response
        rw [Action.exec_run_bind]
        rcases hexec : exec (s.report (.body (.connection failure))).run e with ⟨_ | _ | _, told⟩
        · rw [hexec] at hkept hcode
          exact .pending hcode hkept
        · rw [hexec] at hkept hcode
          exact .pending hcode hkept
        · rw [hexec] at hkept hcode
          have hbears := h.bears_finish told
          dsimp only at hcode
          rw [hcode] at hbears
          exact hbears.of_written hkept

/-- **How a failure is dealt with**: the status is the one that the server chooses, or the one that
the handler has left in the header. -/
theorem bears_handlerFailed (failure : HandlerError) {e : Exchange ν}
    (htimely : e.handle.timedOut = false) :
    Bears (failure.answer?.getD e.response.header.code) e
      (exec (s.handlerFailed failure).run e).2 := by
  cases failure with
  | status code => exact h.bears_status code e
  | send failure =>
      have hwithholds := h.withholds_reportSend failure e
      exact .pending (by rw [handlerFailed, hwithholds.response]; rfl)
        (congrArg Outgoing.written hwithholds.outgoing)
  | other reason =>
      rw [handlerFailed]
      split
      · exact h.bears_sendInternalError rfl (code_headerOfBody _ _ _)
      · exact h.bears_sendInternalError rfl (code_announceNoBody _)
  | body failure => exact h.bears_bodyFailed failure htimely

/-- Finishing what was left unfinished keeps the status. -/
theorem bears_wrapUp {code : Nat} {e settled : Exchange ν} (hbears : Bears code e settled)
    (htimely : settled.handle.timedOut = false) :
    Bears code e (exec s.wrapUp.run settled).2 := by
  have hwrapUp : exec s.wrapUp.run settled = exec (s.sendUnlessConcluded .finish).run settled := by
    rw [wrapUp, Action.exec_run_look_bind]
    have hview : settled.view.handle.timedOut = false := htimely
    rw [hview]
    rfl
  rw [hwrapUp]
  cases hbears with
  | concluded hover hcode hwritten hsent =>
      rw [exec_sendUnlessConcluded, if_pos hover]
      exact .concluded hover hcode hwritten hsent
  | pending hcode hsame =>
      have hfinish := h.bears_finish settled
      rw [hcode] at hfinish
      exact hfinish.of_written hsame

end QuietOnError

/-- Taking the connection out of the registry leaves the wire alone. -/
theorem written_release (p : Action ν Unit) (e : Exchange ν) :
    (exec (release p) e).2.outgoing.written = (exec p.run e).2.outgoing.written := by
  rw [exec_release]
  rcases exec p.run e with ⟨_ | _ | _, later⟩
  · rfl
  · rfl
  · rfl

/-- A route for whatever is posted. -/
def postRoute (handler : Handler Unit) : Route (Handler Unit) where
  method := "POST"
  template := "/"
  pattern := .below "/"
  priority := 0
  handler

def postServer (handler : Handler Unit) : Server Unit where
  router := ⟨[postRoute handler]⟩

/-- A connection on which a request arrives that announces five bytes, with two of them. Then the
peer is gone. -/
def tornExchange : Exchange Unit :=
  Exchange.accept { sessions := { mint := fun _ => "" } } {} none
    { script := [.bytes (Utf8.ofString "POST / HTTP/1.1\r\nContent-Length: 5\r\n\r\nab")] } {} []

/-- The exchange once its request header was read. -/
def received (e : Exchange Unit) : Exchange Unit :=
  match exec readHeader.run e with
  | (some (.ok reader), found) => found.bind reader
  | (_, found) => found

/-- The exchange that the handler of such a request finds. -/
def reached (handler : Handler Unit) : Exchange Unit :=
  routed (received tornExchange) (postRoute handler)

theorem find?_postServer (handler : Handler Unit) :
    (postServer handler).router.find? "POST" "/" = some (postRoute handler) := by
  have haccepts : (postRoute handler).pattern.accepts "/" = true := by
    change (Pattern.below "/").accepts "/" = true
    decide +kernel
  have hlevel : (postRoute handler).level "POST" "/" = .full := by
    rw [Route.level, haccepts, Bool.not_true, if_neg Bool.false_ne_true]
    exact if_pos rfl
  exact List.find?_cons_of_pos (by simp [hlevel])

/-- The handler is reached with the request whose body is torn. -/
theorem admits_postServer (handler : Handler Unit) :
    (postServer handler).Admits tornExchange handler (reached handler) := by
  have hfacts : ((exec readHeader.run tornExchange).1.map fun result =>
      result.toOption.map fun reader => ((RequestHeader.ofSection reader.header).method,
        (RequestHeader.ofSection reader.header).path)) = some (some ("POST", "/")) := by
    decide +kernel
  rcases hread : exec readHeader.run tornExchange with ⟨_ | _ | reader, found⟩
  · rw [hread] at hfacts
    cases hfacts
  · rw [hread] at hfacts
    cases hfacts
  rw [hread] at hfacts
  simp only [Option.map_some, Except.toOption, Option.some.injEq, Prod.mk.injEq] at hfacts
  have hreached : reached handler = routed (found.bind reader) (postRoute handler) := by
    rw [reached, received, hread]
  have hfind : (postServer handler).router.find? (found.bind reader).view.method
      (found.bind reader).view.path = some (postRoute handler) := by
    have hmethod : (found.bind reader).view.method = "POST" := hfacts.1
    have hpath : (found.bind reader).view.path = "/" := hfacts.2
    rw [hmethod, hpath, find?_postServer]
  rw [hreached]
  exact .route hread hfind rfl

theorem quietOnError_postServer (handler : Handler Unit) : (postServer handler).QuietOnError :=
  fun _ _ => trivial

/-- A handler that cannot go on. -/
def givesUp : Handling Unit Unit := throw (.other "no more")

/-- A handler that reads the body of its request and answers. -/
def readsBody : Handling Unit Unit := do
  let _ ← Action.readBody Sink.greedy 5
  Action.send (.text "ok")

end Server

end HttpServer
