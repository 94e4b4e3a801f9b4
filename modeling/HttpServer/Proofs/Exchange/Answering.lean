import HttpServer.Proofs.Connection.Arrivals
import HttpServer.Proofs.Exchange.Announcing
import HttpServer.Proofs.Stream.Frames

/-!
# What one operation puts on the wire

Every way to answer calls for the header with the changes that it makes before
(`Operation.attempt`). Behind the header come bytes of the body alone (`Operation.Carries`), as the
operation was given them or framed as chunks; an interim line comes from one operation alone, and
only in front of the header (`Operation.interim`). Nothing else writes at all
(`Serving.emits_perform`).
-/

namespace HttpServer

namespace Serving

variable {ν α ε : Type}

open Exchange

/-- A whole body goes out behind its header, or a front of it. -/
theorem announces_sendBody (mediaType : String) (body : Bytes) {e : Exchange ν}
    (haccepts : e.outgoing.AcceptsAll) :
    Announces (headerOfBody e.response.header mediaType body) (· <+: body) e
      (exec (sendBody mediaType body).run e).2 := by
  refine announces_change_bind (headerOfBody · mediaType body) haccepts (fun _ => moves_body body)
    fun mid _ hsent => ?_
  exact exists_of_puts (puts_body body hsent)

/-- Reading takes bytes from the front of a source, and none only at its end. -/
theorem content_readSource {size rounds : Nat} (hsize : 0 < size) {source rest : Incoming}
    {e later : Exchange ν} {data : Bytes}
    (h : exec (readSource size rounds source).run e = (some (.ok (data, rest)), later)) :
    data ≠ [] ∧ source.content = data ++ rest.content ∨ data = [] ∧ source.content = [] := by
  induction rounds generalizing source e with
  | zero => exact absurd h not_exec_never
  | succ rounds ih =>
      rw [readSource, exec_ebind, exec_eget] at h
      dsimp only at h
      have hfinds := source.finds_poll hsize e.now
      generalize source.poll size e.now = found at h hfinds
      cases hfinds with
      | bytes hdata hcontent =>
          cases h
          exact .inl ⟨hdata, hcontent⟩
      | ends hnone =>
          cases h
          exact .inr ⟨rfl, hnone⟩
      | fails failure hnone => cases h
      | pauses due hsame =>
          cases due with
          | none => exact absurd h not_exec_never
          | some time =>
              rw [← hsame]
              dsimp only at h
              obtain ⟨_, mid, _, hrest⟩ := exists_of_exec_ebind h
              exact ih hrest

/-- Copying puts the bytes of the source on the wire, or a front of them, by induction on the
pieces. -/
theorem puts_copySource (pieces : Nat) (source : Incoming) (e : Exchange ν) :
    Puts (copySource pieces source) e source.content := by
  induction pieces generalizing source e with
  | zero =>
      refine ⟨[], ?_, List.nil_prefix, fun a h => ?_, fun _ => rfl⟩
      · rw [List.append_nil]
        exact congrArg Outgoing.written (moves_never e).outgoing
      · have hnever := exec_never (α := Except SendError Unit) e
        rw [copySource] at h
        exact absurd (hnever.symm.trans h) nofun
  | succ pieces ih =>
      refine puts_of_step (exec_eget e) id rfl ?_
      have hreads : Moves Waits ((readSource e.writeSize (source.script.length + 1) source).adapt
          SendError.io : ExceptT SendError (Serving ν) (Bytes × Incoming)).run :=
        moves_adapt (moves_readSource _ _ _)
      suffices h : Puts _ e ([] ++ source.content) from h
      refine puts_bind (puts_nil (hreads e).outgoing) hreads.sends ?_
      rintro ⟨data, rest⟩ mid hexec
      dsimp only
      rcases content_readSource (Nat.le_max_right _ _) (exec_of_exec_adapt hexec) with
        ⟨hdata, hcontent⟩ | ⟨hdata, hcontent⟩
      · rw [hcontent, if_pos hdata]
        exact puts_bind (puts_adapt (puts_transmit _ _)) (moves_adapt (moves_transmit _))
          fun _ later _ => ih rest later
      · rw [hcontent, if_neg (by simpa using hdata)]
        exact puts_nil rfl

/-- The header that goes out with so many bytes of a source. -/
def headerOfSource (h : ResponseHeader) (length : Nat) : ResponseHeader :=
  ((h.correctStatus (0 < length)).trySetField "Content-Type" binaryType).announceLength length

/-- A source goes out behind its header, or a front of it. -/
theorem announces_sendReader (source : Incoming) (length : Nat) {e : Exchange ν}
    (haccepts : e.outgoing.AcceptsAll) :
    Announces (headerOfSource e.response.header length) (· <+: source.content) e
      (exec (sendReader source length).run e).2 := by
  refine announces_change_bind (headerOfSource · length) haccepts (fun _ => ?_)
    fun mid _ hsent => exists_of_puts ?_
  · exact moves_ebind (moves_copySource _ _) fun _ => moves_finish
  · suffices h : Puts _ mid (source.content ++ []) by rwa [List.append_nil] at h
    refine puts_bind (puts_copySource _ _ _) (moves_copySource _ _) fun _ later hlater => ?_
    exact puts_finish (((moves_copySource _ _).exec hlater).headerSent hsent)

/-- An interim line goes out only in front of the header. -/
theorem exec_sendContinue {e : Exchange ν} (haccepts : e.outgoing.AcceptsAll) :
    (exec sendContinue.run e).2.response = e.response ∧
      (exec sendContinue.run e).2.outgoing.written = e.outgoing.written ++
        if e.response.headerSent || e.checkpoint.isStopped then []
        else e.response.header.interimLine := by
  rw [sendContinue, exec_ebind, exec_eget]
  dsimp only
  by_cases hsent : e.response.headerSent = true
  · rw [if_neg (by simp [hsent]), if_pos (by simp [hsent]), List.append_nil]
    exact ⟨rfl, rfl⟩
  rw [if_pos (by simpa using hsent), exec_adapt, exec_transmit_of_acceptsAll haccepts]
  have hbegun := e.waits_checkpoint
  have hwritten := congrArg Outgoing.written hbegun.outgoing
  by_cases hstopped : e.checkpoint.isStopped = true
  · rw [if_pos hstopped, if_pos (by simp [hstopped]), List.append_nil]
    exact ⟨hbegun.response, hwritten⟩
  · rw [if_neg hstopped, if_neg (by simp [hsent, hstopped])]
    exact ⟨hbegun.response,
      (written_deliver_of_acceptsAll (hbegun.acceptsAll haccepts) _).trans (by rw [hwritten])⟩

/-- Of all that a writer calls for only writes reach the wire. -/
theorem written_answer {e : Exchange ν} (haccepts : e.outgoing.AcceptsAll) (call : WriterCall) :
    (exec (answer call) e).2.outgoing.written =
      e.outgoing.written ++ ((exec (answer call) e).1.map call.put).getD [] := by
  cases call with
  | write bytes =>
      change (exec (transmit bytes).run e).2.outgoing.written =
        _ ++ ((exec (transmit bytes).run e).1.map _).getD []
      rw [exec_transmit_of_acceptsAll haccepts]
      have hbegun := e.waits_checkpoint
      have hwritten := congrArg Outgoing.written hbegun.outgoing
      split
      · exact hwritten.trans (List.append_nil _).symm
      · exact (written_deliver_of_acceptsAll (hbegun.acceptsAll haccepts) bytes).trans
          (by rw [hwritten]; rfl)
  | _ =>
      refine (congrArg Outgoing.written (moves_answer_of_not_write ?_ e).outgoing).trans ?_
      · nofun
      cases (exec (answer _) e).1 with
      | none => exact (List.append_nil _).symm
      | some reply => exact (List.append_nil _).symm

/-- A writer puts chunks on the wire, and nothing but chunks. -/
theorem owes_runWriter (calls : Nat) {w : Writer} (hframed : w.Framed) {e : Exchange ν}
    (haccepts : e.outgoing.AcceptsAll) :
    ∃ body, w.Owes body ∧
      (exec (runWriter calls w) e).2.outgoing.written = e.outgoing.written ++ body := by
  induction calls generalizing w e with
  | zero =>
      refine ⟨[], w.owes_nil, ?_⟩
      rw [List.append_nil]
      exact congrArg Outgoing.written (moves_never e).outgoing
  | succ calls ih =>
      rw [runWriter]
      cases hcall : w.call with
      | none => exact ⟨[], w.owes_nil, (List.append_nil _).symm⟩
      | some call =>
          dsimp only
          have hwritten := written_answer haccepts call
          have hmid := (moves_answer call e).acceptsAll haccepts
          rw [exec_bind]
          rcases hanswer : exec (answer call) e with ⟨_ | reply, mid⟩
          · rw [hanswer] at hwritten
            exact ⟨[], w.owes_nil, hwritten⟩
          · rw [hanswer] at hwritten hmid
            obtain ⟨hgoesOn, howes⟩ := Writer.goesOn_resume hframed hcall reply
            obtain ⟨body, hbody, hlater⟩ := ih hgoesOn hmid
            refine ⟨_, howes body hbody, ?_⟩
            rw [hlater, hwritten, List.append_assoc]
            rfl

/-- The body of a stream comes behind the header, and is over when the exchange finishes. -/
theorem exists_of_writeStream (calls : Nat) {e : Exchange ν} (haccepts : e.outgoing.AcceptsAll)
    (hsent : e.response.headerSent = true) :
    ∃ body, IsChunked body ∧
      (exec ((ExceptT.mk (runWriter calls {})).adapt SendError.connection >>= fun _ => finish).run
        e).2.outgoing.written = e.outgoing.written ++ body := by
  obtain ⟨body, hbody, hwritten⟩ := owes_runWriter calls (w := {}) (fun _ => rfl) haccepts
  refine ⟨body, hbody, ?_⟩
  have hmoves := moves_runWriter calls {} e
  rw [exec_ebind, exec_adapt, ExceptT.run_mk]
  rcases hrun : exec (runWriter calls {}) e with ⟨_ | _ | _, mid⟩
  · rw [hrun] at hwritten
    exact hwritten
  · rw [hrun] at hwritten
    exact hwritten
  · rw [hrun] at hwritten hmoves
    change (exec finish.run mid).2.outgoing.written = _
    rw [exec_finish_of_headerSent (hmoves.headerSent hsent)]
    exact (outgoing_shutDown mid).trans hwritten

/-- What a writer puts behind a header is chunks. -/
theorem announces_sendStream (calls : Nat) {e : Exchange ν} (haccepts : e.outgoing.AcceptsAll) :
    Announces (e.response.header.announceChunks e.source.queue.encoding) IsChunked e
      (exec (sendStream calls).run e).2 := by
  rw [sendStream, exec_ebind, exec_emodify]
  dsimp only
  rw [exec_ebind, exec_lift]
  have hannounced : ((e.changeHeader fun h =>
    h.announceChunks e.source.queue.encoding).connectStream).outgoing.AcceptsAll := haccepts
  suffices hannounces : Announces ((e.changeHeader fun h =>
      h.announceChunks e.source.queue.encoding).connectStream).response.header
      IsChunked ((e.changeHeader fun h => h.announceChunks e.source.queue.encoding).connectStream)
      _ from ⟨hannounces.resent, hannounces.refused, hannounces.sent⟩
  refine announces_of_sendHeader hannounced (fun failure mid hexec => ?_)
    fun mid hexec hmid hsent => ?_
  · rw [hexec]
    exact (mid.waits_putSource _).toWithholds.keepsWire
  · rw [hexec]
    exact ⟨(moves_writeStream calls mid).headerSent hsent, exists_of_writeStream calls hmid hsent⟩

/-- A body that is fed is sent between its opening and its closing, from what it was fed before. -/
theorem exec_sendChunked (body : ChunkedBody ν) (e : Exchange ν) :
    exec (sendChunked body) e =
      match exec (sendStream body.calls).run ((e.openStream body).schedule body.batches) with
      | (some result, mid) => (some (mid.source, result), mid.closeStream)
      | (none, mid) => (none, mid) := by
  change exec ((sendStream body.calls).run >>= _) ((e.openStream body).schedule body.batches) = _
  rw [exec_bind]
  rcases exec (sendStream body.calls).run _ with ⟨_ | result, mid⟩
  · rfl
  · rfl

/-- What is sent of a body that is fed is chunks as well. -/
theorem announces_sendChunked (body : ChunkedBody ν) {e : Exchange ν}
    (haccepts : e.outgoing.AcceptsAll) :
    Announces (e.response.header.announceChunks (e.openStream body).source.queue.encoding)
      IsChunked e (exec (sendChunked body) e).2 := by
  have hopened : e.Waits ((e.openStream body).schedule body.batches) :=
    (e.waits_openStream body).trans (waits_agenda _ _)
  have hstream := announces_sendStream body.calls (hopened.acceptsAll haccepts)
  rw [hopened.response] at hstream
  refine Announces.of_keepsWire (Announces.of_waits hopened hstream) ?_
  rw [exec_sendChunked]
  rcases exec (sendStream body.calls).run _ with ⟨_ | result, mid⟩
  · exact (Waits.refl mid).toWithholds.keepsWire
  · exact mid.waits_closeStream.toWithholds.keepsWire

end Serving

/-! ## One operation -/

open Serving

/-- The header with which a call has the header sent, made of the one that it finds. -/
def ResponseCall.header? (h : ResponseHeader) : ResponseCall → Option ResponseHeader
  | .interim => none
  | .header => some h
  | .text body => some (headerOfBody h plainTextType (Utf8.ofString body))
  | .bytes body => some (headerOfBody h binaryType body)
  | .reader _ length => some (headerOfSource h length)
  | .status code =>
    if code = 204 then some (h.setCode code).announceNoBody
    else some (headerOfBody (h.setCode code) plainTextType (Utf8.ofString (reasonPhrase code)))
  | .redirect url code => some ((h.setField "Location" url).setCode code).announceNoBody
  | .finish => some h.announceNoBody

/-- The body that a call is given to send. -/
def ResponseCall.body : ResponseCall → Bytes
  | .text body => Utf8.ofString body
  | .bytes body => body
  | .reader source _ => source.content
  | .status code => if code = 204 then [] else Utf8.ofString (reasonPhrase code)
  | _ => []

namespace Operation

variable {ν : Type}

/-- The header with which an operation has the header sent, if it does. -/
def attempt (e : Exchange ν) : Operation ν → Option ResponseHeader
  | .respond call => call.header? e.response.header
  | .sendFile path =>
    match e.files.openRead path with
    | .ok (_, .file data) =>
      let typed := e.response.header.trySetField "Content-Type" (mediaType path)
      some (headerOfSource (typed.setCode 200) data.length)
    | _ => none
  | .sendChunked body =>
    some (e.response.header.announceChunks (e.openStream body).source.queue.encoding)
  | _ => none

/-- These bytes are of the body that an operation sends. -/
def Carries (e : Exchange ν) (body : Bytes) : Operation ν → Prop
  | .respond call => body <+: call.body
  | .sendFile path =>
    match e.files.openRead path with
    | .ok (_, .file data) => body <+: data
    | _ => body = []
  | .sendChunked _ => IsChunked body
  | _ => body = []

/-- The interim line that an operation puts on the wire. -/
def interim (e : Exchange ν) : Operation ν → Bytes
  | .respond .interim =>
    if e.response.headerSent || e.checkpoint.isStopped then []
    else e.response.header.interimLine
  | _ => []

/-- Every operation may be cut off before the body. -/
theorem carries_nil (e : Exchange ν) (op : Operation ν) : op.Carries e [] := by
  unfold Carries
  split
  · exact List.nil_prefix
  · split
    · exact List.nil_prefix
    · rfl
  · exact isChunked_nil
  · rfl

/-- **What an operation puts on the wire**, from one exchange to the other. -/
inductive Emits (op : Operation ν) (e later : Exchange ν) : Prop
  | announces (h : ResponseHeader) (hattempt : op.attempt e = some h)
      (hannounces : Announces h (op.Carries e) e later)
  | withholds (hattempt : op.attempt e = none)
      (hsent : later.response.headerSent = e.response.headerSent)
      (hwritten : later.outgoing.written = e.outgoing.written ++ op.interim e)

end Operation

namespace Serving

variable {ν : Type}

open Exchange

/-- A status is sent with the header that its call asks for, and with its phrase. -/
theorem emits_sendStatus (code : Nat) {e : Exchange ν} (haccepts : e.outgoing.AcceptsAll) :
    (Operation.respond (.status code)).Emits e (exec (sendStatus code).run e).2 := by
  rw [sendStatus, exec_ebind, exec_emodify]
  dsimp only
  have hchanged : (e.changeHeader fun h => h.setCode code).outgoing.AcceptsAll := haccepts
  by_cases hcode : code = 204
  · have hheader : (Operation.respond (.status code)).attempt e =
        some (e.response.header.setCode code).announceNoBody := if_pos hcode
    rw [if_pos hcode]
    refine .announces _ hheader ((Announces.of_changeHeader (announces_finish hchanged)).mono ?_)
    exact fun body h => h ▸ List.nil_prefix
  · have hheader : (Operation.respond (.status code)).attempt e =
        some (headerOfBody (e.response.header.setCode code) plainTextType
          (Utf8.ofString (reasonPhrase code))) := if_neg hcode
    rw [if_neg hcode]
    refine .announces _ hheader
      ((Announces.of_changeHeader (announces_sendBody _ _ hchanged)).mono ?_)
    intro body h
    change body <+: if code = 204 then [] else _
    rwa [if_neg hcode]

/-- A file is sent as a source of its bytes. -/
theorem exec_sendFile_of_file {path : String} {e : Exchange ν} {walked : List String} {data : Bytes}
    (hfind : e.files.openRead path = .ok (walked, .file data)) :
    exec (sendFile path).run e =
      match exec (sendReader (Incoming.ofBytes data) data.length).run (e.changeHeader fun h =>
        (h.trySetField "Content-Type" (mediaType path)).setCode 200) with
      | (some (.ok _), later) => (some (.ok true), later)
      | (some (.error failure), later) => (some (.error failure), later)
      | (none, later) => (none, later) := by
  rw [sendFile, exec_ebind, exec_eget]
  dsimp only
  rw [hfind]
  dsimp only
  rw [exec_ebind, exec_emodify]
  dsimp only
  rw [exec_ebind]
  rcases exec (sendReader (Incoming.ofBytes data) data.length).run _ with ⟨_ | _ | _, later⟩ <;> rfl

/-- Where no file can be opened, nothing is sent. -/
theorem exec_sendFile_of_not_file {path : String} {e : Exchange ν}
    (hnone : ∀ walked data, e.files.openRead path ≠ .ok (walked, .file data)) :
    exec (sendFile path).run e = (some (.ok false), e) := by
  rw [sendFile, exec_ebind, exec_eget]
  dsimp only
  split
  · rename_i walked data hfind
    exact absurd hfind (hnone walked data)
  · rfl

/-- A file is sent with the header for its type and length. -/
theorem emits_sendFile (path : String) {e : Exchange ν} (haccepts : e.outgoing.AcceptsAll) :
    (Operation.sendFile path).Emits e (exec (sendFile path).run e).2 := by
  by_cases hfile : ∃ walked data, e.files.openRead path = .ok (walked, .file data)
  · obtain ⟨walked, data, hfind⟩ := hfile
    have hcarries (body : Bytes) (hbody : body <+: data) :
        (Operation.sendFile path).Carries e body := by
      rw [Operation.Carries, hfind]
      exact hbody
    have htyped := announces_sendReader (Incoming.ofBytes data) data.length (e := e.changeHeader
      fun h => (h.trySetField "Content-Type" (mediaType path)).setCode 200) haccepts
    rw [Incoming.content_ofBytes] at htyped
    refine .announces _ (by rw [Operation.attempt, hfind]) ?_
    refine Announces.mono ?_ hcarries
    rw [exec_sendFile_of_file hfind]
    revert htyped
    rcases exec (sendReader (Incoming.ofBytes data) data.length).run _ with ⟨_ | _ | _, later⟩
    · exact Announces.of_changeHeader
    · exact Announces.of_changeHeader
    · exact Announces.of_changeHeader
  · have hnone (walked : List String) (data : Bytes) :
        e.files.openRead path ≠ .ok (walked, .file data) := fun hfind => hfile ⟨walked, data, hfind⟩
    rw [exec_sendFile_of_not_file hnone]
    refine .withholds ?_ rfl (List.append_nil _).symm
    rw [Operation.attempt]
    split
    · rename_i walked data hfind
      exact absurd hfind (hnone walked data)
    · rfl

/-- **Every call that answers** sends the header that it asks for; the cases are those of the
calls. -/
theorem emits_respond (call : ResponseCall) {e : Exchange ν} (haccepts : e.outgoing.AcceptsAll) :
    (Operation.respond call).Emits e (exec (respond call).run e).2 := by
  -- What has no body carries at most a first part of nothing.
  have hnothing (body : Bytes) (h : body = []) : body <+: [] := h ▸ List.prefix_rfl
  cases call with
  | interim =>
      obtain ⟨hresponse, hwritten⟩ := exec_sendContinue haccepts
      exact .withholds rfl (congrArg Response.headerSent hresponse) hwritten
  | header => exact .announces _ rfl ((announces_sendHeader haccepts).mono hnothing)
  | text body => exact .announces _ rfl (announces_sendBody _ _ haccepts)
  | bytes body => exact .announces _ rfl (announces_sendBody _ _ haccepts)
  | reader source length => exact .announces _ rfl (announces_sendReader source length haccepts)
  | status code => exact emits_sendStatus code haccepts
  | redirect url code =>
      have hfinish := announces_finish (e := e.changeHeader fun h =>
        (h.setField "Location" url).setCode code) haccepts
      exact .announces _ rfl ((Announces.of_changeHeader hfinish).mono hnothing)
  | finish => exact .announces _ rfl ((announces_finish haccepts).mono hnothing)

/-- **Whatever an operation does**, it puts a header, an interim line and a body on the wire only as
it should. -/
theorem emits_perform (op : Operation ν) {e : Exchange ν} (haccepts : e.outgoing.AcceptsAll) :
    op.Emits e (exec (perform op) e).2 := by
  by_cases hanswers : answers op = true
  · cases op with
    | change change => exact .withholds rfl rfl (List.append_nil _).symm
    | respond call => exact emits_respond call haccepts
    | sendFile path => exact emits_sendFile path haccepts
    | sendChunked body => exact .announces _ rfl (announces_sendChunked body haccepts)
    | _ => cases hanswers
  · have hno : answers op = false := by simpa using hanswers
    have hwithholds := moves_perform_of_not_answers hno e
    have hwritten := congrArg Outgoing.written hwithholds.outgoing
    have hsent := congrArg Response.headerSent hwithholds.response
    cases op with
    | change _ | respond _ | sendFile _ | sendChunked _ => cases hno
    | _ => exact .withholds rfl hsent (hwritten.trans (List.append_nil _).symm)

end Serving

end HttpServer
