import HttpServer.Proofs.Exchange.HeaderOnce

/-!
# One header, whatever the peer takes

A peer may take only so much, fail to flush, or take nothing more for ever. Whatever it does, a
header counts as sent before any of it is written (`Serving.headerGoes`). So an operation puts
interim lines on the wire, or a header and its body, or first parts of these
(`Serving.reaches_perform`), and a whole run puts at most one header there, the first that could be
written when it was to be sent (`Action.spells_run`).
-/

namespace HttpServer

/-! ## Chunks that are taken in part -/

namespace Writer

/-- A first part of what may still come from a writer. -/
def OwesPart (w : Writer) (put : Bytes) : Prop := ∃ whole, w.Owes whole ∧ put <+: whole

/-- A writer may always be cut off before it has put anything. -/
theorem owesPart_nil (w : Writer) : w.OwesPart [] := ⟨[], w.owes_nil, List.prefix_rfl⟩

/-- What a writer is about to write is owed. -/
theorem owes_of_call_write {w : Writer} (hframed : w.Framed) {bytes : Bytes}
    (hcall : w.call = some (.write bytes)) : w.Owes bytes := by
  have howes := (w.goesOn_resume hframed hcall (.ok ())).2 [] (owes_nil _)
  have hput : WriterCall.put (.write bytes) (.ok ()) ++ [] = bytes := List.append_nil bytes
  rwa [hput] at howes

/-- A write that failed is the last one. -/
theorem isThrough_resume_error {w : Writer} {bytes : Bytes} (hcall : w.call = some (.write bytes))
    (e : ConnectionError) : (w.resume (.write bytes) (.error e)).isThrough = true := by
  obtain ⟨stage, encoder⟩ := w
  cases stage <;> cases hcall
  · exact isThrough_writeFailed _ e
  · exact isThrough_writeFailed _ e

/-- A write that did not go through leaves a first part of its bytes, and nothing comes behind
it. -/
theorem owesPart_resume_write {w : Writer} (hframed : w.Framed) {bytes put body : Bytes}
    (hcall : w.call = some (.write bytes)) (hput : put <+: bytes)
    {reply : Except ConnectionError Unit} (hok : reply = .ok () → put = bytes)
    (hbody : (w.resume (.write bytes) reply).OwesPart body) : w.OwesPart (put ++ body) := by
  obtain ⟨whole, hwhole, hpart⟩ := hbody
  cases reply with
  | error failure =>
      rw [Owes, if_pos (isThrough_resume_error hcall failure)] at hwhole
      rw [hwhole, List.prefix_nil] at hpart
      rw [hpart, List.append_nil]
      exact ⟨bytes, owes_of_call_write hframed hcall, hput⟩
  | ok _ =>
      rw [hok rfl]
      exact ⟨bytes ++ whole, (w.goesOn_resume hframed hcall (.ok ())).2 whole hwhole,
        (List.prefix_append_right_inj bytes).2 hpart⟩

/-- A call that writes nothing leaves the writer owing what it owed. -/
theorem owesPart_resume_of_not_write {w : Writer} (hframed : w.Framed) {call : WriterCall}
    (hcall : w.call = some call) (hno : ∀ bytes, call ≠ .write bytes) {reply : call.Reply}
    {body : Bytes} (hbody : (w.resume call reply).OwesPart body) : w.OwesPart body := by
  obtain ⟨whole, hwhole, hpart⟩ := hbody
  have howes := (w.goesOn_resume hframed hcall reply).2 whole hwhole
  have hput : call.put reply = [] := by
    cases call with
    | write bytes => exact absurd rfl (hno bytes)
    | _ => rfl
  rw [hput] at howes
  exact ⟨whole, howes, hpart⟩

end Writer

/-! ## Headers -/

namespace Serving

variable {ν α : Type}

open Exchange

/-- **What becomes of a header** that is to be sent, however much the peer takes of it. -/
inductive HeaderGoes (e : Exchange ν) : Option (Except SendError Unit) × Exchange ν → Prop
  | again (hsent : e.response.headerSent = true) : HeaderGoes e (some (.ok ()), e)
  | refused (hunsent : e.response.headerSent = false) (failure : SendError)
      (hfault : e.response.header.fault? ≠ none) : HeaderGoes e (some (.error failure), e)
  | goes {result : Option (Except SendError Unit)} {later : Exchange ν} {head : Bytes}
      (hunsent : e.response.headerSent = false) (hfault : e.response.header.fault? = none)
      (hsent : later.response.headerSent = true) (hhead : head <+: e.response.header.toBytes)
      (hwritten : later.outgoing.written = e.outgoing.written ++ head) :
      HeaderGoes e (result, later)

/-- **A header counts as sent before it is written**, so it goes once, in whatever part. -/
theorem headerGoes (e : Exchange ν) : HeaderGoes e (exec sendHeader.run e) := by
  rw [sendHeader, exec_ebind, exec_eget]
  dsimp only
  by_cases hsent : e.response.headerSent = true
  · rw [if_neg (by simp [hsent])]
    exact .again hsent
  have hunsent : e.response.headerSent = false := by simpa using hsent
  rw [if_pos (by simpa using hsent), ResponseHeader.writeTo]
  cases hfault : e.response.header.fault? with
  | some fault => exact .refused hunsent _ (by simp [hfault])
  | none =>
      dsimp only
      rw [exec_ebind, exec_emodify]
      dsimp only
      rw [exec_adapt, List.nil_append]
      obtain ⟨head, hwritten, hhead, _⟩ :=
        puts_transmit e.response.header.toBytes e.markHeaderSent
      exact .goes hunsent hfault ((moves_transmit _ _).headerSent rfl) hhead hwritten

/-- **The wire around a header**: bytes of a body behind one that was sent before, and otherwise
this header, or a first part of it, with bytes of a body behind it. A header that cannot be written
leaves the wire as it is. -/
structure Heads (h : ResponseHeader) (Body : Bytes → Prop) (e later : Exchange ν) : Prop where
  resent : e.response.headerSent = true → later.response.headerSent = true ∧
    ∃ body, Body body ∧ later.outgoing.written = e.outgoing.written ++ body
  refused : e.response.headerSent = false → h.fault? ≠ none →
    later.response.headerSent = false ∧ later.outgoing.written = e.outgoing.written
  sent : e.response.headerSent = false → h.fault? = none → later.response.headerSent = true ∧
    ∃ head body, head <+: h.toBytes ∧ Body body ∧
      later.outgoing.written = e.outgoing.written ++ head ++ body

namespace Heads

variable {h : ResponseHeader} {Body Other : Bytes → Prop} {e mid later : Exchange ν}

/-- What comes behind the header may be described more loosely. -/
theorem mono (hheads : Heads h Body e later) (hbody : ∀ body, Body body → Other body) :
    Heads h Other e later := by
  obtain ⟨hresent, hrefused, hsent⟩ := hheads
  refine ⟨fun hagain => ?_, hrefused, fun hunsent hfault => ?_⟩
  · obtain ⟨hlater, body, hbodyOf, hwritten⟩ := hresent hagain
    exact ⟨hlater, body, hbody body hbodyOf, hwritten⟩
  · obtain ⟨hlater, head, body, hhead, hbodyOf, hwritten⟩ := hsent hunsent hfault
    exact ⟨hlater, head, body, hhead, hbody body hbodyOf, hwritten⟩

/-- A change of the header comes before what is sent with it. -/
theorem of_changeHeader {change : ResponseHeader → ResponseHeader}
    (hheads : Heads h Body (e.changeHeader change) later) : Heads h Body e later :=
  ⟨hheads.resent, hheads.refused, hheads.sent⟩

/-- What other tasks do before does not matter. -/
theorem of_waits (hwaits : e.Waits mid) (hheads : Heads h Body mid later) :
    Heads h Body e later := by
  obtain ⟨hresent, hrefused, hsent⟩ := hheads
  rw [hwaits.response, hwaits.outgoing] at hresent hrefused hsent
  exact ⟨hresent, hrefused, hsent⟩

/-- What is done behind the body does not matter, if it keeps the wire. -/
theorem of_keepsWire (hheads : Heads h Body e mid) (hkeeps : mid.KeepsWire later) :
    Heads h Body e later := by
  obtain ⟨hresent, hrefused, hsent⟩ := hheads
  rw [← hkeeps.response, ← hkeeps.kept] at hresent hrefused hsent
  exact ⟨hresent, hrefused, hsent⟩

end Heads

/-- What goes on after the header was called for decides which bytes come behind it. -/
theorem heads_of_sendHeader {Body : Bytes → Prop} (hnil : Body []) {e later : Exchange ν}
    (hother : ∀ result mid, exec sendHeader.run e = (result, mid) → result ≠ some (.ok ()) →
      KeepsWire mid later)
    (hok : ∀ mid, exec sendHeader.run e = (some (.ok ()), mid) → mid.response.headerSent = true →
      later.response.headerSent = true ∧
        ∃ body, Body body ∧ later.outgoing.written = mid.outgoing.written ++ body) :
    Heads e.response.header Body e later := by
  have hgoes := headerGoes e
  generalize hexec : exec sendHeader.run e = outcome at hgoes
  cases hgoes with
  | again hsent =>
      refine ⟨fun _ => hok e hexec hsent, fun hunsent => ?_, fun hunsent => ?_⟩
      · rw [hsent] at hunsent
        cases hunsent
      · rw [hsent] at hunsent
        cases hunsent
  | refused hunsent failure hfault =>
      have hkeeps := hother _ e hexec nofun
      refine ⟨fun hsent => ?_, fun _ _ => ?_, fun _ hnone => absurd hnone hfault⟩
      · rw [hunsent] at hsent
        cases hsent
      · rw [hkeeps.response]
        exact ⟨hunsent, hkeeps.kept⟩
  | @goes result mid head hunsent hfault hsent hhead hwritten =>
      refine ⟨fun hagain => ?_, fun _ hsome => absurd hfault hsome, fun _ _ => ?_⟩
      · rw [hunsent] at hagain
        cases hagain
      by_cases hresult : result = some (.ok ())
      · subst hresult
        obtain ⟨hlater, body, hbody, hbehind⟩ := hok mid hexec hsent
        exact ⟨hlater, head, body, hhead, hbody, hbehind.trans (by rw [hwritten])⟩
      · have hkeeps := hother _ _ hexec hresult
        refine ⟨hkeeps.headerSent hsent, head, [], hhead, hnil, ?_⟩
        rw [List.append_nil]
        exact hkeeps.kept.trans hwritten

/-- A header on its own has nothing behind it. -/
theorem heads_sendHeader (e : Exchange ν) :
    Heads e.response.header (· = []) e (exec sendHeader.run e).2 := by
  refine heads_of_sendHeader ?_ (fun result mid hexec _ => ?_) fun mid hexec hsent => ?_
  · rfl
  · rw [hexec]
    exact (Waits.refl mid).toWithholds.keepsWire
  · rw [hexec]
    exact ⟨hsent, [], rfl, (List.append_nil _).symm⟩

/-- What is sent with a changed header comes behind it. -/
theorem heads_change_bind {f : Unit → ExceptT SendError (Serving ν) α} {Body : Bytes → Prop}
    (change : ResponseHeader → ResponseHeader) (e : Exchange ν) (hmoves : Moves Sends (f ()).run)
    (hf : ∀ mid : Exchange ν, mid.response.headerSent = true →
      ∃ body, Body body ∧ (exec (f ()).run mid).2.outgoing.written = mid.outgoing.written ++ body)
    (hnil : Body []) :
    Heads (change e.response.header) Body e
      (exec ((modify fun e => e.changeHeader change) >>= fun _ => sendHeader >>= f).run e).2 := by
  rw [exec_ebind, exec_emodify]
  dsimp only
  have hheads : Heads (e.changeHeader change).response.header Body (e.changeHeader change)
      (exec (sendHeader >>= f).run (e.changeHeader change)).2 := by
    refine heads_of_sendHeader hnil (fun result mid hexec hno => ?_) fun mid hexec hsent => ?_
    · rw [exec_ebind, hexec]
      rcases result with _ | _ | _
      · exact (Waits.refl mid).toWithholds.keepsWire
      · exact (Waits.refl mid).toWithholds.keepsWire
      · exact absurd rfl hno
    · rw [exec_ebind, hexec]
      exact ⟨(hmoves mid).headerSent hsent, hf mid hsent⟩
  exact hheads.of_changeHeader

theorem heads_finish (e : Exchange ν) :
    Heads e.response.header.announceNoBody (· = []) e (exec finish.run e).2 := by
  by_cases hsent : e.response.headerSent = true
  · rw [exec_finish_of_headerSent hsent]
    have hkeeps := e.keepsWire_finish
    refine ⟨fun _ => ⟨hkeeps.headerSent hsent, [], rfl, ?_⟩, fun hno => ?_, fun hno => ?_⟩
    · rw [hkeeps.kept, List.append_nil]
    · rw [hsent] at hno
      cases hno
    · rw [hsent] at hno
      cases hno
  · have hfinish := exec_finish e
    rw [if_neg hsent] at hfinish
    have hheads : Heads (e.changeHeader (·.announceNoBody)).response.header (· = [])
        (e.changeHeader (·.announceNoBody)) (exec finish.run e).2 := by
      refine heads_of_sendHeader ?_ (fun result mid hexec _ => ?_) fun mid hexec hmid => ?_
      · rfl
      · rw [hfinish, hexec]
        cases result with
        | none => exact (Waits.refl mid).toWithholds.keepsWire
        | some outcome => exact mid.keepsWire_finish
      · have hkeeps := mid.keepsWire_finish
        rw [hfinish, hexec]
        exact ⟨hkeeps.headerSent hmid, [], rfl, hkeeps.kept.trans (List.append_nil _).symm⟩
    exact hheads.of_changeHeader

/-- A whole body comes behind its header, as far as the peer takes it. -/
theorem heads_sendBody (mediaType : String) (body : Bytes) (e : Exchange ν) :
    Heads (headerOfBody e.response.header mediaType body) (· <+: body) e
      (exec (sendBody mediaType body).run e).2 :=
  heads_change_bind (headerOfBody · mediaType body) e (moves_body body)
    (fun _ hsent => exists_of_puts (puts_body body hsent)) List.nil_prefix

theorem heads_sendReader (source : Incoming) (length : Nat) (e : Exchange ν) :
    Heads (headerOfSource e.response.header length) (· <+: source.content) e
      (exec (sendReader source length).run e).2 := by
  refine heads_change_bind (headerOfSource · length) e ?_
    (fun mid hsent => exists_of_puts ?_) List.nil_prefix
  · exact moves_ebind (moves_copySource _ _) fun _ => moves_finish
  · suffices h : Puts _ mid (source.content ++ []) by rwa [List.append_nil] at h
    refine puts_bind (puts_copySource _ _ _) (moves_copySource _ _) fun _ later hlater => ?_
    exact puts_finish (((moves_copySource _ _).exec hlater).headerSent hsent)

/-! ## Streams -/

/-- **The step of a writer**: what its call puts on the wire is owed, with what comes after it. -/
theorem owesPart_answer {w : Writer} (hframed : w.Framed) {call : WriterCall}
    (hcall : w.call = some call) (e : Exchange ν) :
    ∃ put, (exec (answer call) e).2.outgoing.written = e.outgoing.written ++ put ∧
      w.OwesPart put ∧ ∀ reply, (exec (answer call) e).1 = some reply →
        ∀ body, (w.resume call reply).OwesPart body → w.OwesPart (put ++ body) := by
  by_cases hwrite : ∃ bytes, call = .write bytes
  · obtain ⟨bytes, rfl⟩ := hwrite
    obtain ⟨put, hwritten, hput, hok, _⟩ := puts_transmit bytes e
    refine ⟨put, hwritten, ⟨bytes, Writer.owes_of_call_write hframed hcall, hput⟩,
      fun reply hreply body => Writer.owesPart_resume_write hframed hcall hput fun hreplied => ?_⟩
    exact hok () (hreplied ▸ hreply)
  · have hno (bytes : Bytes) : call ≠ .write bytes := fun h => hwrite ⟨bytes, h⟩
    refine ⟨[], ?_, w.owesPart_nil,
      fun reply _ body => Writer.owesPart_resume_of_not_write hframed hcall hno⟩
    rw [List.append_nil]
    exact congrArg Outgoing.written (moves_answer_of_not_write hno e).outgoing

/-- A writer puts chunks on the wire, the last of which the peer may have taken in part. -/
theorem owesPart_runWriter (calls : Nat) {w : Writer} (hframed : w.Framed) (e : Exchange ν) :
    ∃ put, w.OwesPart put ∧
      (exec (runWriter calls w) e).2.outgoing.written = e.outgoing.written ++ put := by
  induction calls generalizing w e with
  | zero =>
      refine ⟨[], w.owesPart_nil, ?_⟩
      rw [List.append_nil]
      exact congrArg Outgoing.written (moves_never e).outgoing
  | succ calls ih =>
      rw [runWriter]
      cases hcall : w.call with
      | none => exact ⟨[], w.owesPart_nil, (List.append_nil _).symm⟩
      | some call =>
          dsimp only
          obtain ⟨put, hwritten, hput, hresume⟩ := owesPart_answer hframed hcall e
          rw [exec_bind]
          rcases hanswer : exec (answer call) e with ⟨_ | reply, mid⟩
          · rw [hanswer] at hwritten
            exact ⟨put, hput, hwritten⟩
          · rw [hanswer] at hwritten hresume
            obtain ⟨more, hmore, hlater⟩ := ih (w.goesOn_resume hframed hcall reply).1 mid
            refine ⟨put ++ more, hresume reply rfl more hmore, ?_⟩
            rw [hlater, hwritten, List.append_assoc]

/-- A first part of a body that is made of chunks. -/
def IsChunkedPart (body : Bytes) : Prop := ∃ whole, IsChunked whole ∧ body <+: whole

/-- The body of a stream, or a first part of it, comes behind the header. -/
theorem exists_part_of_writeStream (calls : Nat) {e : Exchange ν}
    (hsent : e.response.headerSent = true) :
    ∃ body, IsChunkedPart body ∧
      (exec ((ExceptT.mk (runWriter calls {})).adapt SendError.connection >>= fun _ => finish).run
        e).2.outgoing.written = e.outgoing.written ++ body := by
  obtain ⟨body, hbody, hwritten⟩ := owesPart_runWriter calls (w := {}) (fun _ => rfl) e
  refine ⟨body, hbody, ?_⟩
  have hmoves := moves_runWriter calls {} e
  rw [exec_ebind, exec_adapt, ExceptT.run_mk]
  rcases hrun : exec (runWriter calls {}) e with ⟨_ | _ | _, mid⟩
  · rw [hrun] at hwritten
    exact hwritten
  · rw [hrun] at hwritten
    exact hwritten
  · rw [hrun] at hwritten hmoves
    change (exec finish.run mid).2.outgoing.written = _
    rw [exec_finish_of_headerSent (hmoves.headerSent hsent)]
    exact (outgoing_shutDown mid).trans hwritten

/-- What a writer puts behind a header is a part of chunks. -/
theorem heads_sendStream (calls : Nat) (e : Exchange ν) :
    Heads (e.response.header.announceChunks e.source.queue.encoding) IsChunkedPart e
      (exec (sendStream calls).run e).2 := by
  rw [sendStream, exec_ebind, exec_emodify]
  dsimp only
  rw [exec_ebind, exec_lift]
  let announced := (e.changeHeader fun h => h.announceChunks e.source.queue.encoding).connectStream
  suffices hheads : Heads announced.response.header IsChunkedPart announced _ from
    ⟨hheads.resent, hheads.refused, hheads.sent⟩
  refine heads_of_sendHeader ⟨[], isChunked_nil, List.prefix_rfl⟩ (fun result mid hexec hno => ?_)
    fun mid hexec hsent => ?_
  · rw [hexec]
    rcases result with _ | _ | _
    · exact (Waits.refl mid).toWithholds.keepsWire
    · exact (mid.waits_putSource _).toWithholds.keepsWire
    · exact absurd rfl hno
  · rw [hexec]
    exact ⟨(moves_writeStream calls mid).headerSent hsent, exists_part_of_writeStream calls hsent⟩

theorem heads_sendChunked (body : ChunkedBody ν) (e : Exchange ν) :
    Heads (e.response.header.announceChunks (e.openStream body).source.queue.encoding)
      IsChunkedPart e (exec (sendChunked body) e).2 := by
  have hopened : e.Waits ((e.openStream body).schedule body.batches) :=
    (e.waits_openStream body).trans (waits_agenda _ _)
  have hstream := heads_sendStream body.calls ((e.openStream body).schedule body.batches)
  rw [hopened.response] at hstream
  refine Heads.of_keepsWire (Heads.of_waits hopened hstream) ?_
  rw [exec_sendChunked]
  rcases exec (sendStream body.calls).run _ with ⟨_ | result, mid⟩
  · exact (Waits.refl mid).toWithholds.keepsWire
  · exact mid.waits_closeStream.toWithholds.keepsWire

end Serving

/-! ## One operation -/

open Serving

namespace Operation

variable {ν : Type}

/-- The interim line that an operation may put on the wire. -/
def line (e : Exchange ν) : Operation ν → Bytes
  | .respond .interim => if e.response.headerSent then [] else e.response.header.interimLine
  | _ => []

/-- These bytes are a first part of a body that an operation sends. -/
def Part (op : Operation ν) (e : Exchange ν) (body : Bytes) : Prop :=
  ∃ whole, op.Carries e whole ∧ body <+: whole

/-- Every operation may be cut off before the body. -/
theorem part_nil (op : Operation ν) (e : Exchange ν) : op.Part e [] :=
  ⟨[], op.carries_nil e, List.prefix_rfl⟩

/-- A whole body is a part of itself. -/
theorem Carries.part {op : Operation ν} {e : Exchange ν} {body : Bytes} (h : op.Carries e body) :
    op.Part e body :=
  ⟨body, h, List.prefix_rfl⟩

/-- **What an operation puts on the wire**, from one exchange to the other, whatever the peer
takes. -/
inductive Reaches (op : Operation ν) (e later : Exchange ν) : Prop
  | announces (h : ResponseHeader) (hattempt : op.attempt e = some h)
      (hheads : Heads h (op.Part e) e later)
  | withholds {line : Bytes} (hattempt : op.attempt e = none)
      (hsent : later.response.headerSent = e.response.headerSent) (hline : line <+: op.line e)
      (hwritten : later.outgoing.written = e.outgoing.written ++ line)

end Operation

namespace Serving

variable {ν : Type}

open Exchange

/-- The interim line reaches the peer in part or in whole, and only before the header. -/
theorem reaches_sendContinue (e : Exchange ν) :
    (Operation.respond .interim).Reaches e (exec sendContinue.run e).2 := by
  rw [sendContinue, exec_ebind, exec_eget]
  dsimp only
  by_cases hsent : e.response.headerSent = true
  · rw [if_neg (by simp [hsent])]
    exact .withholds rfl rfl List.nil_prefix (List.append_nil _).symm
  · rw [if_pos (by simpa using hsent), exec_adapt]
    obtain ⟨line, hwritten, hline, _⟩ := puts_transmit e.response.header.interimLine e
    refine .withholds rfl (congrArg Response.headerSent (response_transmit _ e)) ?_ hwritten
    rwa [Operation.line, if_neg hsent]

/-- A status reaches the peer as a header, with or without its phrase. -/
theorem reaches_sendStatus (code : Nat) (e : Exchange ν) :
    (Operation.respond (.status code)).Reaches e (exec (sendStatus code).run e).2 := by
  rw [sendStatus, exec_ebind, exec_emodify]
  dsimp only
  by_cases hcode : code = 204
  · have hfinish := heads_finish (e.changeHeader fun h => h.setCode code)
    rw [if_pos hcode]
    refine .announces _ (if_pos hcode) (hfinish.of_changeHeader.mono fun body hbody => ?_)
    rw [hbody]
    exact Operation.part_nil _ e
  · have hsend := heads_sendBody plainTextType (Utf8.ofString (reasonPhrase code))
      (e.changeHeader fun h => h.setCode code)
    rw [if_neg hcode]
    refine .announces _ (if_neg hcode) (hsend.of_changeHeader.mono fun body hbody => ?_)
    refine Operation.Carries.part ?_
    change body <+: if code = 204 then [] else _
    rwa [if_neg hcode]

/-- A file reaches it as a source does, or not at all. -/
theorem reaches_sendFile (path : String) (e : Exchange ν) :
    (Operation.sendFile path).Reaches e (exec (sendFile path).run e).2 := by
  by_cases hfile : ∃ walked data, e.files.openRead path = .ok (walked, .file data)
  · obtain ⟨walked, data, hfind⟩ := hfile
    have hcarries (body : Bytes) (hbody : body <+: data) :
        (Operation.sendFile path).Part e body := by
      refine Operation.Carries.part ?_
      rw [Operation.Carries, hfind]
      exact hbody
    have htyped := heads_sendReader (Incoming.ofBytes data) data.length (e.changeHeader
      fun h => (h.trySetField "Content-Type" (mediaType path)).setCode 200)
    rw [Incoming.content_ofBytes] at htyped
    refine .announces _ (by rw [Operation.attempt, hfind]) (Heads.mono ?_ hcarries)
    rw [exec_sendFile_of_file hfind]
    revert htyped
    rcases exec (sendReader (Incoming.ofBytes data) data.length).run _ with ⟨_ | _ | _, later⟩
    · exact Heads.of_changeHeader
    · exact Heads.of_changeHeader
    · exact Heads.of_changeHeader
  · have hnone (walked : List String) (data : Bytes) :
        e.files.openRead path ≠ .ok (walked, .file data) := fun hfind => hfile ⟨walked, data, hfind⟩
    rw [exec_sendFile_of_not_file hnone]
    refine .withholds ?_ rfl List.nil_prefix (List.append_nil _).symm
    rw [Operation.attempt]
    split
    · rename_i walked data hfind
      exact absurd hfind (hnone walked data)
    · rfl

/-- **What reaches the peer of a call**; the cases are those of the calls. -/
theorem reaches_respond (call : ResponseCall) (e : Exchange ν) :
    (Operation.respond call).Reaches e (exec (respond call).run e).2 := by
  have hnothing (body : Bytes) (h : body = []) : (Operation.respond call).Part e body := by
    rw [h]
    exact Operation.part_nil _ e
  cases call with
  | interim => exact reaches_sendContinue e
  | header => exact .announces _ rfl ((heads_sendHeader e).mono hnothing)
  | text body =>
      exact .announces _ rfl ((heads_sendBody _ _ e).mono fun _ h => Operation.Carries.part h)
  | bytes body =>
      exact .announces _ rfl ((heads_sendBody _ _ e).mono fun _ h => Operation.Carries.part h)
  | reader source length =>
      exact .announces _ rfl
        ((heads_sendReader source length e).mono fun _ h => Operation.Carries.part h)
  | status code => exact reaches_sendStatus code e
  | redirect url code =>
      have hfinish :=
        heads_finish (e.changeHeader fun h => (h.setField "Location" url).setCode code)
      exact .announces _ rfl (hfinish.of_changeHeader.mono hnothing)
  | finish => exact .announces _ rfl ((heads_finish e).mono hnothing)

/-- **Whatever an operation does and the peer takes**, a header, an interim line and a body go on
the wire only as they should. -/
theorem reaches_perform (op : Operation ν) (e : Exchange ν) :
    op.Reaches e (exec (perform op) e).2 := by
  by_cases hanswers : answers op = true
  · cases op with
    | change change => exact .withholds rfl rfl List.nil_prefix (List.append_nil _).symm
    | respond call => exact reaches_respond call e
    | sendFile path => exact reaches_sendFile path e
    | sendChunked body => exact .announces _ rfl (heads_sendChunked body e)
    | _ => cases hanswers
  · have hno : answers op = false := by simpa using hanswers
    have hwithholds := moves_perform_of_not_answers hno e
    have hwritten := congrArg Outgoing.written hwithholds.outgoing
    have hsent := congrArg Response.headerSent hwithholds.response
    cases op with
    | change _ | respond _ | sendFile _ | sendChunked _ => cases hno
    | _ => exact .withholds rfl hsent List.nil_prefix (hwritten.trans (List.append_nil _).symm)

end Serving

/-! ## A whole run -/

namespace Operation

variable {ν : Type}

/-- Behind the header there are no interim lines. -/
theorem line_of_headerSent (op : Operation ν) {e : Exchange ν}
    (hsent : e.response.headerSent = true) : op.line e = [] := by
  unfold line
  split
  · rw [hsent, if_pos rfl]
  · rfl

/-- Behind a header that was sent, an operation puts bytes of its body. -/
theorem Reaches.of_headerSent {op : Operation ν} {e later : Exchange ν} (h : op.Reaches e later)
    (hsent : e.response.headerSent = true) :
    ∃ body, op.Part e body ∧ later.outgoing.written = e.outgoing.written ++ body := by
  cases h with
  | announces _ _ hheads => exact (hheads.resent hsent).2
  | @withholds line _ _ hline hwritten =>
      rw [op.line_of_headerSent hsent, List.prefix_nil] at hline
      rw [hline] at hwritten
      exact ⟨[], op.part_nil e, hwritten⟩

/-- Before a header was sent, an operation sends its own or leaves it to the ones after it. -/
theorem Reaches.of_not_headerSent {op : Operation ν} {e later : Exchange ν}
    (hreaches : op.Reaches e later) (hunsent : e.response.headerSent = false) :
    (op.heads e = none ∧ later.response.headerSent = false ∧
      ∃ line, line <+: op.line e ∧ later.outgoing.written = e.outgoing.written ++ line) ∨
    ∃ h, op.heads e = some h ∧ later.response.headerSent = true ∧
      ∃ head body, head <+: h.toBytes ∧ op.Part e body ∧
        later.outgoing.written = e.outgoing.written ++ head ++ body := by
  cases hreaches with
  | announces h hattempt hheads =>
      cases hfault : h.fault? with
      | none =>
          refine .inr ⟨h, ?_, hheads.sent hunsent hfault⟩
          rw [heads, hattempt, Option.filter_some, hfault, Option.isNone_none, if_pos rfl]
      | some fault =>
          obtain ⟨hlater, hwritten⟩ := hheads.refused hunsent (by simp [hfault])
          refine .inl ⟨?_, hlater, [], List.nil_prefix, hwritten.trans (List.append_nil _).symm⟩
          rw [heads, hattempt, Option.filter_some, hfault, Option.isNone_some,
            if_neg Bool.false_ne_true]
  | @withholds line hattempt hsent hline hwritten =>
      refine .inl ⟨?_, hsent.trans hunsent, line, hline, hwritten⟩
      rw [heads, hattempt, Option.filter_none]

end Operation

namespace Visit

variable {ν : Type}

/-- Each of these is a first part of the interim line of the operation in its place. -/
def Lines (visits : List (Visit ν)) (lines : List Bytes) : Prop :=
  List.Forall₂ (fun visit line => line <+: visit.op.line visit.found) visits lines

/-- Each of these is a first part of a body that the operation in its place sends. -/
def Parts (visits : List (Visit ν)) (parts : List Bytes) : Prop :=
  List.Forall₂ (fun visit part => visit.op.Part visit.found part) visits parts

/-- Interim lines may all be cut off at their start. -/
theorem exists_lines (visits : List (Visit ν)) :
    ∃ lines, Lines visits lines ∧ lines.flatten = [] := by
  induction visits with
  | nil => exact ⟨[], .nil, rfl⟩
  | cons visit rest ih =>
      obtain ⟨lines, hlines, hflatten⟩ := ih
      exact ⟨[] :: lines, .cons List.nil_prefix hlines, hflatten⟩

end Visit

/-- **What operations put on the wire**, one after another, whatever the peer takes: parts of
interim lines, then the first header that could be written, or a part of it, and parts of bodies
behind it. -/
structure Spells {ν : Type} (visits : List (Visit ν)) (e later : Exchange ν) : Prop where
  resent : e.response.headerSent = true →
    ∃ parts, Visit.Parts visits parts ∧ later.outgoing.written = e.outgoing.written ++ parts.flatten
  unsent : e.response.headerSent = false → Visit.sentHeader visits = none →
    ∃ lines, Visit.Lines visits lines ∧ later.outgoing.written = e.outgoing.written ++ lines.flatten
  sent : e.response.headerSent = false → ∀ h, Visit.sentHeader visits = some h →
    ∃ lines head parts, Visit.Lines visits lines ∧ head <+: h.toBytes ∧ Visit.Parts visits parts ∧
      later.outgoing.written = e.outgoing.written ++ lines.flatten ++ head ++ parts.flatten

namespace Spells

variable {ν : Type}

theorem nil (e : Exchange ν) : Spells [] e e where
  resent _ := ⟨[], .nil, (List.append_nil _).symm⟩
  unsent _ _ := ⟨[], .nil, (List.append_nil _).symm⟩
  sent _ _ hsome := nomatch hsome

variable {op : Operation ν} {visits rest : List (Visit ν)} {e mid later : Exchange ν}

/-- What withholds what it does may come first. -/
theorem of_withholds (h : Spells visits mid later) (hfirst : e.Withholds mid) :
    Spells visits e later := by
  obtain ⟨hresent, hunsent, hsent⟩ := h
  rw [hfirst.response, hfirst.outgoing] at hresent hunsent hsent
  exact ⟨hresent, hunsent, hsent⟩

/-- **The step**: an operation in front of others. -/
theorem cons (hreaches : op.Reaches e mid) (hfirst : e.Evolves mid)
    (hrest : Spells rest mid later) : Spells (⟨e, op⟩ :: rest) e later := by
  refine ⟨fun hsent => ?_, fun hunsent hnone => ?_, fun hunsent h hsome => ?_⟩
  · obtain ⟨part, hpart, hmid⟩ := hreaches.of_headerSent hsent
    obtain ⟨parts, hparts, hlater⟩ := hrest.resent (hfirst.headerSent hsent)
    refine ⟨part :: parts, .cons hpart hparts, ?_⟩
    rw [hlater, hmid, List.flatten_cons, List.append_assoc]
  · rw [Visit.sentHeader, List.findSome?_cons] at hnone
    obtain ⟨hheads, hmid, line, hline, hwritten⟩ | ⟨h, hheads, _⟩ :=
      hreaches.of_not_headerSent hunsent
    · rw [hheads] at hnone
      obtain ⟨lines, hlines, hlater⟩ := hrest.unsent hmid hnone
      refine ⟨line :: lines, .cons hline hlines, ?_⟩
      rw [hlater, hwritten, List.flatten_cons, List.append_assoc]
    · rw [hheads] at hnone
      cases hnone
  · rw [Visit.sentHeader, List.findSome?_cons] at hsome
    obtain ⟨hheads, hmid, line, hline, hwritten⟩ |
      ⟨first, hheads, hmid, head, part, hhead, hpart, hwritten⟩ :=
        hreaches.of_not_headerSent hunsent
    · -- The header comes later, so the bodies begin with nothing of this operation.
      rw [hheads] at hsome
      obtain ⟨lines, head, parts, hlines, hhead, hparts, hlater⟩ := hrest.sent hmid h hsome
      refine ⟨line :: lines, head, [] :: parts, .cons hline hlines, hhead,
        .cons (op.part_nil e) hparts, ?_⟩
      rw [hlater, hwritten, List.flatten_cons, List.flatten_cons, List.nil_append]
      simp only [List.append_assoc]
    · -- The header is that of this operation; no interim line comes from it or after it.
      rw [hheads] at hsome
      cases hsome
      obtain ⟨lines, hlines, hflatten⟩ := Visit.exists_lines rest
      obtain ⟨parts, hparts, hlater⟩ := hrest.resent hmid
      refine ⟨[] :: lines, head, part :: parts, .cons List.nil_prefix hlines, hhead,
        .cons hpart hparts, ?_⟩
      rw [hlater, hwritten, List.flatten_cons, List.nil_append, hflatten, List.append_nil,
        List.flatten_cons, List.append_assoc]

end Spells

/-- **At most one header goes out**, whatever a program does and the peer takes. -/
theorem Action.spells_run {ν α : Type} (p : Action ν α) (e : Exchange ν) :
    Spells (p.visits e) e (exec p.run e).2 := by
  induction p generalizing e with
  | done a => exact .nil e
  | panic => exact .nil e
  | perform op next ih =>
      have hreaches := reaches_perform op e
      have hmoves := moves_perform op e
      rw [visits, exec_run_perform]
      generalize exec (Serving.perform op) e = outcome at hreaches hmoves
      obtain ⟨_ | reply, mid⟩ := outcome
      · exact .cons hreaches hmoves (.nil mid)
      · exact .cons hreaches hmoves (ih reply mid)

end HttpServer
