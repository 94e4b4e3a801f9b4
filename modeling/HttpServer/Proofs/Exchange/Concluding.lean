import HttpServer.Proofs.Exchange.AnyPeer
import HttpServer.Proofs.Exchange.Production
import HttpServer.Proofs.Response.BodyFraming

/-!
# What comes of sending a response

Whatever answers the peer (`Sending`) puts a header on the wire and its body behind it, or a first
part of these if it does not succeed. If it finds that its header cannot be written, nothing is on
the wire, and the header stays as it was to be sent; no later failure is one of the header
(`Serving.FaultFree`). Where an exchange sends its first header, nothing else can come of it
(`Sending.concludes_run`).
-/

namespace HttpServer

open Serving Exchange ResponseHeader

namespace Serving

variable {ν α β ε : Type}

/-! ## Failures that are none of the header -/

/-- The computation finds no header that cannot be written. -/
def FaultFree (x : ExceptT SendError (Serving ν) α) (e : Exchange ν) : Prop :=
  ∀ fault, (exec x.run e).1 ≠ some (.error (.invalidHeader fault))

theorem faultFree_epure (a : α) (e : Exchange ν) : FaultFree (pure a) e := by
  intro fault h
  cases h

theorem faultFree_eget (e : Exchange ν) : FaultFree get e := by
  intro fault h
  rw [exec_eget] at h
  cases h

/-- Computations in a row are free of faults if each is where it is run. -/
theorem faultFree_bind {x : ExceptT SendError (Serving ν) α}
    {f : α → ExceptT SendError (Serving ν) β} {e : Exchange ν} (hx : FaultFree x e)
    (hf : ∀ a later, exec x.run e = (some (.ok a), later) → FaultFree (f a) later) :
    FaultFree (x >>= f) e := by
  intro fault h
  rw [exec_ebind] at h
  rcases hexec : exec x.run e with ⟨_ | failure | a, later⟩
  · rw [hexec] at h
    cases h
  · rw [hexec] at h
    cases h
    exact hx fault (congrArg Prod.fst hexec)
  · rw [hexec] at h
    exact hf a later hexec fault h

/-- A failure that is given another name is none of the header. -/
theorem faultFree_adapt {f : ε → SendError} (hf : ∀ failure fault, f failure ≠ .invalidHeader fault)
    (x : ExceptT ε (Serving ν) α) (e : Exchange ν) : FaultFree (x.adapt f) e := by
  intro fault h
  rw [exec_adapt] at h
  obtain ⟨result, _, hresult⟩ := Option.map_eq_some_iff.1 h
  cases result with
  | error failure => exact hf failure fault (Except.error.inj hresult)
  | ok a => cases hresult

/-- A write fails for the connection alone. -/
theorem faultFree_transmit (data : Bytes) (e : Exchange ν) :
    FaultFree ((transmit data).adapt .connection) e :=
  faultFree_adapt (fun _ _ => SendError.noConfusion) _ e

/-- Finishing behind a header that was sent does not fail. -/
theorem faultFree_finish {e : Exchange ν} (h : e.response.headerSent = true) :
    FaultFree finish e := by
  intro fault hfault
  rw [exec_finish_of_headerSent h] at hfault
  cases hfault

/-- Behind a header that was sent nothing can be wrong with it. -/
theorem faultFree_body (body : Bytes) {e : Exchange ν} (h : e.response.headerSent = true) :
    FaultFree (do if body ≠ [] then (transmit body).adapt .connection
                  finish : ExceptT SendError (Serving ν) Unit) e := by
  split
  · refine faultFree_bind (faultFree_transmit body e) fun _ later hlater => ?_
    exact faultFree_finish (((moves_adapt (moves_transmit _)).exec hlater).headerSent h)
  · exact faultFree_finish h

/-- Copying a source fails for the source or the connection. -/
theorem faultFree_copySource (pieces : Nat) (source : Incoming) (e : Exchange ν) :
    FaultFree (copySource pieces source) e := by
  induction pieces generalizing source e with
  | zero =>
      intro fault h
      have hnever := exec_never (α := Except SendError Unit) e
      rw [copySource] at h
      cases hnever.symm.trans h
  | succ pieces ih =>
      refine faultFree_bind (faultFree_eget e) fun found later _ => ?_
      refine faultFree_bind (faultFree_adapt (fun _ _ => SendError.noConfusion) _ later) ?_
      rintro ⟨data, rest⟩ mid _
      dsimp only
      split
      · exact faultFree_bind (faultFree_transmit data mid) fun _ last _ => ih rest last
      · exact faultFree_epure () mid

/-! ## Headers -/

/-- A header with a fault is refused, and nothing is done. -/
theorem exec_sendHeader_of_fault {e : Exchange ν} {fault : HeaderFault}
    (hunsent : e.response.headerSent = false) (hfault : e.response.header.fault? = some fault) :
    exec sendHeader.run e = (some (.error (.invalidHeader fault)), e) := by
  rw [sendHeader, exec_ebind, exec_eget]
  dsimp only
  rw [if_pos (by simp [hunsent]), writeTo, hfault]
  rfl

/-- Any other is marked as sent and written. -/
theorem exec_sendHeader_of_fits {e : Exchange ν} (hunsent : e.response.headerSent = false)
    (hfault : e.response.header.fault? = none) :
    exec sendHeader.run e =
      exec ((transmit e.response.header.toBytes).adapt SendError.connection).run
        e.markHeaderSent := by
  rw [sendHeader, exec_ebind, exec_eget]
  dsimp only
  rw [if_pos (by simp [hunsent]), writeTo, hfault]
  dsimp only
  rw [exec_ebind, exec_emodify, List.nil_append]

/-- **What comes of sending a response** with this header, the first one of the exchange. A first
part of header and body is on the wire, and all of both if it succeeds. A header that can be written
counts as sent; one that cannot leaves the wire alone and stays in its place. -/
structure Concludes (h : ResponseHeader) (Body : Bytes → Prop) (e : Exchange ν)
    (outcome : Option (Except SendError Unit) × Exchange ν) : Prop where
  wire : ∃ body sent, outcome.2.outgoing.written = e.outgoing.written ++ sent ∧
    sent <+: h.toBytes ++ body ∧
    (outcome.1 = some (.ok ()) → Body body ∧ sent = h.toBytes ++ body)
  marked : h.fault? = none → outcome.2.response.headerSent = true
  named : ∀ fault, outcome.1 = some (.error (.invalidHeader fault)) → h.fault? = some fault
  refused : ∀ fault, h.fault? = some fault →
    (outcome.1 = some (.error (.invalidHeader fault)) ∨ outcome.1 = none) ∧
      outcome.2.response = { header := h } ∧ outcome.2.outgoing.written = e.outgoing.written

variable {h : ResponseHeader} {Body : Bytes → Prop} {e : Exchange ν}
  {outcome : Option (Except SendError Unit) × Exchange ν}

/-- What comes before the header is sent and writes nothing does not matter. -/
theorem Concludes.of_written {mid : Exchange ν} (hconcludes : Concludes h Body mid outcome)
    (hsame : mid.outgoing.written = e.outgoing.written) : Concludes h Body e outcome := by
  obtain ⟨hwire, hmarked, hnamed, hrefused⟩ := hconcludes
  rw [hsame] at hwire hrefused
  exact ⟨hwire, hmarked, hnamed, hrefused⟩

/-- What is sent in the end had a header that can be written, and all of it is on the wire. -/
theorem Concludes.sent (hconcludes : Concludes h Body e outcome)
    (hok : outcome.1 = some (.ok ())) : h.fault? = none ∧ ∃ body, Body body ∧
      outcome.2.outgoing.written = e.outgoing.written ++ h.toBytes ++ body := by
  obtain ⟨body, sent, hwritten, _, hall⟩ := hconcludes.wire
  obtain ⟨hbody, rfl⟩ := hall hok
  refine ⟨?_, body, hbody, hwritten.trans (List.append_assoc _ _ _).symm⟩
  cases hfault : h.fault? with
  | none => rfl
  | some fault =>
      rcases (hconcludes.refused fault hfault).1 with hno | hno
      · cases hno.symm.trans hok
      · cases hno.symm.trans hok

/-- **What goes on after the header was called for** decides what comes behind it. -/
theorem concludes_of_sendHeader (hunsent : e.response.headerSent = false)
    (hother : ∀ result mid, exec sendHeader.run e = (result, mid) → result ≠ some (.ok ()) →
      KeepsWire mid outcome.2 ∧ (outcome.1 = result ∨ outcome.1 = none))
    (hok : ∀ mid, exec sendHeader.run e = (some (.ok ()), mid) → mid.response.headerSent = true →
      outcome.2.response.headerSent = true ∧
        (∀ fault, outcome.1 ≠ some (.error (.invalidHeader fault))) ∧
        ∃ body sent, outcome.2.outgoing.written = mid.outgoing.written ++ sent ∧ sent <+: body ∧
          (outcome.1 = some (.ok ()) → Body body ∧ sent = body)) :
    Concludes e.response.header Body e outcome := by
  cases hfault : e.response.header.fault? with
  | some fault =>
      obtain ⟨hkeeps, hresult⟩ := hother _ e (exec_sendHeader_of_fault hunsent hfault) nofun
      refine ⟨⟨[], [], ?_, List.nil_prefix, fun hsent => ?_⟩, fun hnone => ?_,
        fun other hrefused => ?_, fun other hother => ?_⟩
      · rw [hkeeps.kept, List.append_nil]
      · rcases hresult with hresult | hresult
        · cases hresult.symm.trans hsent
        · cases hresult.symm.trans hsent
      · cases hfault.symm.trans hnone
      · rcases hresult with hresult | hresult
        · cases hresult.symm.trans hrefused
          exact hfault
        · cases hresult.symm.trans hrefused
      · cases hfault.symm.trans hother
        refine ⟨hresult, hkeeps.response.trans ?_, hkeeps.kept⟩
        rw [← hunsent]
  | none =>
      have hsends := headerGoes e
      have hfree := faultFree_transmit e.response.header.toBytes e.markHeaderSent
      have hputs := puts_sendHeader e
      rw [pendingHeader, if_neg (by simp [hunsent])] at hputs
      obtain ⟨head, hwritten, hhead, hall, _⟩ := hputs
      unfold FaultFree at hfree
      rw [← exec_sendHeader_of_fits hunsent hfault] at hfree
      rcases hexec : exec sendHeader.run e with ⟨result, mid⟩
      rw [hexec] at hsends hfree hwritten hall
      have hmarked : mid.response.headerSent = true := by
        cases hsends with
        | again hsent => exact hsent
        | refused _ _ hsome => exact absurd hfault hsome
        | goes _ _ hsent _ _ => exact hsent
      by_cases hresult : result = some (.ok ())
      · subst hresult
        obtain ⟨hlater, hnone, body, sent, hbehind, hsent, hbody⟩ := hok mid hexec hmarked
        have hhead : head = e.response.header.toBytes := hall () rfl
        refine ⟨⟨body, head ++ sent, ?_, ?_, fun hdone => ?_⟩, fun _ => hlater,
          fun fault hrefused => absurd hrefused (hnone fault), fun fault hsome => ?_⟩
        · rw [hbehind, hwritten, List.append_assoc]
        · rw [hhead]
          exact (List.prefix_append_right_inj _).2 hsent
        · obtain ⟨hbodyOf, hsame⟩ := hbody hdone
          exact ⟨hbodyOf, by rw [hhead, hsame]⟩
        · cases hfault.symm.trans hsome
      · obtain ⟨hkeeps, houtcome⟩ := hother result mid hexec hresult
        refine ⟨⟨[], head, hkeeps.kept.trans hwritten, ?_, fun hdone => ?_⟩,
          fun _ => hkeeps.headerSent hmarked, fun fault hrefused => ?_, fun fault hsome => ?_⟩
        · rw [List.append_nil]
          exact hhead
        · rcases houtcome with houtcome | houtcome
          · exact absurd (houtcome.symm.trans hdone) hresult
          · cases houtcome.symm.trans hdone
        · rcases houtcome with houtcome | houtcome
          · exact absurd (houtcome.symm.trans hrefused) (hfree fault)
          · cases houtcome.symm.trans hrefused
        · cases hfault.symm.trans hsome

/-- What is sent behind a changed header. -/
theorem concludes_change_bind {f : Unit → ExceptT SendError (Serving ν) Unit} {data : Bytes}
    (change : ResponseHeader → ResponseHeader) (hunsent : e.response.headerSent = false)
    (hmoves : Moves Sends (f ()).run)
    (hputs : ∀ mid : Exchange ν, mid.response.headerSent = true → Puts (f ()) mid data)
    (hfree : ∀ mid : Exchange ν, mid.response.headerSent = true → FaultFree (f ()) mid) :
    Concludes (change e.response.header) (· = data) e
      (exec ((modify fun e => e.changeHeader change) >>= fun _ => sendHeader >>= f).run e) := by
  rw [exec_ebind, exec_emodify]
  dsimp only
  suffices hconcludes : Concludes (e.changeHeader change).response.header (· = data)
      (e.changeHeader change) (exec (sendHeader >>= f).run (e.changeHeader change)) from
    hconcludes.of_written rfl
  refine concludes_of_sendHeader hunsent (fun result mid hexec hno => ?_) fun mid hexec hsent => ?_
  · rw [exec_ebind, hexec]
    rcases result with _ | _ | _
    · exact ⟨(Waits.refl mid).toWithholds.keepsWire, .inl rfl⟩
    · exact ⟨(Waits.refl mid).toWithholds.keepsWire, .inl rfl⟩
    · exact absurd rfl hno
  · rw [exec_ebind, hexec]
    obtain ⟨sent, hwritten, hprefix, hall, _⟩ := hputs mid hsent
    refine ⟨(hmoves mid).headerSent hsent, hfree mid hsent, data, sent, hwritten, hprefix, ?_⟩
    exact fun hdone => ⟨rfl, hall () hdone⟩

/-- A header on its own goes out without a body. -/
theorem concludes_sendHeader (hunsent : e.response.headerSent = false) :
    Concludes e.response.header (· = []) e (exec sendHeader.run e) := by
  refine concludes_of_sendHeader hunsent (fun result mid hexec _ => ?_) fun mid hexec hsent => ?_
  · rw [hexec]
    exact ⟨(Waits.refl mid).toWithholds.keepsWire, .inl rfl⟩
  · rw [hexec]
    exact ⟨hsent, fun _ => nofun, [], [], (List.append_nil _).symm, List.prefix_rfl,
      fun _ => ⟨rfl, rfl⟩⟩

theorem concludes_finish (hunsent : e.response.headerSent = false) :
    Concludes e.response.header.announceNoBody (· = []) e (exec finish.run e) := by
  have hfinish := exec_finish e
  rw [if_neg (by simp [hunsent])] at hfinish
  suffices hconcludes : Concludes (e.changeHeader (·.announceNoBody)).response.header (· = [])
      (e.changeHeader (·.announceNoBody)) (exec finish.run e) from hconcludes.of_written rfl
  refine concludes_of_sendHeader hunsent (fun result mid hexec _ => ?_) fun mid hexec hsent => ?_
  · rw [hfinish, hexec]
    cases result with
    | none => exact ⟨(Waits.refl mid).toWithholds.keepsWire, .inl rfl⟩
    | some outcome => exact ⟨mid.keepsWire_finish, .inl rfl⟩
  · have hkeeps := mid.keepsWire_finish
    rw [hfinish, hexec]
    exact ⟨hkeeps.headerSent hsent, fun _ => nofun, [], [],
      hkeeps.kept.trans (List.append_nil _).symm, List.prefix_rfl, fun _ => ⟨rfl, rfl⟩⟩

/-- A whole body goes out behind its header. -/
theorem concludes_sendBody (mediaType : String) (body : Bytes)
    (hunsent : e.response.headerSent = false) :
    Concludes (headerOfBody e.response.header mediaType body) (· = body) e
      (exec (sendBody mediaType body).run e) :=
  concludes_change_bind (headerOfBody · mediaType body) hunsent (moves_body body)
    (fun _ => puts_body body) fun _ => faultFree_body body

/-- A source goes out behind its header, if all of it can be read. -/
theorem concludes_sendReader (source : Incoming) (length : Nat)
    (hunsent : e.response.headerSent = false) :
    Concludes (headerOfSource e.response.header length) (· = source.content) e
      (exec (sendReader source length).run e) := by
  refine concludes_change_bind (headerOfSource · length) hunsent
    (moves_ebind (moves_copySource _ _) fun _ => moves_finish) (fun mid hsent => ?_)
    fun mid hsent => ?_
  · suffices h : Puts _ mid (source.content ++ []) by rwa [List.append_nil] at h
    refine puts_bind (puts_copySource _ _ _) (moves_copySource _ _) fun _ later hlater => ?_
    exact puts_finish (((moves_copySource _ _).exec hlater).headerSent hsent)
  · refine faultFree_bind (faultFree_copySource _ _ _) fun _ later hlater => ?_
    exact faultFree_finish (((moves_copySource _ _).exec hlater).headerSent hsent)

/-- A body that production ended well is framed as a whole. -/
theorem decode_wire {log : Transcript} (h : log.Tally [none] [] none [lastChunk]) :
    ∃ data, Chunk.decode log.wire = some (data, []) := by
  obtain ⟨pieces, hpieces, hflushed⟩ := h.framed
  obtain ⟨cut, hwire, hnone, _⟩ := h.wire
  have hall := Chunk.decode_chunks hpieces []
  refine ⟨pieces.flatten, ?_⟩
  rw [hwire, hnone rfl, hflushed, List.append_nil, List.flatten_append, List.flatten_singleton,
    ← List.flatMap_def]
  rwa [List.append_nil] at hall

/-- Once a stream was announced, its writer runs, or production ends with the failure of the
header. -/
theorem exec_sendStreamWith (respondent : Respondent ν) (calls : Nat) (e : Exchange ν) :
    exec (sendStreamWith respondent calls).run e =
      match exec sendHeader.run e.announceStream with
      | (some (.ok ()), mid) =>
        exec ((ExceptT.mk (runWriterWith respondent calls {})).adapt SendError.connection >>=
          fun _ => finish).run mid
      | (some (.error failure), mid) =>
        match exec (refuse respondent failure) mid with
        | (some _, last) => (some (.error failure), last)
        | (none, last) => (none, last)
      | (none, mid) => (none, mid) := by
  rw [sendStreamWith, exec_ebind, exec_emodify]
  dsimp only
  rw [exec_ebind, exec_lift]
  rcases exec sendHeader.run e.announceStream with ⟨_ | failure | _, mid⟩
  · rfl
  · dsimp only [Option.map]
    rw [exec_ebind, exec_lift]
    rcases exec (refuse respondent failure) mid with ⟨_ | _, last⟩
    · rfl
    · rfl
  · rfl

/-- **What a writer brings to its end decodes**, whoever answers it. -/
theorem concludes_sendStreamWith {respondent : Respondent ν} (hanswers : Answers respondent)
    (calls : Nat) (hunsent : e.response.headerSent = false) :
    Concludes (e.response.header.announceChunks e.source.queue.encoding)
      (fun body => ∃ data, Chunk.decode body = some (data, [])) e
      (exec (sendStreamWith respondent calls).run e) := by
  have hrun := exec_sendStreamWith respondent calls e
  suffices hconcludes : Concludes e.announceStream.response.header
      (fun body => ∃ data, Chunk.decode body = some (data, [])) e.announceStream
      (exec (sendStreamWith respondent calls).run e) from hconcludes.of_written rfl
  refine concludes_of_sendHeader hunsent (fun result mid hexec hno => ?_) fun mid hexec hsent => ?_
  · rw [hexec] at hrun
    rw [hrun]
    rcases result with _ | failure | _
    · exact ⟨(Waits.refl mid).toWithholds.keepsWire, .inl rfl⟩
    · have hwaits : mid.Waits (exec (refuse respondent failure) mid).2 :=
        hanswers.waits (.endProduction (some failure.toIoError)) nofun mid
      dsimp only
      rcases hend : exec (refuse respondent failure) mid with ⟨_ | _, last⟩
      · rw [hend] at hwaits
        exact ⟨hwaits.toWithholds.keepsWire, .inr rfl⟩
      · rw [hend] at hwaits
        exact ⟨hwaits.toWithholds.keepsWire, .inl rfl⟩
    · exact absurd rfl hno
  · rw [hexec] at hrun
    have hsends : mid.Sends (exec (sendStreamWith respondent calls).run e).2 := by
      rw [hrun]
      exact moves_ebind (moves_adapt (hanswers.sends_runWriterWith calls {}))
        (fun _ => moves_finish) mid
    refine ⟨hsends.headerSent hsent, ?_, ?_⟩
    · rw [hrun]
      refine faultFree_bind (faultFree_adapt (fun _ _ => SendError.noConfusion) _ mid) ?_
      intro _ later hlater
      have hruns := (moves_adapt (hanswers.sends_runWriterWith calls {})).exec hlater
      exact faultFree_finish (hruns.headerSent hsent)
    · obtain ⟨sent, hsentBytes⟩ := hsends.written
      refine ⟨sent, sent, hsentBytes.symm, List.prefix_rfl, fun hresult => ⟨?_, rfl⟩⟩
      -- Where it succeeds, the writer is through, and finishing writes nothing more.
      rw [hrun] at hresult hsentBytes
      dsimp only at hresult hsentBytes
      rw [exec_ebind, exec_adapt, ExceptT.run_mk] at hresult hsentBytes
      rcases hwriter : exec (runWriterWith respondent calls {}) mid with ⟨_ | failure | _, last⟩
      · rw [hwriter] at hresult
        cases hresult
      · rw [hwriter] at hresult
        cases hresult
      · obtain ⟨_, ⟨write, htally, hcause⟩, hwire⟩ := hanswers.contract_of_run hwriter
        have hlast := ((hanswers.sends_runWriterWith calls {}).exec hwriter).headerSent hsent
        have hfinish : mid.outgoing.written ++ sent =
            (exec finish.run last).2.outgoing.written := by
          rw [hwriter] at hsentBytes
          exact hsentBytes
        rw [exec_finish_of_headerSent hlast] at hfinish
        have hshut := hfinish.trans (outgoing_shutDown last)
        rw [hwire] at hshut
        rw [List.append_cancel_left hshut]
        cases write with
        | some failure => cases hcause failure rfl
        | none => exact decode_wire htally

end Serving

/-! ## Everything that sends a response -/

/-- A way to answer the peer. -/
inductive Sending (ν : Type)
  | plain (call : ResponseCall)
  /-- A stream, the writer of which someone answers. -/
  | stream (respondent : Respondent ν) (calls : Nat)
  /-- A stream that other tasks feed. -/
  | fed (body : ChunkedBody ν)

namespace Sending

variable {ν : Type}

def run : Sending ν → Serving ν (Except SendError Unit)
  | .plain call => (respond call).run
  | .stream respondent calls => (sendStreamWith respondent calls).run
  | .fed body => do return (← sendChunked body).2

/-- Whoever answers the writer of a stream does what such a one has to do. -/
def Sound : Sending ν → Prop
  | .stream respondent _ => Answers respondent
  | _ => True

/-- The header that is to be sent in an exchange. -/
def header? (e : Exchange ν) : Sending ν → Option ResponseHeader
  | .plain call => call.header? e.response.header
  | .stream .. => some (e.response.header.announceChunks e.source.queue.encoding)
  | .fed body => some (e.response.header.announceChunks (e.openStream body).source.queue.encoding)

/-- Whatever sends a response calls for a header. -/
theorem exists_header? {sending : Sending ν} (hsends : sending ≠ .plain .interim) (e : Exchange ν) :
    ∃ h, sending.header? e = some h := by
  cases sending with
  | plain call => exact call.exists_header? (fun hcall => hsends (congrArg plain hcall)) _
  | stream respondent calls => exact ⟨_, rfl⟩
  | fed body => exact ⟨_, rfl⟩

/-- These bytes are the body: those that a call is given, or chunks and the end of them. -/
def Carries (body : Bytes) : Sending ν → Prop
  | .plain call => body = call.body
  | _ => ∃ data, Chunk.decode body = some (data, [])

/-- A status goes out with its phrase, or without a body. -/
theorem concludes_sendStatus (code : Nat) {e : Exchange ν} {h : ResponseHeader}
    (hunsent : e.response.headerSent = false)
    (hheader : (ResponseCall.status code).header? e.response.header = some h) :
    Concludes h (· = (ResponseCall.status code).body) e (exec (sendStatus code).run e) := by
  rw [sendStatus, exec_ebind, exec_emodify]
  dsimp only
  rw [ResponseCall.header?] at hheader
  rw [ResponseCall.body]
  by_cases hcode : code = 204
  · rw [if_pos hcode] at hheader ⊢
    cases hheader
    rw [if_pos hcode]
    exact (concludes_finish (e := e.changeHeader fun h => h.setCode code) hunsent).of_written rfl
  · rw [if_neg hcode] at hheader ⊢
    cases hheader
    rw [if_neg hcode]
    exact (concludes_sendBody (e := e.changeHeader fun h => h.setCode code) _ _ hunsent).of_written
      rfl

/-- **Every call that answers** ends in one of these ways; the cases are those of the calls. -/
theorem concludes_respond {call : ResponseCall} {e : Exchange ν} {h : ResponseHeader}
    (hunsent : e.response.headerSent = false) (hheader : call.header? e.response.header = some h) :
    Concludes h (· = call.body) e (exec (respond call).run e) := by
  cases call with
  | interim => cases hheader
  | header =>
      cases hheader
      exact concludes_sendHeader hunsent
  | text body =>
      cases hheader
      exact concludes_sendBody _ _ hunsent
  | bytes body =>
      cases hheader
      exact concludes_sendBody _ _ hunsent
  | reader source length =>
      cases hheader
      exact concludes_sendReader _ _ hunsent
  | status code => exact concludes_sendStatus code hunsent hheader
  | redirect url code =>
      cases hheader
      exact (concludes_finish (e := e.changeHeader fun h =>
        (h.setField "Location" url).setCode code) hunsent).of_written rfl
  | finish =>
      cases hheader
      exact concludes_finish hunsent

/-- A stream that other tasks feed is one whose writer the exchange answers. -/
theorem exec_run_fed (body : ChunkedBody ν) (e : Exchange ν) :
    exec (run (.fed body)) e =
      match exec (sendStreamWith answer body.calls).run
        ((e.openStream body).schedule body.batches) with
      | (some result, mid) => (some result, mid.closeStream)
      | (none, mid) => (none, mid) := by
  rw [run, exec_bind, exec_sendChunked, sendStream_eq]
  rcases exec (sendStreamWith answer body.calls).run _ with ⟨_ | result, mid⟩
  · rfl
  · rfl

/-- A body that is fed goes out in chunks. -/
theorem concludes_fed (body : ChunkedBody ν) {e : Exchange ν}
    (hunsent : e.response.headerSent = false) :
    Concludes (e.response.header.announceChunks (e.openStream body).source.queue.encoding)
      (fun body => ∃ data, Chunk.decode body = some (data, [])) e (exec (run (.fed body)) e) := by
  have hopened : e.Waits ((e.openStream body).schedule body.batches) :=
    (e.waits_openStream body).trans (waits_agenda _ _)
  have hstream := concludes_sendStreamWith (e := (e.openStream body).schedule body.batches)
    answers_answer body.calls (by rw [hopened.response]; exact hunsent)
  rw [hopened.response] at hstream
  have hconcludes := hstream.of_written (congrArg Outgoing.written hopened.outgoing)
  rw [exec_run_fed]
  rcases hrun : exec (sendStreamWith answer body.calls).run _ with ⟨_ | result, mid⟩
  · rw [hrun] at hconcludes
    exact hconcludes
  · rw [hrun] at hconcludes
    obtain ⟨hwire, hmarked, hnamed, hrefused⟩ := hconcludes
    have hclosed := mid.waits_closeStream
    dsimp only at hwire hmarked hrefused
    rw [← hclosed.outgoing] at hwire hrefused
    rw [← hclosed.response] at hmarked hrefused
    exact ⟨hwire, hmarked, hnamed, hrefused⟩

/-- **What comes of any way to answer** in an exchange that has sent no header. -/
theorem concludes_run {sending : Sending ν} (hsound : sending.Sound) {e : Exchange ν}
    {h : ResponseHeader} (hunsent : e.response.headerSent = false)
    (hheader : sending.header? e = some h) :
    Concludes h (sending.Carries ·) e (exec sending.run e) := by
  cases sending with
  | plain call => exact concludes_respond hunsent hheader
  | stream respondent calls =>
      cases hheader
      exact concludes_sendStreamWith hsound calls hunsent
  | fed body =>
      cases hheader
      exact concludes_fed body hunsent

end Sending

end HttpServer
