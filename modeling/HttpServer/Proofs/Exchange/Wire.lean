import HttpServer.Proofs.Exchange.Sending

/-!
# What goes on the wire

`Serving.Puts` says which bytes a computation puts on the wire: all of them if it succeeds, a first
part of them if it fails or never ends, and none if the connection is stopped. Parts that follow one
another put their bytes behind one another (`Serving.puts_bind`). In the end a status is answered
with its reason phrase, behind a header of this status unless a header was sent before
(`Serving.puts_sendStatus`).
-/

namespace HttpServer

namespace Serving

variable {ν α ε : Type}

open Exchange

/-- The computation puts these bytes on the wire, or a first part of them if it does not succeed,
and none if the connection is stopped. -/
def Puts (x : ExceptT ε (Serving ν) α) (e : Exchange ν) (data : Bytes) : Prop :=
  ∃ sent, (exec x.run e).2.outgoing.written = e.outgoing.written ++ sent ∧ sent <+: data ∧
    (∀ a, (exec x.run e).1 = some (.ok a) → sent = data) ∧ (e.isStopped = true → sent = [])

/-- What leaves the wire alone puts nothing there. -/
theorem puts_nil {x : ExceptT ε (Serving ν) α} {e : Exchange ν}
    (h : (exec x.run e).2.outgoing = e.outgoing) : Puts x e [] :=
  ⟨[], by rw [h, List.append_nil], List.prefix_rfl, fun _ _ => rfl, fun _ => rfl⟩

/-- **A write puts its bytes on the wire**, as far as the peer takes them. -/
theorem puts_transmit (data : Bytes) (e : Exchange ν) : Puts (transmit data) e data := by
  have htransmits := transmits data e
  have hbegun := e.waits_checkpoint
  have hnone {sent : Bytes} (hrunning : e.checkpoint.isStopped = false)
      (hstopped : e.isStopped = true) : sent = [] := by
    rw [hbegun.isStopped hstopped] at hrunning
    cases hrunning
  unfold Puts
  rw [← hbegun.outgoing]
  generalize exec (transmit data).run e = outcome at htransmits
  cases htransmits with
  | stopped _ =>
      exact ⟨[], (List.append_nil _).symm, List.nil_prefix, nofun, fun _ => rfl⟩
  | done hrunning hall =>
      have hdata : data.take (e.checkpoint.outgoing.room data) = data := List.take_of_length_le hall
      refine ⟨data, ?_, List.prefix_rfl, fun _ _ => rfl, hnone hrunning⟩
      rw [written_deliver, hdata]
  | fails hrunning failure =>
      exact ⟨_, written_deliver _ data, List.take_prefix _ _, nofun, hnone hrunning⟩
  | stalls hrunning hresult hwaits =>
      refine ⟨data.take (e.checkpoint.outgoing.room data), ?_, List.take_prefix _ _, ?_,
        hnone hrunning⟩
      · rw [hwaits.outgoing, written_deliver]
      · exact fun _ hok => absurd hok hresult

/-- The names of failures do not matter to the wire. -/
theorem puts_adapt {δ : Type} {f : ε → δ} {x : ExceptT ε (Serving ν) α} {e : Exchange ν}
    {data : Bytes} (h : Puts x e data) : Puts (x.adapt f) e data := by
  obtain ⟨sent, hwritten, hprefix, hok, hstopped⟩ := h
  refine ⟨sent, ?_, hprefix, ?_, hstopped⟩
  · rw [exec_adapt]
    exact hwritten
  · intro a hresult
    rw [exec_adapt] at hresult
    obtain ⟨r, hr, hmap⟩ := Option.map_eq_some_iff.1 hresult
    cases r with
    | error failure => cases hmap
    | ok b => exact hok b hr

/-- One part after the other goes on the wire. -/
theorem puts_bind {β : Type} {x : ExceptT ε (Serving ν) α} {f : α → ExceptT ε (Serving ν) β}
    {e : Exchange ν} {first second : Bytes} (hx : Puts x e first) (hmoves : Moves Sends x.run)
    (hf : ∀ a later, exec x.run e = (some (.ok a), later) → Puts (f a) later second) :
    Puts (x >>= f) e (first ++ second) := by
  obtain ⟨sent, hwritten, hprefix, hok, hstopped⟩ := hx
  have hsends := hmoves e
  unfold Puts
  rw [exec_ebind]
  rcases h : exec x.run e with ⟨_ | failure | a, later⟩
  · rw [h] at hwritten
    exact ⟨sent, hwritten, hprefix.trans (List.prefix_append _ _), nofun, hstopped⟩
  · rw [h] at hwritten
    exact ⟨sent, hwritten, hprefix.trans (List.prefix_append _ _), nofun, hstopped⟩
  · rw [h] at hwritten hok hsends
    have hall : sent = first := hok a rfl
    obtain ⟨more, hmore, hmorePrefix, hmoreOk, hmoreStopped⟩ := hf a later h
    refine ⟨sent ++ more, ?_, ?_, ?_, ?_⟩
    · rw [hmore, hwritten, List.append_assoc]
    · rw [hall]
      exact (List.prefix_append_right_inj first).2 hmorePrefix
    · intro b hb
      rw [hall, hmoreOk b hb]
    · intro hdead
      rw [hstopped hdead, hmoreStopped (hsends.isStopped hdead)]
      rfl

/-- A first step that succeeds and writes nothing does not matter. -/
theorem puts_of_step {β : Type} {x : ExceptT ε (Serving ν) α} {f : α → ExceptT ε (Serving ν) β}
    {e later : Exchange ν} {a : α} {data : Bytes} (hx : exec x.run e = (some (.ok a), later))
    (hstopped : e.isStopped = true → later.isStopped = true) (hsame : later.outgoing = e.outgoing)
    (h : Puts (f a) later data) : Puts (x >>= f) e data := by
  obtain ⟨sent, hwritten, hprefix, hok, hnone⟩ := h
  unfold Puts
  rw [exec_ebind, hx]
  exact ⟨sent, by rw [hwritten, hsame], hprefix, hok, fun hdead => hnone (hstopped hdead)⟩

/-- The header of a response, unless it was sent. -/
def pendingHeader (r : Response) : Bytes := if r.headerSent then [] else r.header.toBytes

/-- A header is put there unless one was sent. -/
theorem puts_sendHeader (e : Exchange ν) : Puts sendHeader e (pendingHeader e.response) := by
  refine puts_of_step (exec_eget e) id rfl ?_
  dsimp only
  by_cases hsent : e.response.headerSent = true
  · rw [pendingHeader, if_pos hsent, if_neg (by simp [hsent])]
    exact puts_nil rfl
  · rw [pendingHeader, if_neg hsent, if_pos (by simpa using hsent), ResponseHeader.writeTo]
    cases e.response.header.fault? with
    | some fault => exact ⟨[], (List.append_nil _).symm, List.nil_prefix, nofun, fun _ => rfl⟩
    | none =>
        refine puts_of_step (exec_emodify _ _) e.sends_markHeaderSent.isStopped rfl ?_
        rw [List.nil_append]
        exact puts_adapt (puts_transmit _ _)

/-- A header that is sent counts as sent from then on. -/
theorem headerSent_of_sendHeader {e later : Exchange ν} {result : Unit}
    (h : exec sendHeader.run e = (some (.ok result), later)) :
    later.response.headerSent = true := by
  unfold sendHeader at h
  rw [exec_ebind, exec_eget] at h
  dsimp only at h
  by_cases hsent : e.response.headerSent = true
  · rw [if_neg (by simp [hsent])] at h
    cases h
    exact hsent
  · rw [if_pos (by simpa using hsent), ResponseHeader.writeTo] at h
    cases hfault : e.response.header.fault? with
    | some fault =>
        rw [hfault] at h
        cases h
    | none =>
        rw [hfault] at h
        dsimp only at h
        rw [exec_ebind, exec_emodify] at h
        have hsends : e.markHeaderSent.Sends later :=
          (moves_adapt (moves_transmit _)).exec h
        exact hsends.headerSent rfl

/-- A header is not sent again. -/
theorem exec_sendHeader_of_headerSent {e : Exchange ν} (h : e.response.headerSent = true) :
    exec sendHeader.run e = (some (.ok ()), e) := by
  rw [sendHeader, exec_ebind, exec_eget]
  dsimp only
  rw [if_neg (by simp [h])]
  rfl

/-- Whatever comes of the header, the connection is taken out of the registry at last. -/
theorem exec_finish (e : Exchange ν) :
    exec finish.run e =
      match exec sendHeader.run
        (if e.response.headerSent then e else e.changeHeader (·.announceNoBody)) with
      | (some sent, mid) => (some sent, mid.shutDown.unregister)
      | (none, mid) => (none, mid) := by
  rw [finish, exec_ebind, exec_emodify]
  dsimp only
  rw [exec_ebind, exec_lift]
  rcases exec sendHeader.run _ with ⟨_ | sent, mid⟩
  · rfl
  · rfl

/-- Once the header was sent, finishing writes nothing more. -/
theorem exec_finish_of_headerSent {e : Exchange ν} (h : e.response.headerSent = true) :
    exec finish.run e = (some (.ok ()), e.shutDown.unregister) := by
  rw [exec_finish, if_pos h, exec_sendHeader_of_headerSent h]

/-- Announcing that there is no body comes too late for a header that was sent. -/
theorem sends_announceNoBody (e : Exchange ν) :
    e.Sends (if e.response.headerSent then e else e.changeHeader (·.announceNoBody)) := by
  split
  · exact Std.Refl.refl e
  · exact e.sends_changeHeader _

/-- **A finished exchange is stopped**, so nothing more goes on the wire. -/
theorem isStopped_finish {e later : Exchange ν} {result : Except SendError Unit}
    (hserved : e.IsServed) (h : exec finish.run e = (some result, later)) :
    later.isStopped = true := by
  have hannounced := (sends_announceNoBody e).isServed hserved
  rw [exec_finish] at h
  rcases hsent : exec sendHeader.run _ with ⟨_ | sent, mid⟩
  · rw [hsent] at h
    cases h
  · rw [hsent] at h
    cases h
    have hlast := mid.sends_shutDown.isServed ((moves_sendHeader.exec hsent).isServed hannounced)
    rw [isStopped_iff]
    exact Registry.isStopped_remove hlast

/-- Shutting the stream down writes nothing. -/
theorem outgoing_shutDown (e : Exchange ν) : e.shutDown.outgoing.written = e.outgoing.written := by
  unfold shutDown
  split
  · rfl
  · rfl

theorem response_shutDown (e : Exchange ν) : e.shutDown.response = e.response := by
  unfold shutDown
  split
  · rfl
  · rfl

theorem cookies_announceNoBody (h : ResponseHeader) : h.announceNoBody.cookies = h.cookies := by
  unfold ResponseHeader.announceNoBody ResponseHeader.announceLength ResponseHeader.trySetField
  split
  · rfl
  · split
    · split
      · rfl
      · rfl
    · rfl

/-- Finishing adds no cookie. -/
theorem cookies_finish (e : Exchange ν) :
    (exec finish.run e).2.response.header.cookies = e.response.header.cookies := by
  have hannounced : (if e.response.headerSent then e
      else e.changeHeader (·.announceNoBody)).response.header.cookies =
        e.response.header.cookies := by
    split
    · rfl
    · exact cookies_announceNoBody _
  rw [exec_finish, ← hannounced]
  generalize (if e.response.headerSent then e else e.changeHeader (·.announceNoBody)) = announced
  rw [← header_sendHeader announced]
  rcases exec sendHeader.run announced with ⟨_ | sent, mid⟩
  · rfl
  · exact congrArg (fun response => response.header.cookies) (response_shutDown mid)

/-- Behind a header that was sent finishing puts nothing. -/
theorem puts_finish {e : Exchange ν} (h : e.response.headerSent = true) : Puts finish e [] := by
  refine ⟨[], ?_, List.prefix_rfl, fun _ _ => rfl, fun _ => rfl⟩
  rw [exec_finish_of_headerSent h, List.append_nil]
  exact outgoing_shutDown e

/-- The header that goes out with a body. -/
def headerOfBody (h : ResponseHeader) (mediaType : String) (body : Bytes) : ResponseHeader :=
  ((h.trySetField "Content-Type" mediaType).correctStatus (body ≠ [])).announceLength body.length

/-- Behind the header, a body goes on the wire as it is. -/
theorem puts_body (body : Bytes) {e : Exchange ν} (h : e.response.headerSent = true) :
    Puts (do if body ≠ [] then (transmit body).adapt .connection
             finish : ExceptT SendError (Serving ν) Unit) e body := by
  by_cases hbody : body = []
  · rw [if_neg (by simpa using hbody), hbody]
    exact puts_finish h
  · rw [if_pos hbody]
    suffices hall : Puts _ e (body ++ []) by rwa [List.append_nil] at hall
    refine puts_bind (puts_adapt (puts_transmit _ _)) (moves_adapt (moves_transmit _)) ?_
    intro _ later hlater
    have hsends := (moves_adapt (moves_transmit _)).exec hlater
    exact puts_finish (hsends.headerSent h)

/-- A body goes on the wire behind the header, unless this was sent. -/
theorem puts_sendBody (mediaType : String) (body : Bytes) (e : Exchange ν) :
    Puts (sendBody mediaType body) e
      ((if e.response.headerSent then []
        else (headerOfBody e.response.header mediaType body).toBytes) ++ body) := by
  refine puts_of_step (exec_emodify _ _) (sends_changeHeader e _).isStopped rfl ?_
  refine puts_bind (puts_sendHeader _) moves_sendHeader ?_
  intro _ later hlater
  exact puts_body body (headerSent_of_sendHeader hlater)

/-- Two headers agree on the status. -/
def SameStatus (h other : ResponseHeader) : Prop :=
  other.code = h.code ∧ other.customMessage = h.customMessage

theorem sameStatus_trySetField (h : ResponseHeader) (name value : String) :
    SameStatus h (h.trySetField name value) := by
  unfold ResponseHeader.trySetField
  split
  · exact ⟨rfl, rfl⟩
  · exact ⟨rfl, rfl⟩

/-- A body does not change the status of its header, unless this is for answers without a body. -/
theorem sameStatus_headerOfBody {h : ResponseHeader} (mediaType : String) {body : Bytes}
    (hcode : h.code ≠ 204) (hbody : body ≠ []) :
    SameStatus h (headerOfBody h mediaType body) := by
  obtain ⟨hcodeTyped, hmessageTyped⟩ := sameStatus_trySetField h "Content-Type" mediaType
  have hcorrect : (h.trySetField "Content-Type" mediaType).correctStatus (body ≠ []) =
      h.trySetField "Content-Type" mediaType := by
    rw [ResponseHeader.correctStatus, if_neg (fun hno => hcode (hcodeTyped ▸ hno.1)),
      if_neg (by simp [hbody])]
  rw [headerOfBody, hcorrect, ResponseHeader.announceLength]
  split
  · obtain ⟨hcodeLength, hmessageLength⟩ :=
      sameStatus_trySetField (h.trySetField "Content-Type" mediaType) "Content-Length"
        (decimal body.length)
    exact ⟨hcodeLength.trans hcodeTyped, hmessageLength.trans hmessageTyped⟩
  · exact ⟨hcodeTyped, hmessageTyped⟩

/-- A status other than 204 puts its reason phrase on the wire, behind a header with this status
unless a header was sent before. -/
theorem puts_sendStatus {code : Nat} (hcode : code ≠ 204)
    (hphrase : Utf8.ofString (reasonPhrase code) ≠ []) (e : Exchange ν) :
    ∃ h : ResponseHeader, h.code = code ∧ h.message = reasonPhrase code ∧
      Puts (sendStatus code) e
        ((if e.response.headerSent then [] else h.toBytes) ++
          Utf8.ofString (reasonPhrase code)) := by
  obtain ⟨hsame, hmessage⟩ :=
    sameStatus_headerOfBody (h := e.response.header.setCode code) plainTextType hcode hphrase
  refine ⟨_, hsame, ?_, ?_⟩
  · rw [ResponseHeader.message, hmessage, hsame]
    rfl
  · refine puts_of_step (exec_emodify _ _) (sends_changeHeader e _).isStopped rfl ?_
    rw [if_neg hcode]
    exact puts_sendBody _ _ _

end Serving

end HttpServer
