import HttpServer.Proofs.Exchange.Concluding
import HttpServer.Proofs.Response.HeaderLines

/-!
# Bodies on the wire

A response that is sent as a whole tells in exactly one way where its body ends, as long as nobody
but the program itself spoke of the body (`Sending.body_delimited`). A response that could not be
sent leaves what it had said of its body in the header. The next one keeps it, and so it announces
its own body only if that happens to be as long (`Sending.fitsBody_after_refusal`); otherwise a
client waits for bytes that never come, or takes too few (`Sending.stale_framing`).
-/

namespace HttpServer

open Serving Exchange ResponseHeader

namespace ResponseHeader

/-- **The header speaks of this body alone**: it announces its length, or nothing if its status goes
without a body. -/
def FitsBody (h : ResponseHeader) (body : Bytes) : Prop :=
  h.codings = [] ∧ h.lengths = if h.code = 204 then [] else [decimal body.length]

/-- The header of a call that finds nothing said of a body speaks of its own. -/
theorem fitsBody_of_header? {call : ResponseCall} {h made : ResponseHeader} (hknows : call.Knows)
    (hunframed : h.Unframed) (hheader : call.header? h = some made)
    (hstatus : isInformational made.code = false) : made.FitsBody call.body := by
  have hmade := ResponseCall.madeFor_of_header? hheader hknows
  refine ⟨hmade.codings.trans hunframed.codings, ?_⟩
  rw [hmade.fresh hunframed, announcesLength_eq hstatus]
  by_cases hcode : made.code = 204
  · rw [if_pos hcode, hcode]
    rfl
  · rw [if_neg hcode, if_pos (by simpa using hcode)]

/-- A header that fits a body tells where it ends. -/
theorem FitsBody.exists_delimits {h : ResponseHeader} {body : Bytes} (hfits : h.FitsBody body)
    (hnone : h.code = 204 → body = []) : ∃ framing, h.Delimits body framing := by
  obtain ⟨hcodings, hlengths⟩ := hfits
  by_cases hcode : h.code = 204
  · rw [if_pos hcode] at hlengths
    exact ⟨.absence, hcode, ⟨hlengths, hcodings⟩, hnone hcode⟩
  · rw [if_neg hcode] at hlengths
    exact ⟨.length, hlengths, hcodings⟩

end ResponseHeader

namespace Sending

variable {ν : Type}

/-- The status with which a response goes out if it finds this one. -/
def sentCode (code : Nat) : Sending ν → Nat
  | .plain call => call.sentCode code
  | _ => correctedCode code true

/-- The whole body is known or framed when the response goes out. -/
def Knows : Sending ν → Prop
  | .plain call => call.Knows
  | _ => True

variable {sending : Sending ν} {e : Exchange ν} {h : ResponseHeader}

/-- The status that goes out is the one that was set, put right for the body. -/
theorem code_of_header? (hheader : sending.header? e = some h) :
    h.code = sending.sentCode e.response.header.code := by
  cases sending with
  | plain call => exact ResponseCall.code_of_header? hheader
  | stream respondent calls =>
      cases hheader
      exact code_announceChunks _ _
  | fed body =>
      cases hheader
      exact code_announceChunks _ _

/-- An interim line has no body to know of. -/
theorem ne_interim_of_knows (hknows : sending.Knows) : sending ≠ .plain .interim := by
  rintro rfl
  cases hknows

/-- A header for chunks is right for chunks where nothing was said of a body. -/
theorem delimits_announceChunks (hunframed : h.Unframed) (encoding : String) {body : Bytes}
    (hbody : ∃ data, Chunk.decode body = some (data, [])) :
    (h.announceChunks encoding).Delimits body .chunks := by
  obtain ⟨hcodings, hlengths⟩ := h.framing_announceChunks encoding
  rw [hunframed.codings] at hcodings
  rw [hunframed.lengths] at hlengths
  exact ⟨hcodings, hlengths, hbody⟩

/-- Behind status 204 there is no body. -/
theorem body_eq_nil_of_code (hknows : sending.Knows) (hheader : sending.header? e = some h)
    {body : Bytes} (hbody : sending.Carries body) (hcode : h.code = 204) : body = [] := by
  rw [code_of_header? hheader] at hcode
  cases sending with
  | plain call => exact (ResponseCall.body_eq_nil_of_sentCode hknows hcode) ▸ hbody
  | stream respondent calls => cases no_body_of_correctedCode hcode
  | fed body => cases no_body_of_correctedCode hcode

/-- **A header tells where its body ends**, if nobody else spoke of the body. -/
theorem exists_delimits (hknows : sending.Knows) (hunframed : e.response.header.Unframed)
    (hheader : sending.header? e = some h) (hstatus : isInformational h.code = false) {body : Bytes}
    (hbody : sending.Carries body) : ∃ framing, h.Delimits body framing := by
  have hnone := body_eq_nil_of_code hknows hheader hbody
  cases sending with
  | plain call =>
      have hfits := fitsBody_of_header? hknows hunframed hheader hstatus
      cases hbody
      exact hfits.exists_delimits hnone
  | stream respondent calls =>
      cases hheader
      exact ⟨.chunks, delimits_announceChunks hunframed _ hbody⟩
  | fed fedBody =>
      cases hheader
      exact ⟨.chunks, delimits_announceChunks hunframed _ hbody⟩

/-- **Where the body of a response ends.** In an exchange that has sent no header, and whose header
was changed in no matter what way that does not speak of a body, whatever is sent as a whole with a
status that is not informational is on the wire with a header that tells in exactly one way where
its body ends. Its status is never 204 in front of a body, and never 200 if the body of a text or of
bytes is empty. And without a line break in the version, a reader finds the lines of this header. -/
theorem body_delimited (hsound : sending.Sound) (hknows : sending.Knows) {later : Exchange ν}
    {changes : List HeaderChange} (hunsent : e.response.headerSent = false)
    (hunframed : e.response.header.Unframed)
    (hspares : ∀ c ∈ changes, c.Spares "Content-Length" ∧ c.Spares "Transfer-Encoding")
    (hstatus : isInformational
      (sending.sentCode (HeaderChange.applyAll changes e.response.header).code) = false)
    (hrun : exec sending.run (e.changeHeader (HeaderChange.applyAll changes)) =
      (some (.ok ()), later)) :
    ∃ (h : ResponseHeader) (body : Bytes),
      later.outgoing.written = e.outgoing.written ++ h.toBytes ++ body ∧
      sending.Carries body ∧
      h.code = sending.sentCode (HeaderChange.applyAll changes e.response.header).code ∧
      (∃! framing, h.Delimits body framing) ∧ (body ≠ [] → h.code ≠ 204) ∧
      (sending = .plain (.text "") ∨ sending = .plain (.bytes []) → h.code ≠ 200) ∧
      ('\r' ∉ h.version.toList ∧ '\n' ∉ h.version.toList →
        readBack h.toBytes = some (h.statusLine, h.lines)) := by
  obtain ⟨h, hheader⟩ :=
    exists_header? (ne_interim_of_knows hknows) (e.changeHeader (HeaderChange.applyAll changes))
  have hconcludes := concludes_run hsound
    (e := e.changeHeader (HeaderChange.applyAll changes)) hunsent hheader
  rw [hrun] at hconcludes
  obtain ⟨hfault, body, hbody, hwritten⟩ := hconcludes.sent rfl
  have hcode := code_of_header? hheader
  have hchanged := (e.response.header.sameFraming_applyAll hspares).unframed hunframed
  obtain ⟨framing, hframing⟩ := exists_delimits hknows hchanged hheader (hcode ▸ hstatus) hbody
  refine ⟨h, body, hwritten, hbody, hcode,
    ⟨framing, hframing, fun other => delimits_unique hframing⟩, fun hne hnone => ?_,
    fun hempty h200 => ?_, fun hversion => ?_⟩
  · exact hne (body_eq_nil_of_code hknows hheader hbody hnone)
  · -- With no body, 200 would have been corrected.
    rw [hcode] at h200
    rcases hempty with rfl | rfl
    · exact absurd (body_of_correctedCode h200) (by decide)
    · exact absurd (body_of_correctedCode h200) (by decide)
  · exact readBack_toBytes (checked_of_fault? hfault).2
      fun line hline => oneLine_of_mem_wireLines hfault hversion hline

/-- A new exchange with this response header. -/
def exchangeWith (header : ResponseHeader) : Exchange Unit :=
  { (accept { sessions := { mint := fun _ => "" } } {} none {} {} [] : Exchange Unit) with
    response := { header } }

theorem outgoing_exchangeWith (header : ResponseHeader) :
    (exchangeWith header).outgoing.written = [] := rfl

/-- A status, a field and a cookie, none of which speaks of a body. -/
def decorations : List HeaderChange :=
  [.setCode 404, .setField "X" "1", .addCookie { name := "id" }]

/-- What comes of a response in a new exchange that has these. -/
def decorated (sending : Sending Unit) : Option (Except SendError Unit) × Exchange Unit :=
  exec sending.run ((exchangeWith {}).changeHeader (HeaderChange.applyAll decorations))

/-- The text goes out with the status that was set for it. -/
theorem body_delimited_greeting :
    ∃ (h : ResponseHeader) (body : Bytes),
      (decorated (.plain (.text "hello"))).2.outgoing.written = h.toBytes ++ body ∧
      body = Utf8.ofString "hello" ∧ h.code = 404 ∧ ∃! framing, h.Delimits body framing := by
  have hresult : (decorated (.plain (.text "hello"))).1 = some (.ok ()) := by decide +kernel
  have hspares : ∀ c ∈ decorations, c.Spares "Content-Length" ∧ c.Spares "Transfer-Encoding" := by
    decide +kernel
  have hrun : decorated (.plain (.text "hello")) =
      (some (.ok ()), (decorated (.plain (.text "hello"))).2) := by
    rw [← hresult]
  have hsound : Sound (.plain (.text "hello") : Sending Unit) := trivial
  obtain ⟨h, body, hwritten, hbody, hcode, hframing, _⟩ :=
    body_delimited (e := exchangeWith {}) hsound rfl rfl ⟨rfl, rfl⟩ hspares (by decide +kernel) hrun
  rw [outgoing_exchangeWith, List.nil_append] at hwritten
  exact ⟨h, body, hwritten, hbody, hcode, hframing⟩

/-! ## After a refusal -/

end Sending

/-- What a response that could not be sent leaves in the header of its body. -/
inductive Leftover
  | nothing
  | length (size : Nat)
  | chunks
  deriving DecidableEq

namespace Leftover

/-- A header says of a body what is left over, and nothing else. -/
def InHeader (h : ResponseHeader) : Leftover → Prop
  | .nothing => h.Unframed
  | .length size => h.lengths = [decimal size] ∧ h.codings = []
  | .chunks => h.codings = ["chunked"] ∧ h.lengths = []

/-- What is left over makes no difference for this body behind this status. -/
def Suits (code : Nat) (body : Bytes) : Leftover → Prop
  | .nothing => True
  | .length size => size = body.length ∧ code ≠ 204
  | .chunks => False

variable {leftover : Leftover} {h other : ResponseHeader}

/-- What is left in a header stays there while its framing does. -/
theorem InHeader.of_sameFraming (hleft : leftover.InHeader h) (hsame : SameFraming h other) :
    leftover.InHeader other := by
  obtain ⟨hlengths, hcodings⟩ := hsame
  cases leftover with
  | nothing =>
      obtain ⟨hlengthsNone, hcodingsNone⟩ := hleft
      exact ⟨hlengths.trans hlengthsNone, hcodings.trans hcodingsNone⟩
  | length size => exact ⟨hlengths.trans hleft.1, hcodings.trans hleft.2⟩
  | chunks => exact ⟨hcodings.trans hleft.1, hlengths.trans hleft.2⟩

/-- **A call speaks of its own body exactly if what is left over suits it.** -/
theorem InHeader.fitsBody_iff {call : ResponseCall} {made : ResponseHeader}
    (hleft : leftover.InHeader h) (hknows : call.Knows) (hheader : call.header? h = some made)
    (hstatus : isInformational made.code = false) :
    made.FitsBody call.body ↔ leftover.Suits made.code call.body := by
  have hmade := ResponseCall.madeFor_of_header? hheader hknows
  cases leftover with
  | nothing => exact iff_of_true (fitsBody_of_header? hknows hleft hheader hstatus) trivial
  | length size =>
      obtain ⟨hlengths, hcodings⟩ := hleft
      have hkept : made.lengths = [decimal size] :=
        (hmade.kept (hlengths ▸ List.cons_ne_nil _ _)).trans hlengths
      rw [FitsBody, Suits, hkept]
      constructor
      · rintro ⟨_, hfits⟩
        by_cases hcode : made.code = 204
        · rw [if_pos hcode] at hfits
          cases hfits
        · rw [if_neg hcode] at hfits
          exact ⟨decimal_injective (List.head_eq_of_cons_eq hfits), hcode⟩
      · rintro ⟨rfl, hcode⟩
        exact ⟨hmade.codings.trans hcodings, (if_neg hcode).symm⟩
  | chunks =>
      refine iff_of_false (fun hfits => ?_) id
      have hcodings := (hmade.codings.trans hleft.1).symm.trans hfits.1
      exact List.cons_ne_nil _ _ hcodings

end Leftover

namespace Sending

variable {ν : Type}

/-- What a response leaves over if it cannot be sent with a header of this status. -/
def leftover (code : Nat) : Sending ν → Leftover
  | .plain call =>
    match call.announced? with
    | some length => if announcesLength (call.sentCode code) then .length length else .nothing
    | none => .nothing
  | _ => .chunks

/-- What a call has said of its body is left in the header. -/
theorem inHeader_of_header? {sending : Sending ν} {e : Exchange ν} {h : ResponseHeader}
    (hunframed : e.response.header.Unframed) (hheader : sending.header? e = some h) :
    (sending.leftover e.response.header.code).InHeader h := by
  have hchunks (encoding : String) :
      Leftover.chunks.InHeader (e.response.header.announceChunks encoding) := by
    obtain ⟨hcodings, hlengths⟩ := e.response.header.framing_announceChunks encoding
    rw [hunframed.codings] at hcodings
    rw [hunframed.lengths] at hlengths
    exact ⟨hcodings, hlengths⟩
  cases sending with
  | plain call =>
      rw [leftover]
      cases hlength : call.announced? with
      | some length =>
          have hmade := ResponseCall.madeFor_of_header? hheader hlength
          have hfresh := hmade.fresh hunframed
          have hcodings := hmade.codings.trans hunframed.codings
          rw [ResponseCall.code_of_header? hheader] at hfresh
          dsimp only
          split
          · rename_i hannounces
            rw [if_pos hannounces] at hfresh
            exact ⟨hfresh, hcodings⟩
          · rename_i hannounces
            rw [if_neg hannounces] at hfresh
            exact ⟨hfresh, hcodings⟩
      | none =>
          cases call with
          | interim => cases hheader
          | header =>
              cases hheader
              exact hunframed
          | _ => cases hlength
  | stream respondent calls =>
      cases hheader
      exact hchunks _
  | fed body =>
      cases hheader
      exact hchunks _

/-- Allowing the client to send its body is not refused for a header. -/
theorem ne_interim_of_refused {sending : Sending ν} {e refused : Exchange ν} {fault : HeaderFault}
    (hrefused : exec sending.run e = (some (.error (.invalidHeader fault)), refused)) :
    sending ≠ .plain .interim := by
  rintro rfl
  have hfree : FaultFree sendContinue e := by
    refine faultFree_bind (faultFree_eget e) fun response later _ => ?_
    dsimp only
    split
    · exact faultFree_transmit _ later
    · exact faultFree_epure () later
  exact hfree fault (congrArg Prod.fst hrefused)

/-- **After a response that could not be sent**, with nothing said of a body before. Nothing of it
is on the wire, and the header does not count as sent. After changes that do not speak of a body,
the next response that is sent as a whole, with a status that is not informational, announces its
own body and nothing else exactly if what the first one left over suits it. -/
theorem fitsBody_after_refusal {failing : Sending ν} (hsound : failing.Sound) {call : ResponseCall}
    (hknows : call.Knows) {e refused later : Exchange ν} {fault : HeaderFault}
    {changes : List HeaderChange} (hunsent : e.response.headerSent = false)
    (hunframed : e.response.header.Unframed)
    (hrefused : exec failing.run e = (some (.error (.invalidHeader fault)), refused))
    (hspares : ∀ c ∈ changes, c.Spares "Content-Length" ∧ c.Spares "Transfer-Encoding")
    (hstatus : isInformational
      (call.sentCode (HeaderChange.applyAll changes refused.response.header).code) = false)
    (hrun : exec (respond call).run (refused.changeHeader (HeaderChange.applyAll changes)) =
      (some (.ok ()), later)) :
    refused.response.headerSent = false ∧ refused.outgoing.written = e.outgoing.written ∧
      ∃ h : ResponseHeader, later.outgoing.written = e.outgoing.written ++ h.toBytes ++ call.body ∧
        h.code = call.sentCode (HeaderChange.applyAll changes refused.response.header).code ∧
        (h.FitsBody call.body ↔
          (failing.leftover e.response.header.code).Suits h.code call.body) := by
  obtain ⟨tried, htried⟩ := exists_header? (ne_interim_of_refused hrefused) e
  have hfirst := concludes_run hsound hunsent htried
  rw [hrefused] at hfirst
  obtain ⟨_, hresponse, hunwritten⟩ := hfirst.refused fault (hfirst.named fault rfl)
  -- What the first response left over is still there when the second one is sent.
  have hleft : (failing.leftover e.response.header.code).InHeader
      (HeaderChange.applyAll changes refused.response.header) := by
    have htriedLeft := inHeader_of_header? hunframed htried
    rw [hresponse]
    exact htriedLeft.of_sameFraming (tried.sameFraming_applyAll hspares)
  have hunsentNow : refused.response.headerSent = false := by rw [hresponse]
  have hsends : (.plain call : Sending ν) ≠ .plain .interim := ne_interim_of_knows hknows
  obtain ⟨h, hheader⟩ :=
    exists_header? hsends (refused.changeHeader (HeaderChange.applyAll changes))
  have hsecond := concludes_respond (e := refused.changeHeader (HeaderChange.applyAll changes))
    hunsentNow hheader
  rw [hrun] at hsecond
  obtain ⟨_, body, rfl, hwritten⟩ := hsecond.sent rfl
  have hcode := ResponseCall.code_of_header? hheader
  refine ⟨hunsentNow, hunwritten, h, ?_, hcode, ?_⟩
  · exact hwritten.trans (by rw [← hunwritten]; rfl)
  · exact hleft.fitsBody_iff hknows hheader (hcode ▸ hstatus)

/-- A header with a field that cannot be written. -/
def spoiled : ResponseHeader := { fields := [("X", "a\nb")] }

/-- What comes of a response in a new exchange with this header. -/
def refusal (failing : Sending Unit) : Option (Except SendError Unit) × Exchange Unit :=
  exec failing.run (exchangeWith spoiled)

/-- What comes of another one after the bad field was removed. -/
def secondTry (failing : Sending Unit) (call : ResponseCall) :
    Option (Except SendError Unit) × Exchange Unit :=
  exec (respond call).run
    ((refusal failing).2.changeHeader (HeaderChange.applyAll [.removeField "X"]))

/-- A text is refused for its header, and without the bad field another one of the same length goes
out as it should. -/
theorem fitsBody_after_refusal_same_length :
    ∃ h : ResponseHeader,
      (secondTry (.plain (.text "abc")) (.text "xyz")).2.outgoing.written =
        h.toBytes ++ Utf8.ofString "xyz" ∧ h.FitsBody (Utf8.ofString "xyz") := by
  have hresult : (refusal (.plain (.text "abc"))).1 =
      some (.error (.invalidHeader (.fieldValue "X"))) := by
    decide +kernel
  have hsecond : (secondTry (.plain (.text "abc")) (.text "xyz")).1 = some (.ok ()) := by
    decide +kernel
  have hrefused : refusal (.plain (.text "abc")) =
      (some (.error (.invalidHeader (.fieldValue "X"))), (refusal (.plain (.text "abc"))).2) := by
    rw [← hresult]
  have hrun : secondTry (.plain (.text "abc")) (.text "xyz") =
      (some (.ok ()), (secondTry (.plain (.text "abc")) (.text "xyz")).2) := by
    rw [← hsecond]
  have hsound : Sound (.plain (.text "abc") : Sending Unit) := trivial
  have hknows : (ResponseCall.text "xyz").Knows := rfl
  have hspares : ∀ c ∈ [HeaderChange.removeField "X"],
      c.Spares "Content-Length" ∧ c.Spares "Transfer-Encoding" := by
    decide +kernel
  obtain ⟨_, _, h, hwritten, hcode, hiff⟩ := fitsBody_after_refusal (e := exchangeWith spoiled)
    hsound hknows rfl ⟨by decide, by decide⟩ hrefused hspares (by decide +kernel) hrun
  rw [outgoing_exchangeWith, List.nil_append] at hwritten
  have hleft : leftover (exchangeWith spoiled).response.header.code
      (.plain (.text "abc") : Sending Unit) = .length 3 := by
    decide +kernel
  have hsent : h.code = 200 := hcode.trans (by decide +kernel)
  rw [hleft, hsent] at hiff
  exact ⟨h, hwritten, hiff.2 ⟨by decide +kernel, by decide⟩⟩

/-- **A refused response spoils the next one.** After a text of three bytes was refused for a field
that is removed then, a text of five bytes goes out with a length of three. And after a stream was
refused, the text goes out as if it were made of chunks. -/
theorem stale_framing :
    ((refusal (.plain (.text "abc"))).1 = some (.error (.invalidHeader (.fieldValue "X"))) ∧
      (secondTry (.plain (.text "abc")) (.text "hello")).1 = some (.ok ()) ∧
      (secondTry (.plain (.text "abc")) (.text "hello")).2.outgoing.written = Utf8.ofString
        ("HTTP/1.1 200 OK\r\nContent-Type: text/plain; charset=utf-8\r\n" ++
          "Content-Length: 3\r\n\r\nhello")) ∧
    (refusal (.stream answer 20)).1 = some (.error (.invalidHeader (.fieldValue "X"))) ∧
      (secondTry (.stream answer 20) (.text "hello")).1 = some (.ok ()) ∧
      (secondTry (.stream answer 20) (.text "hello")).2.outgoing.written = Utf8.ofString
        ("HTTP/1.1 200 OK\r\nTransfer-Encoding: chunked\r\n" ++
          "Content-Type: text/plain; charset=utf-8\r\nContent-Length: 5\r\n\r\nhello") := by
  decide +kernel

end Sending

end HttpServer
