import HttpServer.Proofs.Exchange.BodyFraming
import Mathlib.Data.List.TakeDrop

/-!
# Sources that are longer than announced

A response that is read off a source announces the length that it is told, and sends all that the
source delivers. Nothing compares the two. So the peer can tell where the body ends, and is sent no
more than it was promised, exactly if the source delivers as much as was announced, or no more
(`Serving.source_as_announced`). A file is announced with its own length, and no other source is
sent by the server itself.
-/

namespace HttpServer

open ResponseHeader

/-- A status that goes without a body is corrected to another one that is not informational. -/
theorem isInformational_correctedCode (code : Nat) (hasBody : Bool) :
    isInformational (correctedCode code hasBody) = isInformational code := by
  unfold correctedCode
  split
  · rename_i h
    rw [h.1]
    rfl
  · split
    · rename_i h
      rw [h.1]
      rfl
    · rfl

namespace ResponseHeader

/-- The header announces this length, or no length if its status goes without a body. -/
structure Announces (h : ResponseHeader) (length : Nat) : Prop where
  codings : h.codings = []
  lengths : h.lengths = if h.code = 204 then [] else [decimal length]
  absent : h.code = 204 → length = 0

/-- A header that announces a length tells where a body ends exactly if the body is as long. -/
theorem Announces.delimits_iff {h : ResponseHeader} {length : Nat} (hannounces : h.Announces length)
    (body : Bytes) : (∃ framing, h.Delimits body framing) ↔ body.length = length := by
  obtain ⟨hcodings, hlengths, habsent⟩ := hannounces
  by_cases hcode : h.code = 204
  · rw [if_pos hcode] at hlengths
    rw [habsent hcode, List.length_eq_zero_iff]
    constructor
    · rintro ⟨framing, hframing⟩
      cases framing with
      | length => cases hlengths.symm.trans hframing.1
      | absence => exact hframing.2.2
      | chunks => cases hcodings.symm.trans hframing.1
    · exact fun hbody => ⟨.absence, hcode, ⟨hlengths, hcodings⟩, hbody⟩
  · rw [if_neg hcode] at hlengths
    constructor
    · rintro ⟨framing, hframing⟩
      cases framing with
      | length =>
          have hsame := hlengths.symm.trans hframing.1
          exact (decimal_injective (List.head_eq_of_cons_eq hsame)).symm
      | absence => exact absurd hframing.1 hcode
      | chunks => cases hcodings.symm.trans hframing.1
    · rintro rfl
      exact ⟨.length, hlengths, hcodings⟩

/-- Where nothing was said of a body, the header of a source announces the length that it is
told. -/
theorem announces_of_source {source : Incoming} {length : Nat} {h made : ResponseHeader}
    (hunframed : h.Unframed) (hstatus : isInformational h.code = false)
    (hheader : (ResponseCall.reader source length).header? h = some made) :
    made.Announces length := by
  have hcode : made.code = correctedCode h.code (0 < length) := ResponseCall.code_of_header? hheader
  have hmade := ResponseCall.madeFor_of_header? hheader rfl
  refine ⟨hmade.codings.trans hunframed.codings, ?_, fun hnone => ?_⟩
  · have hfinal : isInformational made.code = false := by
      rw [hcode, isInformational_correctedCode, hstatus]
    rw [hmade.fresh hunframed, announcesLength_eq hfinal]
    by_cases hnone : made.code = 204 <;> simp [hnone]
  · rw [hcode] at hnone
    simpa using no_body_of_correctedCode hnone

end ResponseHeader

namespace Serving

variable {ν : Type}

/-- **What is sent of a source.** A response that is read off a source, with a status that is not
informational and nothing said of a body before, announces the length that it is told, and all that
the source delivers is on the wire behind its header. So the body is the first part of the source of
this length exactly if the source delivers no more, and the header tells where the body ends exactly
if it delivers that much. -/
theorem source_as_announced {source : Incoming} {length : Nat} {e later : Exchange ν}
    (hunsent : e.response.headerSent = false) (hunframed : e.response.header.Unframed)
    (hstatus : isInformational e.response.header.code = false)
    (hrun : exec (sendReader source length).run e = (some (.ok ()), later)) :
    ∃ (h : ResponseHeader) (body : Bytes),
      later.outgoing.written = e.outgoing.written ++ h.toBytes ++ body ∧
      h.code = correctedCode e.response.header.code (0 < length) ∧ h.Announces length ∧
      body = source.content ∧
      (body = source.content.take length ↔ source.content.length ≤ length) ∧
      (h.code = 204 → (body = [] ↔ source.content.length ≤ length)) ∧
      ((∃ framing, h.Delimits body framing) ↔ source.content.length = length) := by
  obtain ⟨h, hheader⟩ :=
    (ResponseCall.reader source length).exists_header? nofun e.response.header
  have hconcludes := Sending.concludes_respond hunsent hheader
  rw [respond, hrun] at hconcludes
  obtain ⟨-, body, hbody, hwritten⟩ := hconcludes.sent rfl
  have hannounces := announces_of_source hunframed hstatus hheader
  have hbody : body = source.content := hbody
  refine ⟨h, body, hwritten, ResponseCall.code_of_header? hheader, hannounces, hbody, ?_,
    fun hnone => ?_, ?_⟩
  · rw [hbody, List.take_self_eq_iff]
  · rw [hannounces.absent hnone, hbody, Nat.le_zero, List.length_eq_zero_iff]
  · rw [hannounces.delimits_iff, hbody]

/-- What comes of sending from a source in a new exchange. -/
def sentFrom (source : Incoming) (length : Nat) : Option (Except SendError Unit) × Exchange Unit :=
  exec (sendReader source length).run (Sending.exchangeWith {})

/-- A source that delivers `hello` in two pieces. -/
def inTwoPieces : Incoming :=
  { script := [.bytes (Utf8.ofString "he"), .bytes (Utf8.ofString "llo")] }

/-- All of it is announced, and the peer can tell where it ends. -/
theorem source_as_announced_inTwoPieces :
    ∃ h : ResponseHeader, (sentFrom inTwoPieces 5).2.outgoing.written =
        h.toBytes ++ Utf8.ofString "hello" ∧ h.code = 200 ∧ h.Announces 5 ∧
      ∃ framing, h.Delimits (Utf8.ofString "hello") framing := by
  have hcontent : inTwoPieces.content = Utf8.ofString "hello" := by decide +kernel
  have hresult : (sentFrom inTwoPieces 5).1 = some (.ok ()) := by decide +kernel
  have hrun : sentFrom inTwoPieces 5 = (some (.ok ()), (sentFrom inTwoPieces 5).2) := by
    rw [← hresult]
  obtain ⟨h, body, hwritten, hcode, hannounces, rfl, -, -, hframing⟩ :=
    source_as_announced (e := Sending.exchangeWith {}) rfl ⟨rfl, rfl⟩ (by decide) hrun
  rw [hcontent] at hwritten hframing
  rw [Sending.outgoing_exchangeWith, List.nil_append] at hwritten
  exact ⟨h, hwritten, hcode, hannounces, hframing.2 (by decide +kernel)⟩

/-- **A source is sent beyond the length that was announced.** Of the five bytes of `hello` two are
announced, or none with a status that goes without a body, and all five are sent. -/
theorem source_beyond_length :
    (sentFrom inTwoPieces 2).1 = some (.ok ()) ∧
    (sentFrom inTwoPieces 2).2.outgoing.written = Utf8.ofString
      ("HTTP/1.1 200 OK\r\nContent-Type: application/octet-stream\r\n" ++
        "Content-Length: 2\r\n\r\nhello") ∧
    (sentFrom inTwoPieces 0).1 = some (.ok ()) ∧
    (sentFrom inTwoPieces 0).2.outgoing.written = Utf8.ofString
      "HTTP/1.1 204 No Content\r\nContent-Type: application/octet-stream\r\n\r\nhello" := by
  decide +kernel

end Serving

end HttpServer
