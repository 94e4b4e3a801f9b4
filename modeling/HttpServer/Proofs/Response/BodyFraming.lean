import HttpServer.Proofs.Exchange.Answering
import HttpServer.Proofs.Response.FieldValues

/-!
# Where a body ends

A header tells in one of three ways where the body behind it ends: by its length, by a status that
goes without a body, or by the framing of chunks (`BodyFraming`), and never in two of them
(`ResponseHeader.delimits_unique`). Every way to answer makes its header out of the one that it
finds. It keeps what was said of a body before, and where nothing was said it announces the length
of its own, if the status allows that (`ResponseCall.madeFor_of_header?`).
-/

namespace HttpServer

/-- Statuses of interim responses. -/
def isInformational (code : Nat) : Bool := 100 ≤ code && code ≤ 199

/-- Among the other statuses only 204 goes without a length. -/
theorem announcesLength_eq {code : Nat} (h : isInformational code = false) :
    announcesLength code = !(code == 204) := by
  unfold isInformational at h
  rw [announcesLength, h, Bool.false_or]

/-- Every status has a reason phrase. -/
theorem reasonPhrase_ne_nil (code : Nat) : Utf8.ofString (reasonPhrase code) ≠ [] := by
  unfold reasonPhrase
  split <;> decide

/-- The status that goes out with a body, or without one, in the place of this status. -/
def correctedCode (code : Nat) (hasBody : Bool) : Nat :=
  if code = 204 ∧ hasBody then 200 else if code = 200 ∧ !hasBody then 204 else code

/-- A status that goes without a body goes with none, and 200 goes with one. -/
theorem no_body_of_correctedCode {code : Nat} {hasBody : Bool}
    (h : correctedCode code hasBody = 204) : hasBody = false := by
  cases hasBody with
  | false => rfl
  | true =>
      unfold correctedCode at h
      split at h
      · cases h
      · simp_all

/-- A status is put right to 200 for a body alone. -/
theorem body_of_correctedCode {code : Nat} {hasBody : Bool}
    (h : correctedCode code hasBody = 200) : hasBody = true := by
  cases hasBody with
  | true => rfl
  | false =>
      unfold correctedCode at h
      split at h
      · simp_all
      · split at h
        · cases h
        · simp_all

/-- Different lengths are written differently. -/
theorem decimal_injective {n m : Nat} (h : decimal n = decimal m) : n = m := by
  have hdigits : Nat.toDigits 10 n = Nat.toDigits 10 m := String.ofList_inj.1 h
  have hvalue := congrArg (fun digits => Nat.ofDigitChars 10 digits 0) hdigits
  rwa [Nat.ofDigitChars_toDigits (by decide) (by decide),
    Nat.ofDigitChars_toDigits (by decide) (by decide)] at hvalue

/-- How a header tells where the body behind it ends. -/
inductive BodyFraming
  /-- The header announces how many bytes there are. -/
  | length
  /-- The status goes without a body. -/
  | absence
  /-- The body is made of chunks, of which one is the last. -/
  | chunks

namespace ResponseHeader

/-- The values that announce a length of the body. -/
def lengths (h : ResponseHeader) : List String := h.values "Content-Length"

/-- The values that announce a coding of the body. -/
def codings (h : ResponseHeader) : List String := h.values "Transfer-Encoding"

/-- Nothing is said of a body. -/
structure Unframed (h : ResponseHeader) : Prop where
  lengths : h.lengths = []
  codings : h.codings = []

/-- **The header tells in this way where the body ends**, and in no other. -/
def Delimits (h : ResponseHeader) (body : Bytes) : BodyFraming → Prop
  | .length => h.lengths = [decimal body.length] ∧ h.codings = []
  | .absence => h.code = 204 ∧ h.Unframed ∧ body = []
  | .chunks =>
      h.codings = ["chunked"] ∧ h.lengths = [] ∧ ∃ data, Chunk.decode body = some (data, [])

/-- **No header tells in two ways** where the same body ends: lengths and codings exclude each
other, and two lengths of one body are the same. -/
theorem delimits_unique {h : ResponseHeader} {body : Bytes} {framing other : BodyFraming}
    (hframing : h.Delimits body framing) (hother : h.Delimits body other) : other = framing := by
  cases framing with
  | length =>
      obtain ⟨hlengths, hcodings⟩ := hframing
      cases other with
      | length => rfl
      | absence => exact absurd (hlengths.symm.trans hother.2.1.lengths) (List.cons_ne_nil _ _)
      | chunks => exact absurd (hlengths.symm.trans hother.2.1) (List.cons_ne_nil _ _)
  | absence =>
      obtain ⟨_, hunframed, _⟩ := hframing
      cases other with
      | length => exact absurd (hother.1.symm.trans hunframed.lengths) (List.cons_ne_nil _ _)
      | absence => rfl
      | chunks => exact absurd (hother.1.symm.trans hunframed.codings) (List.cons_ne_nil _ _)
  | chunks =>
      obtain ⟨hcodings, hlengths, _⟩ := hframing
      cases other with
      | length => exact absurd (hother.1.symm.trans hlengths) (List.cons_ne_nil _ _)
      | absence => exact absurd (hcodings.symm.trans hother.2.1.codings) (List.cons_ne_nil _ _)
      | chunks => rfl

/-! ## Headers made out of other ones -/

/-- The lines of cookies are none of those that frame a body. -/
theorem cookieField_ne : sameName cookieField "Content-Length" = false ∧
    sameName cookieField "Transfer-Encoding" = false := by
  decide

/-- Two headers say the same of a body. -/
def SameFraming (h other : ResponseHeader) : Prop :=
  other.lengths = h.lengths ∧ other.codings = h.codings

/-- The framing stays in steps. -/
theorem SameFraming.trans {h mid other : ResponseHeader} (first : SameFraming h mid)
    (second : SameFraming mid other) : SameFraming h other :=
  ⟨second.1.trans first.1, second.2.trans first.2⟩

/-- A header that says nothing of a body goes on saying nothing. -/
theorem SameFraming.unframed {h other : ResponseHeader} (hsame : SameFraming h other)
    (hunframed : h.Unframed) : other.Unframed :=
  ⟨hsame.1.trans hunframed.lengths, hsame.2.trans hunframed.codings⟩

section

variable (h : ResponseHeader)

theorem sameFraming_setCode (code : Nat) : SameFraming h (h.setCode code) := ⟨rfl, rfl⟩

/-- Other fields than the two may be set. -/
theorem sameFraming_setField {name : String}
    (hname : sameName name "Content-Length" = false ∧ sameName name "Transfer-Encoding" = false)
    (value : String) : SameFraming h (h.setField name value) := by
  constructor
  · exact (h.values_setField cookieField_ne.1 name value).trans (by rw [hname.1]; rfl)
  · exact (h.values_setField cookieField_ne.2 name value).trans (by rw [hname.2]; rfl)

/-- They may also be set if they are not there. -/
theorem sameFraming_trySetField {name : String}
    (hname : sameName name "Content-Length" = false ∧ sameName name "Transfer-Encoding" = false)
    (value : String) : SameFraming h (h.trySetField name value) :=
  ⟨h.values_trySetField_of_ne cookieField_ne.1 hname.1 value,
    h.values_trySetField_of_ne cookieField_ne.2 hname.2 value⟩

/-- Putting the status right frames nothing. -/
theorem sameFraming_correctStatus (hasBody : Bool) : SameFraming h (h.correctStatus hasBody) := by
  unfold correctStatus
  split
  · exact h.sameFraming_setCode 200
  · split
    · exact h.sameFraming_setCode 204
    · exact ⟨rfl, rfl⟩

/-- Changes that do not name the fields about it leave alone what is said of a body. -/
theorem sameFraming_applyAll {changes : List HeaderChange}
    (hspares : ∀ c ∈ changes, c.Spares "Content-Length" ∧ c.Spares "Transfer-Encoding") :
    SameFraming h (HeaderChange.applyAll changes h) :=
  ⟨HeaderChange.values_applyAll (fun c hc => (hspares c hc).1) cookieField_ne.1 h,
    HeaderChange.values_applyAll (fun c hc => (hspares c hc).2) cookieField_ne.2 h⟩

theorem code_trySetField (name value : String) : (h.trySetField name value).code = h.code :=
  (Serving.sameStatus_trySetField h name value).1

/-- The status becomes what the body asks for. -/
theorem code_correctStatus (hasBody : Bool) :
    (h.correctStatus hasBody).code = correctedCode h.code hasBody := by
  unfold correctStatus correctedCode
  split
  · rfl
  · split
    · rfl
    · rfl

/-- Announcing a length leaves the status. -/
theorem code_announceLength (length : Nat) : (h.announceLength length).code = h.code := by
  unfold announceLength
  split
  · exact h.code_trySetField _ _
  · rfl

theorem code_announceNoBody : h.announceNoBody.code = h.code := by
  unfold announceNoBody
  split
  · rfl
  · exact h.code_announceLength 0

/-- Where nothing is said of a body, one line more announces that there is none. -/
theorem announceNoBody_eq : h.announceNoBody = h ∨
    h.announceNoBody = { h with fields := h.fields ++ [("Content-Length", "0")] } := by
  unfold announceNoBody announceLength trySetField
  split
  · exact .inl rfl
  · split
    · split
      · exact .inl rfl
      · rename_i hnone
        have hset := FieldList.set_of_not_has (Bool.eq_false_iff.2 hnone) (decimal 0)
        exact .inr (congrArg (fun fields => { h with fields }) hset)
    · exact .inl rfl

end

/-- **A header is made for a body of so many bytes** out of another one. It says the same of
codings; a length that was announced stays; and where nothing was said, this length is announced if
the status allows it. -/
structure MadeFor (length : Nat) (h made : ResponseHeader) : Prop where
  codings : made.codings = h.codings
  kept : h.lengths ≠ [] → made.lengths = h.lengths
  fresh : h.Unframed → made.lengths = if announcesLength made.code then [decimal length] else []

/-- A header is made for a body whatever else was changed before. -/
theorem MadeFor.of_sameFraming {length : Nat} {h other made : ResponseHeader}
    (hmade : MadeFor length other made) (hsame : SameFraming h other) : MadeFor length h made where
  codings := hmade.codings.trans hsame.2
  kept hlengths := (hmade.kept (hsame.1 ▸ hlengths)).trans hsame.1
  fresh hunframed := hmade.fresh (hsame.unframed hunframed)

/-- **A length is announced where nothing was said before**, and the status goes with one. -/
theorem madeFor_announceLength (h : ResponseHeader) (length : Nat) :
    MadeFor length h (h.announceLength length) := by
  have hcode := h.code_announceLength length
  unfold announceLength at hcode ⊢
  by_cases hannounces : announcesLength h.code = true
  · rw [if_pos hannounces] at hcode ⊢
    have hlengths : (h.trySetField "Content-Length" (decimal length)).lengths = _ :=
      h.values_trySetField cookieField_ne.1 (decimal length)
    refine ⟨h.values_trySetField_of_ne cookieField_ne.2 (by decide) _, fun hsome => ?_,
      fun hunframed => ?_⟩
    · exact hlengths.trans (if_neg hsome)
    · rw [hcode, if_pos hannounces]
      exact hlengths.trans (if_pos hunframed.lengths)
  · rw [if_neg hannounces] at hcode ⊢
    exact ⟨rfl, fun _ => rfl, fun hunframed => hunframed.lengths.trans (if_neg hannounces).symm⟩

/-- A response without a body is made for the length zero. -/
theorem madeFor_announceNoBody (h : ResponseHeader) : MadeFor 0 h h.announceNoBody := by
  unfold announceNoBody
  split
  · rename_i hfield
    refine ⟨rfl, fun _ => rfl, fun hunframed => ?_⟩
    -- A header of which nothing is said has neither of the two fields.
    rw [(h.values_eq_nil_iff cookieField_ne.1).1 hunframed.lengths,
      (h.values_eq_nil_iff cookieField_ne.2).1 hunframed.codings] at hfield
    cases hfield
  · exact h.madeFor_announceLength 0

open Serving

theorem code_headerOfBody (h : ResponseHeader) (mediaType : String) (body : Bytes) :
    (headerOfBody h mediaType body).code = correctedCode h.code (body ≠ []) := by
  rw [headerOfBody, code_announceLength, code_correctStatus, code_trySetField]

/-- A whole body has its own length announced. -/
theorem madeFor_headerOfBody (h : ResponseHeader) (mediaType : String) (body : Bytes) :
    MadeFor body.length h (headerOfBody h mediaType body) :=
  (madeFor_announceLength _ _).of_sameFraming
    ((h.sameFraming_trySetField (by decide) mediaType).trans (sameFraming_correctStatus _ _))

/-- The status of a source is put right if any bytes are announced. -/
theorem code_headerOfSource (h : ResponseHeader) (length : Nat) :
    (headerOfSource h length).code = correctedCode h.code (0 < length) := by
  rw [headerOfSource, code_announceLength, code_trySetField, code_correctStatus]

/-- A source has the length announced that it was sent with. -/
theorem madeFor_headerOfSource (h : ResponseHeader) (length : Nat) :
    MadeFor length h (headerOfSource h length) :=
  (madeFor_announceLength _ _).of_sameFraming
    ((h.sameFraming_correctStatus _).trans (sameFraming_trySetField _ (by decide) binaryType))

/-- A body in chunks counts as one that is not empty. -/
theorem code_announceChunks (h : ResponseHeader) (encoding : String) :
    (h.announceChunks encoding).code = correctedCode h.code true := by
  have hencoded (allowed : ResponseHeader) :
      (if encoding = "" then allowed
        else allowed.trySetField "Content-Encoding" encoding).code = allowed.code := by
    split
    · rfl
    · exact allowed.code_trySetField _ _
  refine (hencoded _).trans ?_
  rw [correctedCode, if_neg (c := h.code = 200 ∧ (!true) = true) (by simp)]
  simp only [and_true]
  split
  · rfl
  · rfl

/-- A header for chunks announces them, and no length unless several were announced before. -/
theorem framing_announceChunks (h : ResponseHeader) (encoding : String) :
    (h.announceChunks encoding).codings = "chunked" :: h.codings.tail ∧
      (h.announceChunks encoding).lengths = h.lengths.tail := by
  have hallowed : SameFraming h (if h.code = 204 then h.setCode 200 else h) := by
    split
    · exact h.sameFraming_setCode 200
    · exact ⟨rfl, rfl⟩
  have hencoded (allowed : ResponseHeader) :
      SameFraming allowed (if encoding = "" then allowed
        else allowed.trySetField "Content-Encoding" encoding) := by
    split
    · exact ⟨rfl, rfl⟩
    · exact allowed.sameFraming_trySetField (by decide) encoding
  obtain ⟨hlengths, hcodings⟩ := hallowed.trans (hencoded _)
  unfold announceChunks
  dsimp only
  constructor
  · refine (values_setField _ cookieField_ne.2 _ _).trans ?_
    rw [sameName_refl, if_pos rfl, values_removeField _ cookieField_ne.2]
    exact congrArg (fun codings => "chunked" :: List.tail codings) hcodings
  · refine (values_setField _ cookieField_ne.1 _ _).trans ?_
    have hother : sameName "Transfer-Encoding" "Content-Length" = false := by decide
    rw [hother, values_removeField _ cookieField_ne.1, sameName_refl, if_pos rfl]
    exact congrArg List.tail hlengths

end ResponseHeader

/-! ## Calls -/

namespace ResponseCall

open Serving ResponseHeader

/-- The length of the body that a call announces, if it says one. -/
def announced? : ResponseCall → Option Nat
  | .interim => none
  | .header => none
  | .reader _ length => some length
  | call => some call.body.length

/-- The status with which a call goes out if it finds this one. -/
def sentCode (code : Nat) : ResponseCall → Nat
  | .text body => correctedCode code (Utf8.ofString body ≠ [])
  | .bytes body => correctedCode code (body ≠ [])
  | .reader _ length => correctedCode code (0 < length)
  | .status given => given
  | .redirect _ given => given
  | _ => code

/-- The call announces the length of the body that it is given. -/
def Knows (call : ResponseCall) : Prop := call.announced? = some call.body.length

/-- All calls do that send a body and are not told another length. -/
theorem knows_iff (call : ResponseCall) :
    call.Knows ↔ match call with
      | .interim => False
      | .header => False
      | .reader source length => length = source.content.length
      | _ => True := by
  cases call with
  | reader source length => exact Option.some_inj
  | interim => exact iff_of_false nofun id
  | header => exact iff_of_false nofun id
  | _ => exact iff_of_true rfl trivial

/-- All calls send a header but the one that allows the client to send its body. -/
theorem exists_header? (call : ResponseCall) (hsends : call ≠ .interim) (h : ResponseHeader) :
    ∃ made, call.header? h = some made := by
  cases call with
  | interim => exact absurd rfl hsends
  | status code =>
      by_cases hcode : code = 204
      · exact ⟨_, if_pos hcode⟩
      · exact ⟨_, if_neg hcode⟩
  | _ => exact ⟨_, rfl⟩

/-- **The status that goes out** is the one that was set, put right by the call. -/
theorem code_of_header? {call : ResponseCall} {h made : ResponseHeader}
    (hheader : call.header? h = some made) : made.code = call.sentCode h.code := by
  cases call with
  | interim => cases hheader
  | header =>
      cases hheader
      rfl
  | text body =>
      cases hheader
      exact h.code_headerOfBody _ _
  | bytes body =>
      cases hheader
      exact h.code_headerOfBody _ _
  | reader source length =>
      cases hheader
      exact h.code_headerOfSource _
  | status code =>
      rw [header?] at hheader
      split at hheader
      · cases hheader
        exact code_announceNoBody _
      · rename_i hcode
        cases hheader
        rw [code_headerOfBody]
        change correctedCode code _ = code
        rw [correctedCode, if_neg fun hno => hcode hno.1,
          if_neg (by simp [reasonPhrase_ne_nil])]
  | redirect url code =>
      cases hheader
      exact code_announceNoBody _
  | finish =>
      cases hheader
      exact code_announceNoBody _

/-- **The header of a call is made for the length that it announces.** -/
theorem madeFor_of_header? {call : ResponseCall} {h made : ResponseHeader} {length : Nat}
    (hheader : call.header? h = some made) (hlength : call.announced? = some length) :
    MadeFor length h made := by
  cases call with
  | interim => cases hheader
  | header => cases hlength
  | text body =>
      cases hheader
      cases hlength
      exact h.madeFor_headerOfBody _ _
  | bytes body =>
      cases hheader
      cases hlength
      exact h.madeFor_headerOfBody _ _
  | reader source length =>
      cases hheader
      cases hlength
      exact h.madeFor_headerOfSource _
  | status code =>
      rw [header?] at hheader
      rw [announced?, body] at hlength
      · split at hheader
        · rename_i hcode
          rw [if_pos hcode] at hlength
          cases hheader
          cases hlength
          exact (madeFor_announceNoBody _).of_sameFraming (h.sameFraming_setCode code)
        · rename_i hcode
          rw [if_neg hcode] at hlength
          cases hheader
          cases hlength
          exact (madeFor_headerOfBody _ _ _).of_sameFraming (h.sameFraming_setCode code)
      all_goals nofun
  | redirect url code =>
      cases hheader
      cases hlength
      exact (madeFor_announceNoBody _).of_sameFraming
        ((h.sameFraming_setField (by decide) url).trans (sameFraming_setCode _ code))
  | finish =>
      cases hheader
      cases hlength
      exact h.madeFor_announceNoBody

/-- A status that goes without a body is sent without one. -/
theorem body_eq_nil_of_sentCode {call : ResponseCall} {code : Nat} (hknows : call.Knows)
    (hstatus : call.sentCode code = 204) : call.body = [] := by
  cases call with
  | interim => rfl
  | header => rfl
  | text body => exact Decidable.not_not.1 (of_decide_eq_false (no_body_of_correctedCode hstatus))
  | bytes body => exact Decidable.not_not.1 (of_decide_eq_false (no_body_of_correctedCode hstatus))
  | reader source length =>
      have hlength : length = source.content.length := (knows_iff _).1 hknows
      have hnone := of_decide_eq_false (no_body_of_correctedCode hstatus)
      exact List.eq_nil_of_length_eq_zero (hlength.symm.trans (Nat.eq_zero_of_not_pos hnone))
  | status code => exact if_pos hstatus
  | redirect url code => rfl
  | finish => rfl

end ResponseCall

end HttpServer
