import HttpServer.Proofs.Response.HeaderLines
import HttpServer.Proofs.Server.OneExchange

/-!
# Responses that go out in full

A call that sends a response puts its header on the wire and the body behind it, or a first part of
these (`Serving.puts_respond`). All of it goes out where nothing stands in the way: the peer takes
whatever it is sent, what the call sends is at hand (`ResponseCall.AtHand`) and the header can be
written (`Exchange.Writable.exec_respond`). A header that can be written stays one through the
changes that the calls make to it.
-/

namespace HttpServer

/-! ## Headers that can be written -/

/-- No phrase of a status has a line break. -/
theorem reasonPhrase_noBreak (code : Nat) :
    '\r' ∉ (reasonPhrase code).toList ∧ '\n' ∉ (reasonPhrase code).toList := by
  have hall : (reasonPhrase code).toList.all (fun c => c != '\r' && c != '\n') = true := by
    unfold reasonPhrase
    split <;> decide +kernel
  rw [List.all_eq_true] at hall
  constructor
  · exact fun hcr => absurd (hall _ hcr) (by decide)
  · exact fun hlf => absurd (hall _ hlf) (by decide)

/-- A line of a list in which a field was set is an old one, or it has the new value under the name
of an old one or of the field. -/
theorem FieldList.of_mem_set {name value : String} {fields : FieldList} {line : String × String}
    (h : line ∈ fields.set name value) : line ∈ fields ∨
      line.2 = value ∧ (line.1 = name ∨ ∃ old, (line.1, old) ∈ fields) := by
  induction fields with
  | nil =>
      rw [set, List.mem_singleton] at h
      subst h
      exact .inr ⟨rfl, .inl rfl⟩
  | cons field fields ih =>
      obtain ⟨key, old⟩ := field
      rw [set] at h
      split at h
      · rcases List.mem_cons.1 h with rfl | hmem
        · exact .inr ⟨rfl, .inr ⟨old, List.mem_cons_self⟩⟩
        · exact .inl (List.mem_cons_of_mem _ hmem)
      · rcases List.mem_cons.1 h with rfl | hmem
        · exact .inl List.mem_cons_self
        · rcases ih hmem with hold | ⟨hvalue, rfl | ⟨other, hother⟩⟩
          · exact .inl (List.mem_cons_of_mem _ hold)
          · exact .inr ⟨hvalue, .inl rfl⟩
          · exact .inr ⟨hvalue, .inr ⟨other, List.mem_cons_of_mem _ hother⟩⟩

namespace ResponseHeader

/-- Digits may stand as a header value. -/
theorem isValue_decimal (n : Nat) : isValue (decimal n) = true := by
  rw [isValue, List.all_eq_true]
  intro b hb
  by_cases hlow : b.toNat < 0x80
  · rw [Utf8.mem_ofString_iff hlow, decimal, String.toList_ofList] at hb
    have hdigit := Nat.isDigit_of_mem_toDigits (by decide) (by decide) hb
    rw [Char.isDigit, Bool.and_eq_true, decide_eq_true_eq, decide_eq_true_eq] at hdigit
    have hnumber : (Char.ofNat b.toNat).toNat = b.toNat := Utf8.toNat_ofNat hlow
    have hzero : 48 ≤ (Char.ofNat b.toNat).toNat := hdigit.1
    have hnine : (Char.ofNat b.toNat).toNat ≤ 57 := hdigit.2
    rw [hnumber] at hzero hnine
    simp [isValueByte]
    omega
  · simp [isValueByte]
    omega

/-- Every media type that goes by the name of a file may stand in a header. -/
theorem isValue_mediaType (path : String) : isValue (mediaType path) = true := by
  unfold mediaType
  split
  · unfold typeOfExtension
    split <;> rfl
  · rfl

variable {h : ResponseHeader}

/-- The phrase of the new status stands in for the message. -/
theorem fits_setCode (hfits : h.fault? = none) (code : Nat) : (h.setCode code).fault? = none := by
  rw [fault?_eq_none_iff] at hfits ⊢
  exact ⟨reasonPhrase_noBreak code, hfits.2⟩

/-- A field in order may be set, whether or not there was one of its name. -/
theorem fits_setField (hfits : h.fault? = none) {name value : String}
    (hline : LineFits (name, value)) : (h.setField name value).fault? = none := by
  rw [fault?_eq_none_iff] at hfits ⊢
  obtain ⟨hmessage, hlines⟩ := hfits
  refine ⟨hmessage, fun line hmem => ?_⟩
  rcases List.mem_append.1 hmem with hfield | hcookie
  · rcases FieldList.of_mem_set hfield with hold | ⟨hvalue, hname⟩
    · exact hlines line (List.mem_append_left _ hold)
    · refine ⟨?_, hvalue ▸ hline.2⟩
      rcases hname with hnew | ⟨old, hold⟩
      · exact hnew ▸ hline.1
      · exact (hlines _ (List.mem_append_left _ hold)).1
  · exact hlines line (List.mem_append_right _ hcookie)

theorem fits_trySetField (hfits : h.fault? = none) {name value : String}
    (hline : LineFits (name, value)) : (h.trySetField name value).fault? = none := by
  unfold trySetField
  split
  · exact hfits
  · exact fits_setField hfits hline

/-- The status that is put right for a body has a phrase of its own. -/
theorem fits_correctStatus (hfits : h.fault? = none) (hasBody : Bool) :
    (h.correctStatus hasBody).fault? = none := by
  unfold correctStatus
  split
  · exact fits_setCode hfits 200
  · split
    · exact fits_setCode hfits 204
    · exact hfits

/-- A length is written in digits, and a coding that is dropped does no harm. -/
theorem fits_announceLength (hfits : h.fault? = none) (length : Nat) :
    (h.announceLength length).fault? = none := by
  unfold announceLength
  split
  · exact fits_trySetField hfits ⟨(by decide : isToken "Content-Length" = true), isValue_decimal _⟩
  · exact hfits

/-- Announcing that there is no body does no harm either. -/
theorem fits_announceNoBody (hfits : h.fault? = none) : h.announceNoBody.fault? = none := by
  unfold announceNoBody
  split
  · exact hfits
  · exact fits_announceLength hfits 0

/-- So the header of a whole body can be written, if its media type can. -/
theorem fits_headerOfBody (hfits : h.fault? = none) {mediaType : String}
    (htype : isValue mediaType = true) (body : Bytes) :
    (Serving.headerOfBody h mediaType body).fault? = none := by
  apply fits_announceLength
  apply fits_correctStatus
  exact fits_trySetField hfits ⟨(by decide : isToken "Content-Type" = true), htype⟩

/-- The header of a source can be written if the one before can. -/
theorem fits_headerOfSource (hfits : h.fault? = none) (length : Nat) :
    (Serving.headerOfSource h length).fault? = none := by
  apply fits_announceLength
  apply fits_trySetField (fits_correctStatus hfits _)
  exact ⟨by decide, rfl⟩

end ResponseHeader

/-! ## Sources that are at hand -/

namespace Incoming

/-- A source holds no more bytes than its weight, by which the rounds of copying are bounded. -/
theorem length_content_le_weight (source : Incoming) : source.content.length ≤ source.weight := by
  rw [content, weight]
  generalize source.script = script
  induction script with
  | nil => exact Nat.le_refl 0
  | cons arrival rest ih =>
      rw [List.map_cons, List.foldr_cons]
      cases arrival with
      | bytes data =>
          by_cases hdata : data = []
          · rw [hdata]
            exact Nat.zero_le _
          · have hcontent : Arrival.content (.bytes data :: rest) = data ++ Arrival.content rest :=
              content_bytes hdata rest none
            rw [hcontent, List.length_append]
            dsimp only
            omega
      | pause ms => exact Nat.le_trans ih (Nat.le_add_left _ _)
      | failure e => exact Nat.zero_le _
      | close => exact Nat.zero_le _
      | silence => exact Nat.zero_le _

/-- Bytes at hand are a source that neither fails nor waits. -/
theorem onlyBytes_ofBytes (data : Bytes) : (ofBytes data).OnlyBytes := by
  intro arrival hmem
  unfold ofBytes at hmem
  split at hmem
  · cases hmem
  · rename_i hdata
    exact ⟨data, hdata, List.mem_singleton.1 hmem⟩

/-- A read of a stream of bytes finds bytes or its end. -/
theorem OnlyBytes.poll {source : Incoming} (h : source.OnlyBytes) {size : Nat} (hsize : 0 < size)
    (now : Nat) : ∃ rest data, source.poll size now = (rest, .bytes data) ∧ rest.OnlyBytes := by
  by_cases hscript : source.script = []
  · refine ⟨{}, [], ?_, nofun⟩
    rw [Incoming.poll, hscript]
    rfl
  · obtain ⟨rest, data, _, hpoll, hrest⟩ := h.exists_poll hscript hsize now
    exact ⟨rest, data, hpoll, hrest⟩

end Incoming

/-- What the call sends is at hand: it need not be waited for. -/
def ResponseCall.AtHand : ResponseCall → Prop
  | .reader source _ => source.OnlyBytes
  | _ => True

namespace Serving

open Exchange ResponseHeader

variable {ν : Type}

/-- Such a source is read in one round, and leaves the exchange as it is. -/
theorem exec_readSource_of_onlyBytes {source : Incoming} (hbytes : source.OnlyBytes) {size : Nat}
    (hsize : 0 < size) (rounds : Nat) (e : Exchange ν) :
    ∃ data rest, exec (readSource size (rounds + 1) source).run e =
      (some (.ok (data, rest)), e) ∧ rest.OnlyBytes := by
  obtain ⟨rest, data, hpoll, hrest⟩ := hbytes.poll hsize e.now
  refine ⟨data, rest, ?_, hrest⟩
  rw [readSource, exec_ebind, exec_eget]
  dsimp only
  rw [hpoll]
  rfl

/-! ## What calls put on the wire -/

/-- A source goes out behind its header, or a first part of the two. -/
theorem puts_sendReader (source : Incoming) (length : Nat) {e : Exchange ν}
    (hunsent : e.response.headerSent = false) : Puts (sendReader source length) e
      ((headerOfSource e.response.header length).toBytes ++ source.content) := by
  have hheader := puts_sendHeader (e.changeHeader (headerOfSource · length))
  rw [pendingHeader, if_neg (by simp [changeHeader, hunsent])] at hheader
  refine puts_of_step (exec_emodify _ _) (sends_changeHeader e _).isStopped rfl ?_
  refine puts_bind hheader moves_sendHeader fun _ later hlater => ?_
  have hsent := headerSent_of_sendHeader hlater
  suffices h : Puts _ later (source.content ++ []) by rwa [List.append_nil] at h
  refine puts_bind (puts_copySource _ _ _) (moves_copySource _ _) fun _ last hlast => ?_
  exact puts_finish (((moves_copySource _ _).exec hlast).headerSent hsent)

/-- Finishing puts the header of a response without a body on the wire. -/
theorem puts_finish_of_unsent {e : Exchange ν} (hunsent : e.response.headerSent = false) :
    Puts finish e e.response.header.announceNoBody.toBytes := by
  obtain ⟨sent, hwritten, hprefix, hall, hstopped⟩ :=
    puts_sendHeader (e.changeHeader (·.announceNoBody))
  rw [pendingHeader, if_neg (by simp [changeHeader, hunsent])] at hprefix hall
  unfold Puts
  rw [exec_finish, if_neg (by simp [hunsent])]
  rcases hexec : exec sendHeader.run (e.changeHeader (·.announceNoBody)) with ⟨_ | result, mid⟩
  · rw [hexec] at hwritten hall
    exact ⟨sent, hwritten, hprefix, hall, hstopped⟩
  · rw [hexec] at hwritten hall
    refine ⟨sent, ?_, hprefix, hall, hstopped⟩
    exact (outgoing_shutDown mid).trans hwritten

/-- **What a call puts on the wire** that finds its header unsent: the header made for it, and the
body that it is given. -/
theorem puts_respond {call : ResponseCall} {e : Exchange ν} {h : ResponseHeader}
    (hunsent : e.response.headerSent = false) (hheader : call.header? e.response.header = some h) :
    Puts (respond call) e (h.toBytes ++ call.body) := by
  have hbody (mediaType : String) (body : Bytes) (e : Exchange ν)
      (hunsent : e.response.headerSent = false) : Puts (sendBody mediaType body) e
        ((headerOfBody e.response.header mediaType body).toBytes ++ body) := by
    have hputs := puts_sendBody mediaType body e
    rwa [if_neg (by simp [hunsent])] at hputs
  have hnone (e : Exchange ν) (hunsent : e.response.headerSent = false) :
      Puts finish e (e.response.header.announceNoBody.toBytes ++ []) := by
    rw [List.append_nil]
    exact puts_finish_of_unsent hunsent
  cases call with
  | interim => cases hheader
  | header =>
      cases hheader
      have hputs := puts_sendHeader e
      rw [pendingHeader, if_neg (by simp [hunsent]), ← List.append_nil (toBytes _)] at hputs
      exact hputs
  | text body =>
      cases hheader
      exact hbody _ _ e hunsent
  | bytes body =>
      cases hheader
      exact hbody _ _ e hunsent
  | reader source length =>
      cases hheader
      exact puts_sendReader source length hunsent
  | status code =>
      have hchanged := hbody plainTextType (Utf8.ofString (reasonPhrase code))
        (e.changeHeader fun h => h.setCode code) hunsent
      have hempty := hnone (e.changeHeader fun h => h.setCode code) hunsent
      rw [ResponseCall.header?] at hheader
      rw [ResponseCall.body]
      refine puts_of_step (exec_emodify _ _) (sends_changeHeader e _).isStopped rfl ?_
      by_cases hcode : code = 204
      · rw [if_pos hcode] at hheader ⊢
        cases hheader
        rw [if_pos hcode]
        exact hempty
      · rw [if_neg hcode] at hheader ⊢
        cases hheader
        rw [if_neg hcode]
        exact hchanged
  | redirect url code =>
      cases hheader
      refine puts_of_step (exec_emodify _ _) (sends_changeHeader e _).isStopped rfl ?_
      exact hnone (e.changeHeader fun h => (h.setField "Location" url).setCode code) hunsent
  | finish =>
      cases hheader
      exact hnone e hunsent

end Serving

/-! ## Calls that succeed -/

namespace Exchange.Writable

open Serving ResponseHeader

variable {ν : Type} {e : Exchange ν} (h : e.Writable)

include h

/-- A source that is at hand is copied to the end. -/
theorem exec_copySource {source : Incoming} (hbytes : source.OnlyBytes) {pieces : Nat}
    (hpieces : source.content.length < pieces) :
    (exec (copySource pieces source).run e).1 = some (.ok ()) := by
  induction pieces generalizing source e with
  | zero => exact absurd hpieces (Nat.not_lt_zero _)
  | succ pieces ih =>
      have hsize : 0 < e.writeSize := Nat.le_max_right _ _
      obtain ⟨data, rest, hread, hrest⟩ :=
        exec_readSource_of_onlyBytes hbytes hsize source.script.length e
      rw [copySource, exec_ebind, exec_eget]
      dsimp only
      rw [exec_ebind, exec_adapt, hread]
      dsimp only [Option.map_some, Except.mapError]
      -- A piece is written and leaves less to be read, or there is none.
      rcases content_readSource hsize hread with ⟨hdata, hcontent⟩ | ⟨hdata, _⟩
      · have hpositive := List.length_pos_iff.2 hdata
        rw [hcontent, List.length_append] at hpieces
        rw [if_pos hdata, exec_ebind, exec_adapt, h.exec_transmit]
        exact ih (h.deliver data) hrest (by omega)
      · rw [if_neg (by simpa using hdata)]
        rfl

/-- Finishing succeeds where nothing stands in the way. -/
theorem exec_finish (hunsent : e.response.headerSent = false)
    (hfits : e.response.header.announceNoBody.fault? = none) :
    (exec finish.run e).1 = some (.ok ()) := by
  have hheader := (h.changeHeader (·.announceNoBody)).exec_sendHeader hunsent hfits
  rw [Serving.exec_finish, if_neg (by simp [hunsent]), hheader]

/-- A source at hand is sent in full. -/
theorem exec_sendReader {source : Incoming} (hbytes : source.OnlyBytes) {length : Nat}
    (hunsent : e.response.headerSent = false)
    (hfits : (headerOfSource e.response.header length).fault? = none) :
    (exec (sendReader source length).run e).1 = some (.ok ()) := by
  have hchanged := h.changeHeader (headerOfSource · length)
  have hheader := hchanged.exec_sendHeader hunsent hfits
  have hsent := hchanged.markHeaderSent.deliver
    (e.changeHeader (headerOfSource · length)).response.header.toBytes
  have hcopied := hsent.exec_copySource hbytes (Nat.lt_succ_of_le source.length_content_le_weight)
  change (exec ((modify fun e => e.changeHeader (headerOfSource · length)) >>= fun _ =>
    sendHeader >>= fun _ => _).run e).1 = _
  rw [exec_ebind, exec_emodify]
  dsimp only
  rw [exec_ebind, hheader]
  dsimp only
  rw [exec_ebind]
  rcases hexec : exec (copySource (source.weight + 1) source).run _ with ⟨result, later⟩
  rw [hexec] at hcopied
  cases hcopied
  dsimp only
  rw [exec_finish_of_headerSent (((moves_copySource _ _).exec hexec).headerSent rfl)]

/-- **A call succeeds where nothing stands in the way.** -/
theorem exec_respond {call : ResponseCall} (hcall : call.AtHand) {made : ResponseHeader}
    (hunsent : e.response.headerSent = false) (hheader : call.header? e.response.header = some made)
    (hfits : made.fault? = none) : (exec (respond call).run e).1 = some (.ok ()) := by
  cases call with
  | interim => cases hheader
  | header =>
      cases hheader
      exact congrArg Prod.fst (h.exec_sendHeader hunsent hfits)
  | text body =>
      cases hheader
      exact h.exec_sendBody _ _ hunsent hfits
  | bytes body =>
      cases hheader
      exact h.exec_sendBody _ _ hunsent hfits
  | reader source length =>
      cases hheader
      exact h.exec_sendReader hcall hunsent hfits
  | status code =>
      have hchanged := h.changeHeader fun header => header.setCode code
      change (exec (sendStatus code).run e).1 = _
      rw [ResponseCall.header?] at hheader
      rw [sendStatus, exec_ebind, exec_emodify]
      dsimp only
      by_cases hcode : code = 204
      · rw [if_pos hcode] at hheader ⊢
        cases hheader
        exact hchanged.exec_finish hunsent hfits
      · rw [if_neg hcode] at hheader ⊢
        cases hheader
        exact hchanged.exec_sendBody _ _ hunsent hfits
  | redirect url code =>
      cases hheader
      exact (h.changeHeader fun header => (header.setField "Location" url).setCode code).exec_finish
        hunsent hfits
  | finish =>
      cases hheader
      exact h.exec_finish hunsent hfits

end Exchange.Writable

end HttpServer
