import HttpServer.Proofs.Exchange.Performing
import HttpServer.Proofs.Exchange.Wire

/-!
# The header goes out once

Where the peer takes all that is written, a write either finds the connection stopped or goes
through as a whole, and so does the header of a response (`Serving.SendsHeader`). What goes on after
the header was called for decides which bytes come behind it, and nothing comes in front of it
(`Serving.Announces`).
-/

namespace HttpServer

/-- The peer takes all that is written. -/
def Outgoing.AcceptsAll (o : Outgoing) : Prop := o.limit = none ∧ o.flushFailure = none

namespace Exchange

variable {ν : Type}

/-- A peer that takes everything goes on doing so. -/
theorem Evolves.acceptsAll {e later : Exchange ν} (h : e.Evolves later)
    (haccepts : e.outgoing.AcceptsAll) : later.outgoing.AcceptsAll :=
  ⟨h.peer.1.trans haccepts.1, h.peer.2.2.trans haccepts.2⟩

/-- All that is sent to such a peer reaches it. -/
theorem written_deliver_of_acceptsAll {e : Exchange ν} (h : e.outgoing.AcceptsAll) (data : Bytes) :
    (e.deliver data).outgoing.written = e.outgoing.written ++ data := by
  rw [written_deliver, Outgoing.room, h.1, List.take_length]

/-- What stays as it is while nothing is written. -/
structure KeepsWire (e later : Exchange ν) : Prop extends Evolves e later where
  kept : later.outgoing.written = e.outgoing.written
  response : later.response = e.response

/-- What sends nothing keeps the wire. -/
theorem Withholds.keepsWire {e later : Exchange ν} (h : e.Withholds later) : e.KeepsWire later :=
  ⟨h.toEvolves, congrArg Outgoing.written h.outgoing, h.response⟩

/-- Shutting the stream down keeps the wire as well. -/
theorem keepsWire_finish (e : Exchange ν) : e.KeepsWire e.shutDown.unregister :=
  ⟨IsTrans.trans _ _ _ e.sends_shutDown.toEvolves (waits_unregister _).toEvolves,
    Serving.outgoing_shutDown e, Serving.response_shutDown e⟩

end Exchange

namespace Serving

variable {ν α ε : Type}

open Exchange

/-- Where the peer takes all, a write finds the connection stopped or goes through. -/
theorem exec_transmit_of_acceptsAll {e : Exchange ν} (h : e.outgoing.AcceptsAll) (data : Bytes) :
    exec (transmit data).run e =
      if e.checkpoint.isStopped then (some (.error .aborted), e.checkpoint)
      else (some (.ok ()), e.checkpoint.deliver data) := by
  have haccepts := e.waits_checkpoint.acceptsAll h
  rw [transmit, exec_ebind, exec_emodify]
  dsimp only
  generalize e.checkpoint = e at haccepts ⊢
  rw [exec_ebind, exec_eget]
  dsimp only
  by_cases hstopped : e.isStopped = true
  · rw [if_pos hstopped, if_pos hstopped]
    rfl
  · rw [if_neg hstopped, if_neg hstopped]
    have hroom : ¬ e.outgoing.room data < data.length := by
      rw [Outgoing.room, haccepts.1]
      exact Nat.lt_irrefl _
    have hrefusal : (e.outgoing.write data).2 = none := by
      rw [Outgoing.write, if_neg hroom]
    have hflush : (e.outgoing.write data).1.flushFailure = none := haccepts.2
    rw [exec_ebind]
    change exec (ExceptT.run _) (e.deliver data) = _
    rw [hrefusal]
    dsimp only
    rw [hflush]
    rfl

/-- **What becomes of a header** that is to be sent. -/
inductive SendsHeader (e : Exchange ν) :
    Option (Except SendError Unit) × Exchange ν → Prop
  | again (hsent : e.response.headerSent = true) : SendsHeader e (some (.ok ()), e)
  | refused (hunsent : e.response.headerSent = false) (failure : SendError)
      (hfault : e.response.header.fault? ≠ none) : SendsHeader e (some (.error failure), e)
  | aborted {later : Exchange ν} (hunsent : e.response.headerSent = false) (failure : SendError)
      (hfault : e.response.header.fault? = none) (hsent : later.response.headerSent = true)
      (hstopped : later.isStopped = true) (hnone : later.outgoing.written = e.outgoing.written) :
      SendsHeader e (some (.error failure), later)
  | sent {later : Exchange ν} (hunsent : e.response.headerSent = false)
      (hfault : e.response.header.fault? = none) (hsent : later.response.headerSent = true)
      (hall : later.outgoing.written = e.outgoing.written ++ e.response.header.toBytes) :
      SendsHeader e (some (.ok ()), later)

/-- **A header goes out as a whole or not at all**, and in the first case once. -/
theorem sendsHeader {e : Exchange ν} (h : e.outgoing.AcceptsAll) :
    SendsHeader e (exec sendHeader.run e) := by
  rw [sendHeader, exec_ebind, exec_eget]
  dsimp only
  by_cases hsent : e.response.headerSent = true
  · rw [if_neg (by simp [hsent])]
    exact .again hsent
  have hunsent : e.response.headerSent = false := by simpa using hsent
  rw [if_pos (by simpa using hsent), ResponseHeader.writeTo]
  cases hfault : e.response.header.fault? with
  | some fault => exact .refused hunsent _ (by simp [hfault])
  | none =>
      dsimp only
      have hmarked : e.markHeaderSent.outgoing.AcceptsAll := h
      have hbegun := e.markHeaderSent.waits_checkpoint
      have hcounted : e.markHeaderSent.checkpoint.response.headerSent = true :=
        hbegun.headerSent rfl
      have hwritten := congrArg Outgoing.written hbegun.outgoing
      rw [exec_ebind, exec_emodify]
      dsimp only
      rw [exec_adapt, exec_transmit_of_acceptsAll hmarked, List.nil_append]
      split
      · rename_i hstopped
        exact .aborted hunsent _ hfault hcounted hstopped hwritten
      · refine .sent hunsent hfault hcounted ?_
        rw [written_deliver_of_acceptsAll (hbegun.acceptsAll hmarked), hwritten]
        rfl

/-- **The header is sent once**: with this header if none was sent before, or not at all if the
connection was stopped, and with such bytes behind it. A header that cannot be written leaves the
wire as it is. -/
structure Announces (h : ResponseHeader) (Body : Bytes → Prop) (e later : Exchange ν) :
    Prop where
  resent : e.response.headerSent = true → later.response.headerSent = true ∧
    ∃ body, Body body ∧ later.outgoing.written = e.outgoing.written ++ body
  refused : e.response.headerSent = false → h.fault? ≠ none →
    later.response.headerSent = false ∧ later.outgoing.written = e.outgoing.written
  sent : e.response.headerSent = false → h.fault? = none →
    later.response.headerSent = true ∧
    (later.isStopped = true ∧ later.outgoing.written = e.outgoing.written ∨
      ∃ body, Body body ∧ later.outgoing.written = e.outgoing.written ++ h.toBytes ++ body)

/-- A change of the header comes before what is sent with it. -/
theorem Announces.of_changeHeader {h : ResponseHeader} {Body : Bytes → Prop} {e later : Exchange ν}
    {change : ResponseHeader → ResponseHeader}
    (hannounces : Announces h Body (e.changeHeader change) later) : Announces h Body e later :=
  ⟨hannounces.resent, hannounces.refused, hannounces.sent⟩

/-- What other tasks do before the header goes out does not matter. -/
theorem Announces.of_waits {h : ResponseHeader} {Body : Bytes → Prop} {e mid later : Exchange ν}
    (hwaits : e.Waits mid) (hannounces : Announces h Body mid later) :
    Announces h Body e later := by
  obtain ⟨hresent, hrefused, hsent⟩ := hannounces
  rw [hwaits.response, hwaits.outgoing] at hresent hrefused hsent
  exact ⟨hresent, hrefused, hsent⟩

/-- What is done behind the body does not matter, if it keeps the wire. -/
theorem Announces.of_keepsWire {h : ResponseHeader} {Body : Bytes → Prop}
    {e mid later : Exchange ν} (hannounces : Announces h Body e mid)
    (hkeeps : mid.KeepsWire later) : Announces h Body e later := by
  obtain ⟨hresent, hrefused, hsent⟩ := hannounces
  rw [← hkeeps.response, ← hkeeps.kept] at hresent hrefused hsent
  refine ⟨hresent, hrefused, fun hunsent hfault => ?_⟩
  obtain ⟨hlater, ⟨hstopped, hnone⟩ | hbody⟩ := hsent hunsent hfault
  · exact ⟨hlater, .inl ⟨hkeeps.isStopped hstopped, hnone⟩⟩
  · exact ⟨hlater, .inr hbody⟩

/-- What comes behind the header may be described more loosely. -/
theorem Announces.mono {h : ResponseHeader} {Body Other : Bytes → Prop} {e later : Exchange ν}
    (hannounces : Announces h Body e later) (hbody : ∀ body, Body body → Other body) :
    Announces h Other e later := by
  obtain ⟨hresent, hrefused, hsent⟩ := hannounces
  refine ⟨fun hagain => ?_, hrefused, fun hunsent hfault => ?_⟩
  · obtain ⟨hlater, body, hbodyOf, hwritten⟩ := hresent hagain
    exact ⟨hlater, body, hbody body hbodyOf, hwritten⟩
  · obtain ⟨hlater, hcut | ⟨body, hbodyOf, hwritten⟩⟩ := hsent hunsent hfault
    · exact ⟨hlater, .inl hcut⟩
    · exact ⟨hlater, .inr ⟨body, hbody body hbodyOf, hwritten⟩⟩

/-- What goes on after the header was called for decides which bytes come behind it. -/
theorem announces_of_sendHeader {Body : Bytes → Prop} {e later : Exchange ν}
    (haccepts : e.outgoing.AcceptsAll)
    (herror : ∀ failure mid, exec sendHeader.run e = (some (.error failure), mid) →
      KeepsWire mid later)
    (hok : ∀ mid, exec sendHeader.run e = (some (.ok ()), mid) → mid.outgoing.AcceptsAll →
      mid.response.headerSent = true → later.response.headerSent = true ∧
        ∃ body, Body body ∧ later.outgoing.written = mid.outgoing.written ++ body) :
    Announces e.response.header Body e later := by
  have hsends := sendsHeader haccepts
  have hmoves := moves_sendHeader e
  generalize hexec : exec sendHeader.run e = outcome at hsends hmoves
  cases hsends with
  | again hsent =>
      refine ⟨fun _ => hok e hexec haccepts hsent, fun hunsent => ?_, fun hunsent => ?_⟩
      · rw [hsent] at hunsent
        cases hunsent
      · rw [hsent] at hunsent
        cases hunsent
  | refused hunsent failure hfault =>
      have hkeeps := herror failure e hexec
      refine ⟨fun hsent => ?_, fun _ _ => ?_, fun _ hnone => absurd hnone hfault⟩
      · rw [hunsent] at hsent
        cases hsent
      · rw [hkeeps.response]
        exact ⟨hunsent, hkeeps.kept⟩
  | aborted hunsent failure hfault hsent hstopped hnone =>
      have hkeeps := herror failure _ hexec
      refine ⟨fun hagain => ?_, fun _ hsome => absurd hfault hsome, fun _ _ => ?_⟩
      · rw [hunsent] at hagain
        cases hagain
      · exact ⟨hkeeps.headerSent hsent, .inl ⟨hkeeps.isStopped hstopped, hkeeps.kept.trans hnone⟩⟩
  | sent hunsent hfault hsent hall =>
      obtain ⟨hlater, body, hbody, hwritten⟩ := hok _ hexec (hmoves.acceptsAll haccepts) hsent
      refine ⟨fun hagain => ?_, fun _ hsome => absurd hfault hsome, fun _ _ => ?_⟩
      · rw [hunsent] at hagain
        cases hagain
      · exact ⟨hlater, .inr ⟨body, hbody, hwritten.trans (by rw [hall])⟩⟩

/-- A header on its own has nothing behind it. -/
theorem announces_sendHeader {e : Exchange ν} (haccepts : e.outgoing.AcceptsAll) :
    Announces e.response.header (· = []) e (exec sendHeader.run e).2 := by
  refine announces_of_sendHeader haccepts (fun failure mid hexec => ?_) fun mid hexec _ hsent => ?_
  · rw [hexec]
    exact (Waits.refl mid).toWithholds.keepsWire
  · rw [hexec]
    exact ⟨hsent, [], rfl, (List.append_nil _).symm⟩

/-- What follows the header if it could be sent comes behind it. -/
theorem announces_bind {f : Unit → ExceptT SendError (Serving ν) α} {Body : Bytes → Prop}
    {e : Exchange ν} (haccepts : e.outgoing.AcceptsAll) (hmoves : ∀ a, Moves Sends (f a).run)
    (hf : ∀ mid : Exchange ν, mid.outgoing.AcceptsAll → mid.response.headerSent = true →
      ∃ body, Body body ∧
        (exec (f ()).run mid).2.outgoing.written = mid.outgoing.written ++ body) :
    Announces e.response.header Body e (exec (sendHeader >>= f).run e).2 := by
  refine announces_of_sendHeader haccepts
    (fun failure mid hexec => ?_) fun mid hexec hmid hsent => ?_
  · rw [exec_ebind, hexec]
    exact (Waits.refl mid).toWithholds.keepsWire
  · rw [exec_ebind, hexec]
    exact ⟨(hmoves () mid).headerSent hsent, hf mid hmid hsent⟩

theorem announces_finish {e : Exchange ν} (haccepts : e.outgoing.AcceptsAll) :
    Announces e.response.header.announceNoBody (· = []) e (exec finish.run e).2 := by
  by_cases hsent : e.response.headerSent = true
  · rw [exec_finish_of_headerSent hsent]
    have hkeeps := e.keepsWire_finish
    refine ⟨fun _ => ⟨hkeeps.headerSent hsent, [], rfl, ?_⟩, fun hno => ?_, fun hno => ?_⟩
    · rw [hkeeps.kept, List.append_nil]
    · rw [hsent] at hno
      cases hno
    · rw [hsent] at hno
      cases hno
  · have hfinish := exec_finish e
    rw [if_neg hsent] at hfinish
    have hannounced : (e.changeHeader (·.announceNoBody)).outgoing.AcceptsAll := haccepts
    suffices hannounces : Announces e.response.header.announceNoBody (· = [])
        (e.changeHeader (·.announceNoBody)) (exec finish.run e).2 from
      ⟨hannounces.resent, hannounces.refused, hannounces.sent⟩
    refine announces_of_sendHeader hannounced (fun failure mid hexec => ?_)
      fun mid hexec _ hmid => ?_
    · rw [hfinish, hexec]
      exact mid.keepsWire_finish
    · have hkeeps := mid.keepsWire_finish
      rw [hfinish, hexec]
      exact ⟨hkeeps.headerSent hmid, [], rfl, hkeeps.kept.trans (List.append_nil _).symm⟩

/-- What is put on the wire as a whole or in part comes behind the header. -/
theorem exists_of_puts {x : ExceptT ε (Serving ν) α} {e : Exchange ν} {data : Bytes}
    (h : Puts x e data) :
    ∃ body, body <+: data ∧ (exec x.run e).2.outgoing.written = e.outgoing.written ++ body := by
  obtain ⟨sent, hwritten, hprefix, _⟩ := h
  exact ⟨sent, hprefix, hwritten⟩

/-- What is sent with a changed header. -/
theorem announces_change_bind {f : Unit → ExceptT SendError (Serving ν) α} {Body : Bytes → Prop}
    {e : Exchange ν} (change : ResponseHeader → ResponseHeader) (haccepts : e.outgoing.AcceptsAll)
    (hmoves : ∀ a, Moves Sends (f a).run)
    (hf : ∀ mid : Exchange ν, mid.outgoing.AcceptsAll → mid.response.headerSent = true →
      ∃ body, Body body ∧
        (exec (f ()).run mid).2.outgoing.written = mid.outgoing.written ++ body) :
    Announces (change e.response.header) Body e
      (exec ((modify fun e => e.changeHeader change) >>= fun _ => sendHeader >>= f).run e).2 := by
  rw [exec_ebind, exec_emodify]
  have hannounces := announces_bind (e := e.changeHeader change) haccepts hmoves hf
  exact ⟨hannounces.resent, hannounces.refused, hannounces.sent⟩

end Serving

end HttpServer
