import HttpServer.Proofs.Exchange.Answering
import Mathlib.Data.List.Forall2

/-!
# The wire of a whole run

A program may answer in any order, as often as it likes, and whatever it was told of the operations
before. Where the peer takes all that is written, its run puts interim lines on the wire, then at
most one header, the first that could be written when it was to be sent, and then bytes of the
bodies alone (`Action.written_run`). What was sent counts as sent, an exchange that is finished is
stopped, and nothing more is written to a stopped one (`Action.header_once`).
-/

namespace HttpServer

open Serving Exchange

namespace Operation

variable {ν : Type}

/-- The header that an operation sends if none was sent before: the one that it tries to send, if
this can be written. -/
def heads (e : Exchange ν) (op : Operation ν) : Option ResponseHeader :=
  (op.attempt e).filter fun h => h.fault?.isNone

/-- The operation tells by its reply that it has finished the exchange. -/
def Finishes : (op : Operation ν) → op.Reply → Prop
  | .respond (.text _), reply => reply = .ok ()
  | .respond (.bytes _), reply => reply = .ok ()
  | .respond (.reader _ _), reply => reply = .ok ()
  | .respond (.status code), reply => code = 204 ∨ reply = .ok ()
  | .respond (.redirect _ _), _ => True
  | .respond .finish, _ => True
  | .sendFile _, reply => reply = .ok true
  | .sendChunked _, (_, result) => result = .ok ()
  | _, _ => False

end Operation

/-- An operation that is performed, and the exchange that it finds. -/
structure Visit (ν : Type) where
  found : Exchange ν
  op : Operation ν

namespace Visit

variable {ν : Type}

/-- The header that is sent: the first one that could be written when it was to be sent. -/
def sentHeader (visits : List (Visit ν)) : Option ResponseHeader :=
  visits.findSome? fun visit => visit.op.heads visit.found

/-- The interim lines that go out. -/
def interims (visits : List (Visit ν)) : Bytes :=
  visits.flatMap fun visit => visit.op.interim visit.found

/-- Each of these is of the body that the operation in its place sends. -/
def Carry (visits : List (Visit ν)) (bodies : List Bytes) : Prop :=
  List.Forall₂ (fun visit body => visit.op.Carries visit.found body) visits bodies

end Visit

/-- The operations that a program performs when it is run, in order. -/
def Action.visits {ν α : Type} : Action ν α → Exchange ν → List (Visit ν)
  | .done _, _ => []
  | .panic, _ => []
  | .perform op next, e =>
    ⟨e, op⟩ :: match exec (Serving.perform op) e with
      | (some reply, later) => (next reply).visits later
      | (none, _) => []

namespace Serving

variable {ν : Type}

/-- A whole body that was sent has finished the exchange. -/
theorem isStopped_sendBody {mediaType : String} {body : Bytes} {e later : Exchange ν}
    (hserved : e.IsServed) (h : exec (sendBody mediaType body).run e = (some (.ok ()), later)) :
    later.isStopped = true := by
  obtain ⟨_, announced, hannounced, h⟩ := exists_of_exec_ebind h
  obtain ⟨_, sent, hsent, h⟩ := exists_of_exec_ebind h
  have hserved := ((moves_changeHeader _).exec hannounced).isServed hserved
  have hserved := (moves_sendHeader.exec hsent).isServed hserved
  dsimp only at h
  split at h
  · obtain ⟨_, passed, hpassed, h⟩ := exists_of_exec_ebind h
    have hmoves := (moves_adapt (moves_transmit _)).exec hpassed
    exact isStopped_finish (hmoves.isServed hserved) h
  · exact isStopped_finish hserved h

theorem isStopped_sendReader {source : Incoming} {length : Nat} {e later : Exchange ν}
    (hserved : e.IsServed) (h : exec (sendReader source length).run e = (some (.ok ()), later)) :
    later.isStopped = true := by
  obtain ⟨_, announced, hannounced, h⟩ := exists_of_exec_ebind h
  obtain ⟨_, sent, hsent, h⟩ := exists_of_exec_ebind h
  obtain ⟨_, copied, hcopied, h⟩ := exists_of_exec_ebind h
  have hserved := ((moves_changeHeader _).exec hannounced).isServed hserved
  have hserved := (moves_sendHeader.exec hsent).isServed hserved
  exact isStopped_finish (((moves_copySource _ _).exec hcopied).isServed hserved) h

theorem isStopped_sendStream {calls : Nat} {e later : Exchange ν} (hserved : e.IsServed)
    (h : exec (sendStream calls).run e = (some (.ok ()), later)) : later.isStopped = true := by
  obtain ⟨_, announced, hannounced, h⟩ := exists_of_exec_ebind h
  obtain ⟨sent, passed, hpassed, h⟩ := exists_of_exec_ebind h
  cases hannounced
  have hchanged := (e.sends_changeHeader fun h =>
    h.announceChunks e.source.queue.encoding).isServed hserved
  have hconnected := (waits_changeStream _ fun stream =>
    { stream with source := stream.source.connect }).isServed hchanged
  have hserved := ((moves_lift moves_sendHeader).exec hpassed).isServed hconnected
  cases sent with
  | error failure =>
      obtain ⟨_, _, _, h⟩ := exists_of_exec_ebind h
      cases h
  | ok _ =>
      obtain ⟨_, written, hwritten, h⟩ := exists_of_exec_ebind h
      have hkept := (moves_adapt (moves_runWriter _ _)).exec hwritten
      exact isStopped_finish (hkept.isServed hserved) h

/-- **A call that has sent a response** leaves the connection stopped. -/
theorem isStopped_of_call_finishes {call : ResponseCall} {e later : Exchange ν}
    {reply : Except SendError Unit} (hserved : e.IsServed)
    (h : exec (respond call).run e = (some reply, later))
    (hfinishes : (Operation.respond call : Operation ν).Finishes reply) :
    later.isStopped = true := by
  cases call with
  | interim | header => exact hfinishes.elim
  | text body | bytes body =>
      cases hfinishes
      exact isStopped_sendBody hserved h
  | reader source length =>
      cases hfinishes
      exact isStopped_sendReader hserved h
  | status code =>
      change exec (sendStatus code).run e = _ at h
      have hchanged := ((e.sends_changeHeader fun h => h.setCode code).isServed hserved)
      rw [sendStatus, exec_ebind, exec_emodify] at h
      dsimp only at h
      split at h
      · exact isStopped_finish hchanged h
      · rename_i hcode
        cases hfinishes.resolve_left hcode
        exact isStopped_sendBody hchanged h
  | redirect url code =>
      change exec (redirect url code).run e = _ at h
      rw [redirect, exec_ebind, exec_emodify] at h
      exact isStopped_finish ((e.sends_changeHeader _).isServed hserved) h
  | finish => exact isStopped_finish hserved h

/-- **What has finished the exchange has stopped the connection.** -/
theorem isStopped_of_finishes {op : Operation ν} {e later : Exchange ν} {reply : op.Reply}
    (hserved : e.IsServed) (h : exec (perform op) e = (some reply, later))
    (hfinishes : op.Finishes reply) : later.isStopped = true := by
  cases op with
  | respond call => exact isStopped_of_call_finishes hserved h hfinishes
  | sendFile path =>
      cases hfinishes
      change exec (sendFile path).run e = _ at h
      by_cases hfile : ∃ walked data, e.files.openRead path = .ok (walked, .file data)
      · obtain ⟨walked, data, hfind⟩ := hfile
        rw [exec_sendFile_of_file hfind] at h
        have htyped := (e.sends_changeHeader fun h =>
          (h.trySetField "Content-Type" (mediaType path)).setCode 200).isServed hserved
        rcases hsent : exec (sendReader (Incoming.ofBytes data) data.length).run _ with
          ⟨_ | _ | _, last⟩
        · rw [hsent] at h
          cases h
        · rw [hsent] at h
          cases h
        · rw [hsent] at h
          cases h
          exact isStopped_sendReader htyped hsent
      · rw [exec_sendFile_of_not_file fun walked data hfind => hfile ⟨walked, data, hfind⟩] at h
        cases h
  | sendChunked body =>
      change exec (sendChunked body) e = _ at h
      rw [exec_sendChunked] at h
      have hopened : e.Waits ((e.openStream body).schedule body.batches) :=
        (e.waits_openStream body).trans (waits_agenda _ _)
      rcases hsent : exec (sendStream body.calls).run _ with ⟨_ | result, mid⟩
      · rw [hsent] at h
        cases h
      · rw [hsent] at h
        cases h
        cases hfinishes
        have hstopped := isStopped_sendStream (hopened.isServed hserved) hsent
        exact mid.waits_closeStream.isStopped hstopped
  | _ => exact hfinishes.elim

end Serving

namespace Operation

variable {ν : Type}

/-- An operation that calls for the header puts no interim line. -/
theorem interim_of_attempt {op : Operation ν} {e : Exchange ν} {h : ResponseHeader}
    (hattempt : op.attempt e = some h) : op.interim e = [] := by
  unfold interim
  split
  · cases hattempt
  · rfl

/-- Behind the header there are no interim lines. -/
theorem interim_of_headerSent (op : Operation ν) {e : Exchange ν}
    (hsent : e.response.headerSent = true) : op.interim e = [] := by
  unfold interim
  split
  · rw [hsent, Bool.true_or, if_pos rfl]
  · rfl

/-- Before a header was sent, an operation sends its own or leaves it to the ones after it. -/
theorem Emits.of_not_headerSent {op : Operation ν} {e later : Exchange ν}
    (hemits : op.Emits e later) (hunsent : e.response.headerSent = false) :
    (op.heads e = none ∧ later.response.headerSent = false ∧
      later.outgoing.written = e.outgoing.written ++ op.interim e) ∨
    ∃ h, op.heads e = some h ∧ op.interim e = [] ∧ later.response.headerSent = true ∧
      (later.isStopped = true ∧ later.outgoing.written = e.outgoing.written ∨
        ∃ body, op.Carries e body ∧
          later.outgoing.written = e.outgoing.written ++ h.toBytes ++ body) := by
  cases hemits with
  | announces h hattempt hannounces =>
      have hnone := interim_of_attempt hattempt
      cases hfault : h.fault? with
      | none =>
          refine .inr ⟨h, ?_, hnone, hannounces.sent hunsent hfault⟩
          rw [heads, hattempt, Option.filter_some, hfault, Option.isNone_none, if_pos rfl]
      | some fault =>
          obtain ⟨hlater, hwritten⟩ := hannounces.refused hunsent (by simp [hfault])
          refine .inl ⟨?_, hlater, ?_⟩
          · rw [heads, hattempt, Option.filter_some, hfault, Option.isNone_some, if_neg nofun]
          · rw [hnone, List.append_nil]
            exact hwritten
  | withholds hattempt hsent hwritten =>
      refine .inl ⟨?_, hsent.trans hunsent, hwritten⟩
      rw [heads, hattempt, Option.filter_none]

end Operation

/-- **What operations put on the wire**, one after another. -/
structure Writes {ν : Type} (visits : List (Visit ν)) (e later : Exchange ν) : Prop where
  resent : e.response.headerSent = true → Visit.interims visits = [] ∧
    ∃ bodies, Visit.Carry visits bodies ∧
      later.outgoing.written = e.outgoing.written ++ bodies.flatten
  unsent : e.response.headerSent = false → Visit.sentHeader visits = none →
    later.response.headerSent = false ∧
      later.outgoing.written = e.outgoing.written ++ Visit.interims visits
  sent : e.response.headerSent = false → ∀ h, Visit.sentHeader visits = some h →
    later.response.headerSent = true ∧
      (later.isStopped = true ∧
          later.outgoing.written = e.outgoing.written ++ Visit.interims visits ∨
        ∃ bodies, Visit.Carry visits bodies ∧ later.outgoing.written =
          e.outgoing.written ++ Visit.interims visits ++ h.toBytes ++ bodies.flatten)

namespace Writes

variable {ν : Type}

theorem nil (e : Exchange ν) : Writes [] e e where
  resent _ := ⟨rfl, [], .nil, (List.append_nil _).symm⟩
  unsent hunsent _ := ⟨hunsent, (List.append_nil _).symm⟩
  sent _ _ hsome := nomatch hsome

variable {op : Operation ν} {rest : List (Visit ν)} {e mid later : Exchange ν}

/-- Interim lines stand in the order of the operations. -/
theorem interims_cons : Visit.interims (⟨e, op⟩ :: rest) = op.interim e ++ Visit.interims rest :=
  List.flatMap_cons

/-- Behind a header that was sent, an operation puts bytes of its body. -/
theorem cons_of_headerSent (hemits : op.Emits e mid) (hrest : Writes rest mid later)
    (hsent : e.response.headerSent = true) (hmid : mid.response.headerSent = true) :
    Visit.interims (⟨e, op⟩ :: rest) = [] ∧ ∃ bodies, Visit.Carry (⟨e, op⟩ :: rest) bodies ∧
      later.outgoing.written = e.outgoing.written ++ bodies.flatten := by
  obtain ⟨hnone, bodies, hbodies, hlater⟩ := hrest.resent hmid
  have hfirst := op.interim_of_headerSent hsent
  have hbody : ∃ body, op.Carries e body ∧
      mid.outgoing.written = e.outgoing.written ++ body := by
    cases hemits with
    | announces h _ hannounces => exact (hannounces.resent hsent).2
    | withholds _ _ hwritten =>
        rw [hfirst] at hwritten
        exact ⟨[], op.carries_nil e, hwritten⟩
  obtain ⟨body, hcarries, hwritten⟩ := hbody
  refine ⟨?_, body :: bodies, .cons hcarries hbodies, ?_⟩
  · rw [interims_cons, hfirst, hnone]
    rfl
  · rw [hlater, hwritten, List.flatten_cons, List.append_assoc]

/-- **The step**: an operation in front of others that write as they should. -/
theorem cons (hemits : op.Emits e mid) (hfirst : e.Evolves mid) (hrest : Writes rest mid later)
    (hlater : mid.Evolves later) : Writes (⟨e, op⟩ :: rest) e later := by
  refine ⟨fun hsent => cons_of_headerSent hemits hrest hsent (hfirst.headerSent hsent),
    fun hunsent hnone => ?_, fun hunsent h hsome => ?_⟩
  · rw [Visit.sentHeader, List.findSome?_cons] at hnone
    obtain ⟨hheads, hmid, hwritten⟩ | ⟨h, hheads, _⟩ := hemits.of_not_headerSent hunsent
    · rw [hheads] at hnone
      obtain ⟨hstill, hrestWritten⟩ := hrest.unsent hmid hnone
      refine ⟨hstill, ?_⟩
      rw [hrestWritten, hwritten, interims_cons, List.append_assoc]
    · rw [hheads] at hnone
      cases hnone
  · rw [Visit.sentHeader, List.findSome?_cons] at hsome
    obtain ⟨hheads, hmid, hwritten⟩ | ⟨first, hheads, hinterim, hmid, hwire⟩ :=
      hemits.of_not_headerSent hunsent
    · -- The header comes later, if at all, so the bodies begin with nothing of this operation.
      rw [hheads] at hsome
      obtain ⟨hsent, ⟨hstopped, hcut⟩ | ⟨bodies, hbodies, hall⟩⟩ := hrest.sent hmid h hsome
      · refine ⟨hsent, .inl ⟨hstopped, ?_⟩⟩
        rw [hcut, hwritten, interims_cons, List.append_assoc]
      · refine ⟨hsent, .inr ⟨[] :: bodies, .cons (op.carries_nil e) hbodies, ?_⟩⟩
        rw [hall, hwritten, interims_cons, List.flatten_cons, List.nil_append]
        simp only [List.append_assoc]
    · -- The header is that of this operation; the others only put bodies behind it.
      rw [hheads] at hsome
      cases hsome
      obtain ⟨hnone, bodies, hbodies, hrestWritten⟩ := hrest.resent hmid
      have hinterims : Visit.interims (⟨e, op⟩ :: rest) = [] := by
        rw [interims_cons, hinterim, hnone]
        rfl
      refine ⟨hlater.headerSent hmid, ?_⟩
      rw [hinterims, List.append_nil]
      obtain ⟨hstopped, hcut⟩ | ⟨body, hbody, hall⟩ := hwire
      · exact .inl ⟨hlater.isStopped hstopped, (hlater.silent hstopped).trans hcut⟩
      · refine .inr ⟨body :: bodies, .cons hbody hbodies, ?_⟩
        rw [hrestWritten, hall, List.flatten_cons, List.append_assoc]

end Writes

namespace Action

variable {ν α : Type}

/-- **A run writes what its operations do**, by induction on the program. -/
theorem writes_run (p : Action ν α) {e : Exchange ν} (haccepts : e.outgoing.AcceptsAll) :
    Writes (p.visits e) e (exec p.run e).2 := by
  induction p generalizing e with
  | done a => exact .nil e
  | panic => exact .nil e
  | perform op next ih =>
      have hemits := emits_perform op haccepts
      have hmoves := moves_perform op e
      rw [visits, exec_run_perform]
      generalize exec (Serving.perform op) e = outcome at hemits hmoves
      obtain ⟨_ | reply, mid⟩ := outcome
      · exact .cons hemits hmoves (.nil mid) (Std.Refl.refl mid)
      · exact .cons hemits hmoves (ih reply (hmoves.acceptsAll haccepts))
          ((next reply).evolves_run mid)

/-- **The header goes out once.** Whatever a program does, from an exchange in which no header was
sent to a peer that takes all: interim lines come first, then the header that could be written first
when it was to be sent, and behind it bytes of bodies alone; if the connection was stopped before
the header was written, nothing comes behind the interim lines. Whatever goes on from there, a
header that was sent is not sent again, what finishes the exchange stops the connection, nothing is
written once it is stopped, and the response is over from then on. -/
theorem header_once (p : Action ν α) {e : Exchange ν} (haccepts : e.outgoing.AcceptsAll)
    (hserved : e.IsServed) (hunsent : e.response.headerSent = false) :
    let later := (exec p.run e).2
    let before := e.outgoing.written ++ Visit.interims (p.visits e)
    (match Visit.sentHeader (p.visits e) with
      | none => later.response.headerSent = false ∧ later.outgoing.written = before
      | some h => later.response.headerSent = true ∧
        (later.isStopped = true ∧ later.outgoing.written = before ∨
          ∃ bodies, Visit.Carry (p.visits e) bodies ∧
            later.outgoing.written = before ++ h.toBytes ++ bodies.flatten)) ∧
    (later.response.headerSent = true →
      exec (Serving.perform (.respond .header)) later = (some (.ok ()), later)) ∧
    (∀ (op : Operation ν) reply finished,
      exec (Serving.perform op) later = (some reply, finished) → op.Finishes reply →
      finished.isStopped = true) ∧
    (later.isStopped = true → ∀ (β : Type) (q : Action ν β),
      (exec q.run later).2.outgoing.written = later.outgoing.written) ∧
    (later.response.headerSent = true ∨ later.isStopped = true → later.hasConcluded = true) ∧
    (later.hasConcluded = true → ∀ (β : Type) (q : Action ν β),
      (exec q.run later).2.hasConcluded = true) := by
  have hwrites := p.writes_run haccepts
  have hevolves := p.evolves_run e
  refine ⟨?_, exec_sendHeader_of_headerSent, fun op reply finished h hfinishes => ?_,
    fun hstopped β q => (q.evolves_run _).silent hstopped, fun hover => ?_,
    fun hconcluded β q => (q.evolves_run _).hasConcluded hconcluded⟩
  · cases hheader : Visit.sentHeader (p.visits e) with
    | none => exact hwrites.unsent hunsent hheader
    | some h => exact hwrites.sent hunsent h hheader
  · exact isStopped_of_finishes (hevolves.isServed hserved) h hfinishes
  · rcases hover with hsent | hstopped
    · rw [hasConcluded, hsent, Bool.true_or]
    · exact hasConcluded_of_isStopped hstopped

/-- Answers twice, allows a body before and after, and changes the header in between. -/
def answeringTwice : Action Unit Unit := do
  let _ ← ofOperation (.respond .interim)
  change (.setCode 404)
  let _ ← ofOperation (.respond .header)
  change (.setCode 500)
  let _ ← ofOperation (.respond .interim)
  let _ ← ofOperation (.respond (.text "gone"))
  let _ ← ofOperation (.respond (.bytes []))

/-- An exchange with a peer that sends nothing and takes all. -/
def silentPeer : Exchange Unit :=
  accept { sessions := { mint := fun _ => "" } } {} none {} {} []

/-- One interim line, one header and one body go out, and nothing after them. -/
theorem header_once_answeringTwice :
    silentPeer.outgoing.AcceptsAll ∧ silentPeer.IsServed ∧
      silentPeer.response.headerSent = false ∧
      ∀ q : Action Unit Unit,
        (exec q.run (exec answeringTwice.run silentPeer).2).2.outgoing.written =
          Utf8.ofString "HTTP/1.1 100 Continue\r\n\r\nHTTP/1.1 404 Not Found\r\n\r\ngone" := by
  have hserved : silentPeer.IsServed := isServed_accept _ _ _ _ _ _
  obtain ⟨_, _, _, hsilent, _⟩ :=
    header_once answeringTwice (e := silentPeer) ⟨rfl, rfl⟩ hserved rfl
  refine ⟨⟨rfl, rfl⟩, hserved, rfl, fun q => ?_⟩
  rw [hsilent (by decide +kernel) Unit q]
  decide +kernel

end Action

end HttpServer
