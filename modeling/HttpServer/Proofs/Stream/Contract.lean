import HttpServer.Proofs.Stream.Frames

/-!
# The contract between writer and producer

What a writer asks, how it is answered and what reaches the wire meanwhile make up a `Transcript`.
The stage of the writer tells what the transcript holds so far (`Writer.Tells`), and each call keeps
it that way however it is answered (`Writer.tells_answered`). Once the writer is through, production
has ended once, a failed write was reported unless the connection was stopped, and all that is on
the wire is whole frames and a first part of the one whose write failed. Bytes are consumed only
right after the chunk that holds them was written (`Transcript.Measured`).
-/

namespace HttpServer

/-- A chunk that announces the bytes it holds. -/
def frame (data : Bytes) : Bytes := chunk data.length data

/-- What a writer gives to the wire at once: a chunk that holds something, or the end of the
body. -/
def IsFrame (bytes : Bytes) : Prop := bytes = lastChunk ∨ ∃ data, data ≠ [] ∧ bytes = frame data

/-- A call of a writer, the answer to it, and the bytes that reached the wire meanwhile. -/
structure Answered where
  call : WriterCall
  reply : call.Reply
  put : Bytes

namespace Answered

/-- The bytes agree with the answer: a write that went well put all of its bytes on the wire, one
that failed a first part of them, and no other call put any. -/
def Fits : Answered → Prop
  | ⟨.write bytes, .ok (), put⟩ => put = bytes
  | ⟨.write bytes, .error _, put⟩ => put <+: bytes
  | ⟨_, _, put⟩ => put = []

/-- How production ended, if the call ended it. -/
def ended? (a : Answered) : Option (Option IoError) :=
  match a.call with
  | .endProduction failure => some failure
  | _ => none

/-- The failure that the call reported. -/
def reported? (a : Answered) : Option IoError :=
  match a.call with
  | .reportError failure => some failure
  | _ => none

/-- The bytes that were written and flushed. -/
def flushed? : Answered → Option Bytes
  | ⟨.write bytes, .ok (), _⟩ => some bytes
  | _ => none

/-- The bytes that were to be written, and why they were not, or not all of them. -/
def failed? : Answered → Option (Bytes × ConnectionError)
  | ⟨.write bytes, .error e, _⟩ => some (bytes, e)
  | _ => none

end Answered

/-- The call is no write and ends and reports nothing. -/
def WriterCall.isQuiet : WriterCall → Bool
  | .write _ | .endProduction _ | .reportError _ => false
  | _ => true

/-- What went on between a writer and whoever answers it, oldest first. -/
abbrev Transcript := List Answered

namespace Transcript

def ends (log : Transcript) : List (Option IoError) := log.filterMap Answered.ended?

def reports (log : Transcript) : List IoError := log.filterMap Answered.reported?

def flushed (log : Transcript) : List Bytes := log.filterMap Answered.flushed?

def failures (log : Transcript) : List (Bytes × ConnectionError) := log.filterMap Answered.failed?

def wire (log : Transcript) : Bytes := log.flatMap Answered.put

section Concat

variable (log : Transcript) (a : Answered)

theorem filterMap_concat {β : Type} (f : Answered → Option β) :
    (log ++ [a]).filterMap f = log.filterMap f ++ (f a).toList := by
  rw [List.filterMap_append]
  cases h : f a with
  | none => rw [List.filterMap_cons_none h, List.filterMap_nil, Option.toList_none]
  | some y => rw [List.filterMap_cons_some h, List.filterMap_nil, Option.toList_some]

@[simp]
theorem ends_concat : ends (log ++ [a]) = log.ends ++ a.ended?.toList :=
  filterMap_concat log a _

@[simp]
theorem reports_concat : reports (log ++ [a]) = log.reports ++ a.reported?.toList :=
  filterMap_concat log a _

@[simp]
theorem flushed_concat : flushed (log ++ [a]) = log.flushed ++ a.flushed?.toList :=
  filterMap_concat log a _

@[simp]
theorem failures_concat : failures (log ++ [a]) = log.failures ++ a.failed?.toList :=
  filterMap_concat log a _

@[simp]
theorem wire_concat : wire (log ++ [a]) = log.wire ++ a.put := by
  rw [wire, List.flatMap_append, List.flatMap_singleton, wire]

end Concat

/-- The reports that a failed write leads to: none if the connection was stopped. -/
def due : Option (Bytes × ConnectionError) → List IoError
  | none => []
  | some (_, e) => if e.isAborted then [] else [e.toIoError]

/-- The transcript ends with a chunk of so many bytes: some were available, the buffer was copied,
and what it held of them was framed, written and flushed. -/
def TookChunk (log : Transcript) (amount : Nat) : Prop :=
  ∃ (available : Nat) (buffer put : Bytes),
    [⟨.available, available, []⟩, ⟨.data, buffer, []⟩,
      ⟨.write (frame (buffer.take available)), .ok (), put⟩] <:+ log ∧
    amount = (buffer.take available).length ∧ 0 < amount ∧ amount ≤ available

/-- Nothing is consumed but what the chunk written just before holds. -/
def Measured (log : Transcript) : Prop :=
  ∀ (earlier : Transcript) (amount : Nat) (put : Bytes),
    earlier ++ [⟨.consume amount, (), put⟩] <+: log → earlier.TookChunk amount

/-- Nothing is consumed at first. -/
theorem measured_nil : Measured [] := fun _ _ _ hprefix => by simp at hprefix

/-- A call that consumes nothing needs no chunk in front. -/
theorem Measured.concat {log : Transcript} (h : log.Measured) {a : Answered}
    (hcall : ∀ amount, a.call ≠ .consume amount) : Measured (log ++ [a]) := by
  intro earlier amount put hprefix
  rcases List.prefix_concat_iff.1 hprefix with hall | hbefore
  · cases (List.append_inj' hall rfl).2
    exact absurd rfl (hcall amount)
  · exact h earlier amount put hbefore

/-- **What a transcript amounts to**: how production ended, what was reported, which write failed,
and what is on the wire. -/
structure Tally (log : Transcript) (ends : List (Option IoError)) (reports : List IoError)
    (failure : Option (Bytes × ConnectionError)) (closing : List Bytes) : Prop where
  ends : log.ends = ends
  reports : log.reports = reports
  failures : log.failures = failure.toList
  framed : ∃ pieces : List Bytes, (∀ data ∈ pieces, data ≠ []) ∧
    log.flushed = pieces.map frame ++ closing
  wire : ∃ cut, log.wire = log.flushed.flatten ++ cut ∧
    (failure = none → cut = []) ∧ ∀ write ∈ failure, cut <+: write.1 ∧ IsFrame write.1

namespace Tally

variable {log : Transcript} {ends : List (Option IoError)} {reports : List IoError}
  {failure : Option (Bytes × ConnectionError)} {closing : List Bytes}

theorem nil : Tally [] [] [] none [] :=
  ⟨rfl, rfl, rfl, ⟨[], nofun, rfl⟩, [], rfl, fun _ => rfl, nofun⟩

/-- What writes nothing leaves flushed bytes, failures and wire alone. -/
theorem append_of_put_eq_nil (h : Tally log ends reports failure closing) {a : Answered}
    (hput : a.put = []) (hflushed : a.flushed? = none) (hfailed : a.failed? = none) :
    Tally (log ++ [a]) (ends ++ a.ended?.toList) (reports ++ a.reported?.toList) failure
      closing := by
  have hsame : Transcript.flushed (log ++ [a]) = log.flushed := by simp [hflushed]
  refine ⟨?_, ?_, ?_, ?_, ?_⟩
  · rw [ends_concat, h.ends]
  · rw [reports_concat, h.reports]
  · simp [hfailed, h.failures]
  · rw [hsame]
    exact h.framed
  · rw [hsame, wire_concat, hput, List.append_nil]
    exact h.wire

/-- A quiet call changes nothing. -/
theorem quiet (h : Tally log ends reports failure closing) {call : WriterCall} {reply : call.Reply}
    {put : Bytes} (hfits : (Answered.mk call reply put).Fits) (hquiet : call.isQuiet = true) :
    Tally (log ++ [⟨call, reply, put⟩]) ends reports failure closing := by
  cases call with
  | write _ | endProduction _ | reportError _ => cases hquiet
  | _ =>
    have happended := h.append_of_put_eq_nil (a := ⟨_, reply, put⟩) hfits rfl rfl
    simpa [Answered.ended?, Answered.reported?] using happended

/-- The end of production is noted where there was none. -/
theorem ended (h : Tally log [] reports failure closing) (outcome : Option IoError) {put : Bytes}
    (hput : put = []) :
    Tally (log ++ [⟨.endProduction outcome, (), put⟩]) [outcome] reports failure closing := by
  have happended := h.append_of_put_eq_nil (a := ⟨.endProduction outcome, (), put⟩) hput rfl rfl
  simpa [Answered.ended?, Answered.reported?] using happended

/-- A failure is noted where none was. -/
theorem reported (h : Tally log ends [] failure closing) (e : IoError) {put : Bytes}
    (hput : put = []) :
    Tally (log ++ [⟨.reportError e, (), put⟩]) ends [e] failure closing := by
  have happended := h.append_of_put_eq_nil (a := ⟨.reportError e, (), put⟩) hput rfl rfl
  simpa [Answered.ended?, Answered.reported?] using happended

/-- A frame that went out whole stands behind the ones before it. -/
theorem wrote (h : Tally log [] [] none []) {bytes put : Bytes} (hput : put = bytes)
    {pieces closing : List Bytes} (hpieces : ∀ data ∈ pieces, data ≠ [])
    (hbytes : [bytes] = pieces.map frame ++ closing) :
    Tally (log ++ [⟨.write bytes, .ok (), put⟩]) [] [] none closing := by
  obtain ⟨before, hbefore, hflushed⟩ := h.framed
  obtain ⟨cut, hwire, hnone, _⟩ := h.wire
  rw [hnone rfl, List.append_nil] at hwire
  rw [List.append_nil] at hflushed
  have hall : Transcript.flushed (log ++ [⟨.write bytes, .ok (), put⟩]) = log.flushed ++ [bytes] :=
    flushed_concat log _
  refine ⟨?_, ?_, ?_, ⟨before ++ pieces, ?_, ?_⟩, [], ?_, fun _ => rfl, nofun⟩
  · simp [h.ends, Answered.ended?]
  · simp [h.reports, Answered.reported?]
  · simp [h.failures, Answered.failed?]
  · exact List.forall_mem_append.2 ⟨hbefore, hpieces⟩
  · rw [hall, hflushed, hbytes, List.map_append, List.append_assoc]
  · rw [hall, wire_concat, hwire, hput, List.flatten_append, List.flatten_singleton,
      List.append_nil]

/-- Of a frame that did not go out whole, a first part may be on the wire. -/
theorem cut (h : Tally log [] [] none []) {bytes put : Bytes} (hput : put <+: bytes)
    (hframe : IsFrame bytes) (e : ConnectionError) :
    Tally (log ++ [⟨.write bytes, .error e, put⟩]) [] [] (some (bytes, e)) [] := by
  obtain ⟨cut, hwire, hnone, _⟩ := h.wire
  rw [hnone rfl, List.append_nil] at hwire
  have hsame : Transcript.flushed (log ++ [⟨.write bytes, .error e, put⟩]) = log.flushed := by
    simp [Answered.flushed?]
  refine ⟨?_, ?_, ?_, ?_, put, ?_, nofun, ?_⟩
  · simp [h.ends, Answered.ended?]
  · simp [h.reports, Answered.reported?]
  · simp [h.failures, Answered.failed?]
  · rw [hsame]
    exact h.framed
  · rw [hsame, wire_concat, hwire]
  · rintro _ ⟨⟩
    exact ⟨hput, hframe⟩

end Tally

/-- A write that failed and the error with which writing ends: they agree, and without such a write
it is that the connection was stopped. -/
def Causes (failure : Option (Bytes × ConnectionError)) (e : ConnectionError) : Prop :=
  failure.map Prod.snd = some e ∨ failure = none ∧ e = .aborted

end Transcript

namespace Writer

open Transcript

/-- **What the stage tells** of the transcript so far. -/
def Tells (w : Writer) (log : Transcript) : Prop :=
  match w.stage with
  | .checkingLife | .lookingForBytes | .checkingCompletion | .waiting =>
    w.encoder.finished = false ∧ Tally log [] [] none []
  | .copying available =>
    w.encoder.finished = false ∧ Tally log [] [] none [] ∧ [⟨.available, available, []⟩] <:+ log
  | .writing taken framed =>
    w.encoder.finished = false ∧ Tally log [] [] none [] ∧ ∃ (available : Nat) (buffer : Bytes),
      [⟨.available, available, []⟩, ⟨.data, buffer, []⟩] <:+ log ∧
      taken = (buffer.take available).length ∧ 0 < taken ∧ framed = frame (buffer.take available)
  | .consuming amount =>
    w.encoder.finished = false ∧ Tally log [] [] none [] ∧ log.TookChunk amount
  | .writingLast framed => framed = lastChunk ∧ Tally log [] [] none []
  | .endingWell => Tally log [] [] none [lastChunk]
  | .reporting e => e.isAborted = false ∧ ∃ bytes, Tally log [] [] (some (bytes, e)) []
  | .endingBadly failure e => failure = e.toIoError ∧
    ∃ write, Causes write e ∧ Tally log [] (due write) write []
  | .finished => Tally log [none] [] none [lastChunk]
  | .failed e => ∃ write, Causes write e ∧ Tally log [some e.toIoError] (due write) write []

theorem tells_nil : Tells {} [] := ⟨rfl, .nil⟩

variable {w : Writer} {log : Transcript}

/-- A chunk that is taken has been measured: as much is asked for as was available. -/
theorem tells_takeChunk {available : Nat} {buffer : Bytes} (hopen : w.encoder.finished = false)
    (htally : Tally (log ++ [⟨.data, buffer, []⟩]) [] [] none [])
    (hlast : [⟨.available, available, []⟩] <:+ log) :
    (w.takeChunk available buffer).Tells (log ++ [⟨.data, buffer, []⟩]) := by
  unfold takeChunk
  dsimp only
  split
  · exact ⟨hopen, htally⟩
  · rename_i hdata
    have hsize : BodyPart.size [buffer.take available] = (buffer.take available).length := by
      rw [BodyPart.size, List.flatten_singleton]
    have hpos : 0 < (buffer.take available).length := List.length_pos_iff.2 hdata
    have hcurrent : BodyPart.current [buffer.take available] = buffer.take available := by
      rw [BodyPart.current, List.find?_cons_of_pos (by simpa using hdata)]
      rfl
    rw [ChunkEncoder.encode, if_neg (by simp [hopen])]
    dsimp only
    rw [if_neg (by omega), hsize, hcurrent]
    refine ⟨hopen, htally, available, buffer, ?_, rfl, hpos, rfl⟩
    obtain ⟨before, rfl⟩ := hlast
    exact ⟨before, by rw [List.append_assoc, List.singleton_append]⟩

/-- The end of the body is written when nothing else is due. -/
theorem tells_close (hopen : w.encoder.finished = false) (htally : Tally log [] [] none []) :
    w.close.Tells log := by
  rw [close, ChunkEncoder.encode, if_neg (by simp [hopen])]
  exact ⟨rfl, htally⟩

/-- A failed write is reported unless the connection was stopped. -/
theorem tells_writeFailed {bytes : Bytes} {e : ConnectionError}
    (htally : Tally log [] [] (some (bytes, e)) []) : (w.writeFailed e).Tells log := by
  unfold writeFailed
  split
  · rename_i haborted
    refine ⟨rfl, some (bytes, e), .inl rfl, ?_⟩
    rw [due, if_pos haborted]
    exact htally
  · rename_i hrunning
    exact ⟨by simpa using hrunning, bytes, htally⟩

/-- Writing a chunk went well, or ends the body badly. -/
theorem tells_writing {taken : Nat} {framed put : Bytes} {encoder : ChunkEncoder}
    (h : Tells ⟨.writing taken framed, encoder⟩ log) {reply : Except ConnectionError Unit}
    (hfits : (Answered.mk (.write framed) reply put).Fits) :
    (resume ⟨.writing taken framed, encoder⟩ (.write framed) reply).Tells
      (log ++ [⟨.write framed, reply, put⟩]) := by
  obtain ⟨hopen, htally, available, buffer, hlast, htaken, hpos, hframed⟩ := h
  have hne : buffer.take available ≠ [] := List.length_pos_iff.1 (htaken ▸ hpos)
  cases reply with
  | ok _ =>
      have hbytes : [framed] = [buffer.take available].map frame ++ [] := by rw [hframed]; rfl
      refine ⟨hopen, htally.wrote hfits (List.forall_mem_singleton.2 hne) hbytes, ?_⟩
      obtain ⟨before, rfl⟩ := hlast
      refine ⟨available, buffer, put, ⟨before, ?_⟩, htaken, hpos, ?_⟩
      · rw [hframed, List.append_assoc]
        rfl
      · rw [htaken, List.length_take]
        exact Nat.min_le_left _ _
  | error e => exact tells_writeFailed (htally.cut hfits (.inr ⟨_, hne, hframed⟩) e)

/-- Writing the end of the body went well, or ends it badly. -/
theorem tells_writingLast {framed put : Bytes} {encoder : ChunkEncoder}
    (h : Tells ⟨.writingLast framed, encoder⟩ log) {reply : Except ConnectionError Unit}
    (hfits : (Answered.mk (.write framed) reply put).Fits) :
    (resume ⟨.writingLast framed, encoder⟩ (.write framed) reply).Tells
      (log ++ [⟨.write framed, reply, put⟩]) := by
  obtain ⟨hframed, htally⟩ := h
  cases reply with
  | ok _ =>
      have hbytes : [framed] = ([] : List Bytes).map frame ++ [lastChunk] := by rw [hframed]; rfl
      exact htally.wrote hfits (fun _ hno => absurd hno List.not_mem_nil) hbytes
  | error e => exact tells_writeFailed (htally.cut hfits (.inl hframed) e)

/-- **Each call keeps the contract**: however it is answered, the next stage tells of the transcript
with the answer. -/
theorem tells_answered (h : w.Tells log) {a : Answered} (hcall : w.call = some a.call)
    (hfits : a.Fits) : (w.resume a.call a.reply).Tells (log ++ [a]) := by
  obtain ⟨stage, encoder⟩ := w
  obtain ⟨call, reply, put⟩ := a
  cases stage <;> simp only [Writer.call, Option.some.injEq, reduceCtorEq] at hcall <;> cases hcall
  case checkingLife =>
    obtain ⟨hopen, htally⟩ := h
    have hlater := htally.quiet hfits rfl
    change Tells (sawLife _ reply) _
    unfold sawLife
    split
    · exact ⟨hopen, hlater⟩
    · exact ⟨rfl, none, .inr ⟨rfl, rfl⟩, hlater⟩
  case lookingForBytes =>
    obtain ⟨hopen, htally⟩ := h
    have hlater := htally.quiet hfits rfl
    have hput : put = [] := hfits
    change Tells (sawBytes _ reply) _
    unfold sawBytes
    split
    · exact ⟨hopen, hlater⟩
    · exact ⟨hopen, hlater, log, by rw [hput]⟩
  case copying available =>
    obtain ⟨hopen, htally, hlast⟩ := h
    have hput : put = [] := hfits
    subst hput
    exact tells_takeChunk hopen (htally.quiet hfits rfl) hlast
  case writing taken framed => exact tells_writing h hfits
  case consuming amount =>
    obtain ⟨hopen, htally, _⟩ := h
    exact ⟨hopen, htally.quiet hfits rfl⟩
  case checkingCompletion =>
    obtain ⟨hopen, htally⟩ := h
    have hlater := htally.quiet hfits rfl
    change Tells (sawCompletion _ reply) _
    unfold sawCompletion
    split
    · exact tells_close hopen hlater
    · exact ⟨hopen, hlater⟩
  case writingLast framed => exact tells_writingLast h hfits
  case endingWell => exact Tally.ended h none hfits
  case reporting e =>
    obtain ⟨hrunning, bytes, htally⟩ := h
    refine ⟨rfl, some (bytes, e), .inl rfl, ?_⟩
    rw [due, if_neg (by simp [hrunning])]
    exact htally.reported _ hfits
  case endingBadly failure e =>
    obtain ⟨hfailure, write, hcauses, htally⟩ := h
    refine ⟨write, hcauses, ?_⟩
    rw [hfailure]
    exact htally.ended _ hfits
  case waiting =>
    obtain ⟨hopen, htally⟩ := h
    exact ⟨hopen, htally.quiet hfits rfl⟩

/-- Bytes are consumed in one stage alone, right after their chunk was written. -/
theorem stage_of_call_consume {amount : Nat} (h : w.call = some (.consume amount)) :
    w.stage = .consuming amount := by
  obtain ⟨stage, encoder⟩ := w
  cases stage <;> cases h
  rfl

/-- A writer consumes only what it has just written. -/
theorem measured_answered (hmeasured : log.Measured) (h : w.Tells log) {a : Answered}
    (hcall : w.call = some a.call) : Measured (log ++ [a]) := by
  intro earlier amount put hprefix
  rcases List.prefix_concat_iff.1 hprefix with hall | hbefore
  · obtain ⟨rfl, hlast⟩ := List.append_inj' hall rfl
    cases hlast
    rw [Tells, stage_of_call_consume hcall] at h
    exact h.2.2
  · exact hmeasured earlier amount put hbefore

end Writer

end HttpServer
