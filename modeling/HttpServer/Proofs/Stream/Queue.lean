import HttpServer.Stream.Producer
import Mathlib.Data.List.Induction
import Mathlib.Data.List.TakeWhile

/-!
# A producer is a queue

A producer comes about by calls (`ProducerCall`), and what it holds and which callbacks run can be
read off the calls alone: bytes come out in the order in which they were pushed, none is lost, and
none is added once the stream has ended (`Producer.taken_append_buffer`); each call runs the
callbacks that it should (`Producer.emitted_eq`); and a finish callback runs at most once
(`Producer.endedTags_sublist`). `Producer.lossless_queue` puts this together.

The number of bytes is kept beside the buffer, where it can be read without the lock (`Metered`). It
is stored anew by the calls that change the buffer, and so it stays right. Callbacks run after
everything else that a call does, so one that uses the producer again makes just another call.
-/

namespace HttpServer

variable {τ : Type}

/-- One use of a producer. -/
inductive ProducerCall (τ : Type)
  | push (data : Bytes)
  | flush
  | finish
  /-- The writer has taken so many bytes, or all if there are not so many. -/
  | consume (amount : Nat)
  /-- Someone looks at the buffer while it is locked. -/
  | look
  | endProduction (failure : Option IoError)
  | reportError (e : IoError)
  /-- The produce callback is registered, in place of the one before. -/
  | onProduce (tag : τ)
  | onFinish (tag : τ)
  | onError (tag : τ)
  deriving DecidableEq

namespace ProducerCall

/-- The call ends the stream of bytes. -/
def ends : ProducerCall τ → Bool
  | .finish => true
  | .endProduction _ => true
  | _ => false

def endsProduction : ProducerCall τ → Bool
  | .endProduction _ => true
  | _ => false

/-- The bytes that a call wants to add. -/
def pushed : ProducerCall τ → Bytes
  | .push data => data
  | _ => []

/-- The bytes that a call takes. -/
def takes (call : ProducerCall τ) (p : Producer τ) : Bytes :=
  match call with
  | .consume amount => p.buffer.take amount
  | _ => []

/-- The call changes the buffer, and so the number of bytes is stored anew. -/
def stores (call : ProducerCall τ) (p : Producer τ) : Bool :=
  match call with
  | .push data => data ≠ [] && !p.complete
  | .consume _ => true
  | _ => false

def produceTag? : ProducerCall τ → Option τ
  | .onProduce tag => some tag
  | _ => none

def errorTag? : ProducerCall τ → Option τ
  | .onError tag => some tag
  | _ => none

def finishTag? : ProducerCall τ → Option τ
  | .onFinish tag => some tag
  | _ => none

/-- What becomes of the finish callback: another one takes its place, or it is used up. -/
def finishCallback? : ProducerCall τ → Option (Option τ)
  | .onFinish tag => some (some tag)
  | .endProduction _ => some none
  | _ => none

end ProducerCall

/-- The finish callback that has run. -/
def Signal.endedTag? : Signal τ → Option τ
  | .ended tag _ => some tag
  | _ => none

/-- Makes a call: the callbacks that run. -/
def Producer.perform (p : Producer τ) : ProducerCall τ → Producer τ × List (Signal τ)
  | .push data => p.push data
  | .flush => p.flush
  | .finish => p.finish
  | .consume amount => p.consume amount
  | .look => (p, [])
  | .endProduction failure => p.endProduction failure
  | .reportError e => (p, p.reportError e)
  | .onProduce tag => ({ p with onProduce := some tag }, [])
  | .onFinish tag => ({ p with onFinish := some tag }, [])
  | .onError tag => ({ p with onError := some tag }, [])

/-- A producer with the number of its bytes, which is kept beside the buffer. -/
structure Metered (τ : Type) where
  producer : Producer τ
  count : Nat := 0

namespace Metered

/-- Makes a call. The number of bytes is stored anew only if the call changes the buffer. -/
def perform (m : Metered τ) (call : ProducerCall τ) : Metered τ where
  producer := (m.producer.perform call).1
  count := if call.stores m.producer then (m.producer.perform call).1.buffer.length else m.count

end Metered

namespace Producer

/-- What a history of calls makes of a new producer. -/
def after (encoding : String) (calls : List (ProducerCall τ)) : Metered τ :=
  calls.foldl Metered.perform { producer := { encoding } }

/-- The bytes that calls take which are made one after another. -/
def taken (m : Metered τ) : List (ProducerCall τ) → Bytes
  | [] => []
  | call :: calls => call.takes m.producer ++ taken (m.perform call) calls

/-- The callbacks that run in calls which are made one after another. -/
def emitted (m : Metered τ) : List (ProducerCall τ) → List (Signal τ)
  | [] => []
  | call :: calls => (m.producer.perform call).2 ++ emitted (m.perform call) calls

/-- The last call is performed on the producer that the others have led to. -/
theorem after_concat (encoding : String) (calls : List (ProducerCall τ)) (call : ProducerCall τ) :
    after encoding (calls ++ [call]) = (after encoding calls).perform call :=
  List.foldl_append

/-- The last call takes what stands in front by then. -/
theorem taken_concat (m : Metered τ) (calls : List (ProducerCall τ)) (call : ProducerCall τ) :
    taken m (calls ++ [call]) =
      taken m calls ++ call.takes (calls.foldl Metered.perform m).producer := by
  induction calls generalizing m with
  | nil => exact List.append_nil _
  | cons first calls ih =>
      rw [List.cons_append, taken, taken, ih, List.append_assoc]
      rfl

/-- The last call runs the callbacks that are registered by then. -/
theorem emitted_concat (m : Metered τ) (calls : List (ProducerCall τ)) (call : ProducerCall τ) :
    emitted m (calls ++ [call]) =
      emitted m calls ++ ((calls.foldl Metered.perform m).producer.perform call).2 := by
  induction calls generalizing m with
  | nil => exact List.append_nil _
  | cons first calls ih =>
      rw [List.cons_append, emitted, emitted, ih, List.append_assoc]
      rfl

/-! ## What a history tells -/

/-- The stream of bytes has ended. -/
def HasEnded (calls : List (ProducerCall τ)) : Prop := ∃ call ∈ calls, call.ends = true

instance (calls : List (ProducerCall τ)) : Decidable (HasEnded calls) := by
  unfold HasEnded
  infer_instance

/-- The bytes that were pushed before the stream ended. -/
def accepted (calls : List (ProducerCall τ)) : Bytes :=
  (calls.takeWhile fun call => !call.ends).flatMap ProducerCall.pushed

/-- The callback that was registered last, of those that are chosen. -/
def registered (chosen : ProducerCall τ → Option τ) (calls : List (ProducerCall τ)) : Option τ :=
  (calls.filterMap chosen).getLast?

/-- The finish callback that was registered last, unless production has ended since. -/
def pendingFinish (calls : List (ProducerCall τ)) : Option τ :=
  (calls.filterMap ProducerCall.finishCallback?).getLast?.join

/-- **The callbacks that a call should run**, after a history in which so many bytes were taken. The
writer is woken by each push of bytes before the end, by each flush and finish, and when it leaves
bytes behind. -/
def due (calls : List (ProducerCall τ)) (count : Nat) : ProducerCall τ → List (Signal τ)
  | .push data => if data ≠ [] ∧ ¬ HasEnded calls then woken else []
  | .flush => woken
  | .finish => woken
  | .consume amount => if count + amount < (accepted calls).length then woken else []
  | .endProduction failure => (pendingFinish calls).toList.map (.ended · failure)
  | .reportError e => (registered ProducerCall.errorTag? calls).toList.map (.failed · e)
  | _ => []
where
  woken : List (Signal τ) := (registered ProducerCall.produceTag? calls).toList.map .produced

/-- A stream has ended if it had before, or if the last call ends it. -/
theorem hasEnded_concat (calls : List (ProducerCall τ)) (call : ProducerCall τ) :
    HasEnded (calls ++ [call]) ↔ HasEnded calls ∨ call.ends = true := by
  simp [HasEnded, or_and_right, exists_or]

/-- Bytes are accepted until the stream has ended. -/
theorem accepted_concat (calls : List (ProducerCall τ)) (call : ProducerCall τ) :
    accepted (calls ++ [call]) =
      accepted calls ++ if HasEnded calls then [] else call.pushed := by
  unfold accepted
  by_cases hended : HasEnded calls
  · rw [if_pos hended, List.append_nil, List.takeWhile_append, if_neg]
    intro hall
    obtain ⟨last, hlast, hends⟩ := hended
    have hsame := (List.takeWhile_prefix fun call : ProducerCall τ => !call.ends).eq_of_length hall
    rw [← hsame] at hlast
    have hopen := List.all_eq_true.1 List.all_takeWhile last hlast
    rw [hends] at hopen
    cases hopen
  · have hall : ∀ call ∈ calls, (!call.ends) = true := by
      intro call hcall
      cases hends : call.ends with
      | true => exact absurd ⟨call, hcall, hends⟩ hended
      | false => rfl
    have hself : calls.takeWhile (fun call => !call.ends) = calls :=
      List.takeWhile_eq_self_iff.2 hall
    rw [if_neg hended, List.takeWhile_append_of_pos hall, hself, List.flatMap_append]
    cases call <;> simp [ProducerCall.ends, ProducerCall.pushed]

/-- A callback that is registered takes the place of the earlier one. -/
theorem registered_concat (chosen : ProducerCall τ → Option τ) (calls : List (ProducerCall τ))
    (call : ProducerCall τ) :
    registered chosen (calls ++ [call]) = (chosen call).or (registered chosen calls) := by
  rw [registered, registered, List.filterMap_append, List.getLast?_append]
  cases h : chosen call <;> simp [h]

/-- A finish callback waits until it is run or another takes its place. -/
theorem pendingFinish_concat (calls : List (ProducerCall τ)) (call : ProducerCall τ) :
    pendingFinish (calls ++ [call]) = call.finishCallback?.getD (pendingFinish calls) := by
  rw [pendingFinish, pendingFinish, List.filterMap_append, List.getLast?_append]
  cases h : call.finishCallback? <;> simp [h]

/-! ## What a call does -/

/-- **What a call takes and leaves is what there was and what it adds.** -/
theorem buffer_perform (p : Producer τ) (call : ProducerCall τ) :
    call.takes p ++ (p.perform call).1.buffer =
      p.buffer ++ if p.complete then [] else call.pushed := by
  cases call with
  | push data =>
      rw [perform, push]
      by_cases hdrops : data = [] ∨ p.complete
      · rw [if_pos hdrops]
        rcases hdrops with rfl | hcomplete
        · simp [ProducerCall.takes, ProducerCall.pushed]
        · simp [ProducerCall.takes, hcomplete]
      · rw [if_neg hdrops]
        rw [not_or] at hdrops
        simp [ProducerCall.takes, ProducerCall.pushed, hdrops.2]
  | consume amount =>
      simp [ProducerCall.takes, ProducerCall.pushed, perform, consume]
  | flush | finish | look | endProduction _ | reportError _ | onProduce _ | onFinish _
  | onError _ =>
      simp [ProducerCall.takes, ProducerCall.pushed, perform, flush, finish, endProduction]

/-- A producer is complete once a call has ended it. -/
theorem complete_perform (p : Producer τ) (call : ProducerCall τ) :
    (p.perform call).1.complete = (p.complete || call.ends) := by
  cases call with
  | push data =>
      rw [perform, push]
      split <;> simp [ProducerCall.ends]
  | finish | endProduction _ => simp [perform, finish, endProduction, ProducerCall.ends]
  | flush | consume _ | look | reportError _ | onProduce _ | onFinish _ | onError _ =>
      simp [perform, flush, consume, ProducerCall.ends]

/-- The callbacks of a producer after a call: those that the call has registered, and what is left
of the others. -/
theorem callbacks_perform (p : Producer τ) (call : ProducerCall τ) :
    (p.perform call).1.onProduce = call.produceTag?.or p.onProduce ∧
      (p.perform call).1.onError = call.errorTag?.or p.onError ∧
      (p.perform call).1.onFinish = call.finishCallback?.getD p.onFinish := by
  cases call with
  | push data =>
      rw [perform, push]
      split <;> exact ⟨rfl, rfl, rfl⟩
  | flush | finish | consume _ | look | endProduction _ | reportError _ | onProduce _ | onFinish _
  | onError _ => exact ⟨rfl, rfl, rfl⟩

/-- The buffer keeps its length where the number of bytes is not stored. -/
theorem length_perform (p : Producer τ) {call : ProducerCall τ} (h : call.stores p = false) :
    (p.perform call).1.buffer.length = p.buffer.length := by
  cases call with
  | push data =>
      have hdrops : data = [] ∨ p.complete = true := by
        rw [ProducerCall.stores] at h
        grind
      rw [perform, push, if_pos hdrops]
  | consume _ => cases h
  | flush | finish | look | endProduction _ | reportError _ | onProduce _ | onFinish _
  | onError _ =>
      rfl

/-! ## The producer and its history agree -/

/-- **What the history tells of the producer** that it leaves behind. -/
structure Tracks (encoding : String) (calls : List (ProducerCall τ)) : Prop where
  fifo : taken { producer := { encoding } } calls ++ (after encoding calls).producer.buffer =
    accepted calls
  count : (after encoding calls).count = (after encoding calls).producer.buffer.length
  complete_iff : (after encoding calls).producer.complete = true ↔ HasEnded calls
  onProduce : (after encoding calls).producer.onProduce = registered ProducerCall.produceTag? calls
  onError : (after encoding calls).producer.onError = registered ProducerCall.errorTag? calls
  onFinish : (after encoding calls).producer.onFinish = pendingFinish calls

/-- **One more call is kept track of**; the cases are those of the calls. -/
theorem tracks_concat {encoding : String} {calls : List (ProducerCall τ)}
    (h : Tracks encoding calls) (call : ProducerCall τ) : Tracks encoding (calls ++ [call]) := by
  obtain ⟨hproduce, herror, hfinish⟩ := (after encoding calls).producer.callbacks_perform call
  constructor
  case fifo =>
    have hstep := (after encoding calls).producer.buffer_perform call
    simp only [h.complete_iff] at hstep
    rw [taken_concat, after_concat, accepted_concat, List.append_assoc, ← h.fifo, List.append_assoc,
      ← hstep]
    rfl
  case count =>
    rw [after_concat, Metered.perform]
    cases hstores : call.stores (after encoding calls).producer with
    | true => rfl
    | false =>
        rw [if_neg Bool.false_ne_true, h.count]
        exact (length_perform _ hstores).symm
  case complete_iff =>
    rw [after_concat, hasEnded_concat, ← h.complete_iff, ← Bool.or_eq_true]
    exact iff_of_eq (congrArg (· = true) (complete_perform _ call))
  case onProduce =>
    rw [after_concat, registered_concat, ← h.onProduce]
    exact hproduce
  case onError =>
    rw [after_concat, registered_concat, ← h.onError]
    exact herror
  case onFinish =>
    rw [after_concat, pendingFinish_concat, ← h.onFinish]
    exact hfinish

/-- **A producer keeps track of its history**, by induction on the calls from the end. -/
theorem tracks_after (encoding : String) (calls : List (ProducerCall τ)) :
    Tracks encoding calls := by
  induction calls using List.reverseRecOn with
  | nil => exact ⟨rfl, rfl, iff_of_false Bool.false_ne_true (by simp [HasEnded]), rfl, rfl, rfl⟩
  | append_singleton calls call ih => exact tracks_concat ih call

/-- No bytes are lost, and they come out in order. -/
theorem taken_append_buffer (encoding : String) (calls : List (ProducerCall τ)) :
    taken { producer := { encoding } } calls ++ (after encoding calls).producer.buffer =
      accepted calls :=
  (tracks_after encoding calls).fifo

/-- A call runs the callbacks that it should. -/
theorem emitted_eq (encoding : String) (calls : List (ProducerCall τ)) (call : ProducerCall τ) :
    ((after encoding calls).producer.perform call).2 =
      due calls (taken { producer := { encoding } } calls).length call := by
  have htracks := tracks_after encoding calls
  have hwoken : (after encoding calls).producer.signals = due.woken calls := by
    rw [signals, htracks.onProduce, due.woken]
  cases call with
  | push data =>
      rw [perform, push, due, hwoken]
      by_cases hdrops : data = [] ∨ (after encoding calls).producer.complete = true
      · rw [if_pos hdrops, if_neg]
        rw [htracks.complete_iff] at hdrops
        tauto
      · rw [if_neg hdrops, if_pos]
        rw [htracks.complete_iff] at hdrops
        tauto
  | consume amount =>
      have hleft : (after encoding calls).producer.buffer.drop amount = [] ↔
          ¬ (taken { producer := { encoding } } calls).length + amount <
            (accepted calls).length := by
        rw [← htracks.fifo, List.length_append, List.drop_eq_nil_iff]
        omega
      rw [perform, consume, due, hwoken]
      dsimp only
      by_cases hnone : (after encoding calls).producer.buffer.drop amount = []
      · rw [if_pos hnone, if_neg (hleft.1 hnone)]
      · rw [if_neg hnone, if_pos (not_not.1 (mt hleft.2 hnone))]
  | flush | finish => exact hwoken
  | endProduction failure => rw [perform, endProduction, due, htracks.onFinish]
  | reportError e => rw [perform, reportError, due, htracks.onError]
  | look | onProduce _ | onFinish _ | onError _ => rfl

/-- Only the end of production runs a finish callback. -/
theorem endedTags_due (calls : List (ProducerCall τ)) (count : Nat) (call : ProducerCall τ) :
    (due calls count call).filterMap Signal.endedTag? =
      if call.endsProduction then (pendingFinish calls).toList else [] := by
  have hwoken : (due.woken calls).filterMap Signal.endedTag? = [] := by
    rw [due.woken]
    cases registered ProducerCall.produceTag? calls <;> rfl
  cases call with
  | push _ | consume _ =>
      simp only [due, ProducerCall.endsProduction, Bool.false_eq_true, if_false]
      split
      · exact hwoken
      · rfl
  | flush | finish => exact hwoken
  | endProduction failure =>
      simp only [due, ProducerCall.endsProduction, if_true]
      cases pendingFinish calls <;> rfl
  | reportError e =>
      simp only [due, ProducerCall.endsProduction, Bool.false_eq_true, if_false]
      cases registered ProducerCall.errorTag? calls <;> rfl
  | look | onProduce _ | onFinish _ | onError _ => rfl

/-- **The finish callbacks that have run**, in the order in which they were registered, and the one
that may still run: no registration runs twice. -/
theorem endedTags_sublist (encoding : String) (calls : List (ProducerCall τ)) :
    ((emitted { producer := { encoding } } calls).filterMap Signal.endedTag? ++
      (pendingFinish calls).toList).Sublist (calls.filterMap ProducerCall.finishTag?) := by
  induction calls using List.reverseRecOn with
  | nil => exact List.Sublist.refl []
  | append_singleton calls call ih =>
      have hrun :
        (emitted { producer := { encoding } } (calls ++ [call])).filterMap Signal.endedTag? =
          (emitted { producer := { encoding } } calls).filterMap Signal.endedTag? ++
            if call.endsProduction then (pendingFinish calls).toList else [] := by
        rw [emitted_concat, List.filterMap_append, ← endedTags_due, ← emitted_eq encoding]
        rfl
      rw [hrun, List.filterMap_append, pendingFinish_concat]
      cases call with
      | onFinish tag =>
          -- The callback that was pending, if any, is replaced and never runs.
          have hrest := (List.sublist_append_left _ (pendingFinish calls).toList).trans ih
          simpa [List.filterMap_cons, ProducerCall.endsProduction, ProducerCall.finishCallback?,
            ProducerCall.finishTag?] using hrest
      | endProduction failure =>
          -- The pending callback runs, and none is pending any more.
          simpa [List.filterMap_cons, ProducerCall.endsProduction, ProducerCall.finishCallback?,
            ProducerCall.finishTag?] using ih
      | push _ | flush | finish | consume _ | look | reportError _ | onProduce _ | onError _ =>
          simpa [List.filterMap_cons, ProducerCall.endsProduction, ProducerCall.finishCallback?,
            ProducerCall.finishTag?] using ih

/-! ## The laws -/

/-- **What holds after any history of calls.** -/
structure Lawful (encoding : String) (calls : List (ProducerCall τ)) : Prop where
  /-- What was taken, followed by the buffer, is what was pushed before the end. -/
  fifo : taken { producer := { encoding } } calls ++ (after encoding calls).producer.buffer =
    accepted calls
  /-- The number kept beside the buffer is its length. -/
  available_eq : (after encoding calls).count = (after encoding calls).producer.buffer.length ∧
    (after encoding calls).producer.available = (after encoding calls).count
  complete_iff : (after encoding calls).producer.complete = true ↔ HasEnded calls
  /-- The end is not taken back. -/
  complete_lasting : ∀ more, (after encoding calls).producer.complete = true →
    (after encoding (calls ++ more)).producer.complete = true
  /-- The next call runs the callbacks that it should, and no other. -/
  emitted_eq : ∀ call, ((after encoding calls).producer.perform call).2 =
    due calls (taken { producer := { encoding } } calls).length call
  /-- The finish callbacks that have run were registered in this order, each for itself. -/
  finished_once : ((emitted { producer := { encoding } } calls).filterMap Signal.endedTag?).Sublist
    (calls.filterMap ProducerCall.finishTag?)

/-- **A producer is a lossless queue.** Whatever is pushed, taken, looked at, finished and
registered, in any order: the bytes taken so far and the bytes in the buffer are together those that
were pushed before the stream ended, in their order; the number kept of the bytes in the buffer is
right; the producer is complete exactly once the stream has ended, for good. The produce callback
that is registered runs once for each push of bytes before the end, for each flush and finish, and
when bytes are left behind, and for nothing else. A finish callback runs at the first end of
production after its registration unless it was replaced before, and never again. -/
theorem lossless_queue (encoding : String) (calls : List (ProducerCall τ)) :
    Lawful encoding calls := by
  have htracks := tracks_after encoding calls
  constructor
  case fifo => exact taken_append_buffer encoding calls
  case available_eq => exact ⟨htracks.count, htracks.count.symm⟩
  case complete_iff => exact htracks.complete_iff
  case complete_lasting =>
    intro more hcomplete
    obtain ⟨call, hcall, hends⟩ := htracks.complete_iff.1 hcomplete
    exact (tracks_after encoding (calls ++ more)).complete_iff.2
      ⟨call, List.mem_append_left _ hcall, hends⟩
  case emitted_eq => exact Producer.emitted_eq encoding calls
  case finished_once =>
    exact (List.sublist_append_left _ _).trans (endedTags_sublist encoding calls)

end Producer

end HttpServer
