import HttpServer.Proofs.Exchange.Reads

/-!
# How reading a header ends

As long as every read brings bytes and the reader asks for more, the header is incomplete
(`Serving.Incomplete`). Every read that goes on takes at least one byte of what the limit allows, so
the next one is never out of turn (`Serving.exec_readHeader_of_incomplete`). Whatever it brings
decides how reading the header ends. The connection is stopped then exactly if the read was aborted
(`Serving.isStopped_exec_read`).
-/

namespace HttpServer

namespace Exchange

variable {ν : Type}

/-- What happens to the handle of a connection stops it only if it stops the handle. -/
theorem isStopped_modify (e : Exchange ν) (change : Handle → Handle)
    (h : ∀ handle, (change handle).stopped = handle.stopped) :
    ({ e with registry := e.registry.modify e.connection change } : Exchange ν).isStopped =
      e.isStopped := by
  have hhandle : (e.registry.modify e.connection change).handle? e.connection =
      (e.registry.handle? e.connection).map change := by
    simp only [Registry.modify, Registry.handle?, List.getElem?_modify, ↓reduceIte]
    rfl
  simp only [isStopped, handle, hhandle]
  cases e.registry.handle? e.connection with
  | none => rfl
  | some handle => exact h handle

/-- A missed deadline stops nothing. -/
theorem isStopped_markTimedOut (e : Exchange ν) : e.markTimedOut.isStopped = e.isStopped :=
  e.isStopped_modify Handle.markTimedOut fun _ => rfl

end Exchange

namespace Serving

open Exchange

variable {ν : Type}

/-! ## What stops a read -/

theorem isStopped_expire {deadline : Option Nat} {e later : Exchange ν} {awaited : Awaited}
    (hrunning : e.isStopped = false) (h : expire deadline e = (some awaited, later)) :
    later.isStopped = true ↔ awaited = .fulfilled := by
  unfold expire at h
  split at h
  · split at h
    · cases h
      change e.isStopped = true ↔ _
      rw [hrunning]
      exact ⟨nofun, nofun⟩
    · cases h
  · cases h

/-- Waiting for the end of a connection is fulfilled by nothing else. -/
theorem isStopped_awaitAmong {deadline : Option Nat} {agenda : List (Nat × Occurrence)}
    {e later : Exchange ν} {awaited : Awaited}
    (h : awaitAmong isStopped deadline agenda e = (some awaited, later)) :
    later.isStopped = true ↔ awaited = .fulfilled := by
  induction agenda generalizing e with
  | nil =>
      rw [awaitAmong] at h
      split at h
      · rename_i hstopped
        cases h
        exact ⟨fun _ => rfl, fun _ => hstopped⟩
      · rename_i hrunning
        exact isStopped_expire (by simpa using hrunning) h
  | cons entry agenda ih =>
      rw [awaitAmong] at h
      split at h
      · rename_i hstopped
        cases h
        exact ⟨fun _ => rfl, fun _ => hstopped⟩
      rename_i hrunning
      split at h
      · exact isStopped_expire (by simpa using hrunning) h
      split at h
      · cases h
      · exact ih h

theorem isStopped_exec_readBy {deadline : Option Nat} {rounds : Nat} {e later : Exchange ν}
    {result : Except ConnectionError Bytes}
    (h : exec (readBy deadline rounds).run e = (some result, later)) :
    later.isStopped = true ↔ result = .error .aborted := by
  induction rounds generalizing e with
  | zero => exact absurd h not_exec_never
  | succ rounds ih =>
      rw [exec_readBy_succ] at h
      generalize e.checkpoint = e at h
      split at h
      · rename_i hstopped
        cases h
        exact ⟨fun _ => rfl, fun _ => hstopped⟩
      rename_i hrunning
      generalize e.incoming.poll e.readSize e.now = found at h
      obtain ⟨incoming, delivery⟩ := found
      have hpolled : ({ e with incoming } : Exchange ν).isStopped = false :=
        (Bool.not_eq_true _).mp hrunning
      dsimp only at h
      rcases delivery with ⟨_ | _⟩ | _ | due
      · cases h
        simp [hpolled]
      · cases h
        simp [hpolled]
      · cases h
        simp [hpolled]
      dsimp only at h
      rcases hawait : awaitAmong isStopped (earlier due deadline) e.agenda { e with incoming } with
        ⟨_ | _ | _, last⟩
      · rw [hawait] at h
        cases h
      · rw [hawait] at h
        cases h
        have hstopped := (isStopped_awaitAmong hawait).2 rfl
        exact ⟨fun _ => rfl, fun _ => hstopped⟩
      · rw [hawait] at h
        dsimp only at h
        split at h
        · exact ih h
        · cases h
          have hlast := isStopped_awaitAmong hawait
          rw [isStopped_markTimedOut, hlast]
          exact ⟨nofun, nofun⟩

/-- **A read is aborted** exactly if the connection is stopped when it ends. -/
theorem isStopped_exec_read {e later : Exchange ν} {result : Except ConnectionError Bytes}
    (h : exec read.run e = (some result, later)) :
    later.isStopped = true ↔ result = .error .aborted := by
  rw [exec_read] at h
  exact isStopped_exec_readBy h

/-! ## Reading on -/

/-- **The header is incomplete**: every read so far has brought bytes with which the reader asks for
more, and these are the exchange and the reader then. -/
inductive Incomplete : Exchange ν → HeaderReader → Exchange ν → HeaderReader → Prop
  | start (e : Exchange ν) (reader : HeaderReader) : Incomplete e reader e reader
  | next {e mid later : Exchange ν} {reader more final : HeaderReader} {data : Bytes}
      (hread : exec read.run e = (some (.ok data), mid))
      (hfeed : reader.feed data = (more, .ok .needMoreData))
      (hrest : Incomplete mid more later final) : Incomplete e reader later final

theorem exec_readHeaderWithin_succ (reads : Nat) (reader : HeaderReader) (e : Exchange ν) :
    exec (readHeaderWithin (reads + 1) reader).run e = match exec read.run e with
      | (some (.ok data), later) => match reader.feed data with
        | (_, .error failure) => (some (.error (.request failure)), later)
        | (next, .ok .finished) => (some (.ok next), later)
        | (next, .ok .needMoreData) => exec (readHeaderWithin reads next).run later
      | (some (.error failure), later) => (some (.error (.connection failure)), later)
      | (none, later) => (none, later) := by
  rw [readHeaderWithin, exec_ebind, exec_adapt]
  rcases exec read.run e with ⟨_ | _ | data, later⟩
  · rfl
  · rfl
  dsimp only [Option.map_some, Except.mapError]
  rcases reader.feed data with ⟨next, _ | _ | _⟩ <;> rfl

/-- There are more reads than bytes that the limit still allows. -/
theorem exec_readHeaderWithin_of_incomplete {e later : Exchange ν} {reader final : HeaderReader}
    (h : Incomplete e reader later final) (hopen : reader.isFinished = false) {reads : Nat}
    (hfits : reader.given ≤ reader.limits.maxBytes)
    (hreads : reader.limits.maxBytes < reads + reader.given) :
    ∃ left, exec (readHeaderWithin reads reader).run e =
      exec (readHeaderWithin (left + 1) final).run later := by
  induction h generalizing reads with
  | start e reader => exact ⟨reads - 1, by rw [Nat.sub_add_cancel (by omega)]⟩
  | @next e mid later reader more final data hread hfeed hrest ih =>
      obtain ⟨hmore, hlimits, hgiven, hroom⟩ := HeaderReader.given_of_feed hopen hfeed
      have hsome := List.length_pos_iff.2 (ne_nil_of_exec_read hread)
      obtain ⟨left, rfl⟩ : ∃ left, reads = left + 1 := ⟨reads - 1, by omega⟩
      rw [exec_readHeaderWithin_succ, hread]
      dsimp only
      rw [hfeed]
      refine ih hmore ?_ ?_
      · rw [hlimits, hgiven]
        exact hroom
      · rw [hlimits, hgiven]
        omega

/-- **Reading goes on** for as long as the header is incomplete. -/
theorem exec_readHeader_of_incomplete {e later : Exchange ν} {final : HeaderReader}
    (h : Incomplete e { limits := e.settings.limits } later final) :
    ∃ left, exec readHeader.run e = exec (readHeaderWithin (left + 1) final).run later := by
  rw [readHeader, exec_ebind, exec_eget]
  dsimp only
  exact exec_readHeaderWithin_of_incomplete h rfl (Nat.zero_le _) (Nat.lt_succ_self _)

/-- A header that is refused ends reading. -/
theorem exec_readHeader_of_refused {e later found : Exchange ν} {final next : HeaderReader}
    {data : Bytes} {failure : ParseError}
    (h : Incomplete e { limits := e.settings.limits } later final)
    (hread : exec read.run later = (some (.ok data), found))
    (hfeed : final.feed data = (next, .error failure)) :
    exec readHeader.run e = (some (.error (.request failure)), found) := by
  obtain ⟨left, hleft⟩ := exec_readHeader_of_incomplete h
  rw [hleft, exec_readHeaderWithin_succ, hread]
  dsimp only
  rw [hfeed]

/-- A read that brings nothing ends reading. -/
theorem exec_readHeader_of_unread {e later found : Exchange ν} {final : HeaderReader}
    {failure : ConnectionError} (h : Incomplete e { limits := e.settings.limits } later final)
    (hread : exec read.run later = (some (.error failure), found)) :
    exec readHeader.run e = (some (.error (.connection failure)), found) := by
  obtain ⟨left, hleft⟩ := exec_readHeader_of_incomplete h
  rw [hleft, exec_readHeaderWithin_succ, hread]

theorem moves_readHeader : Moves Withholds (readHeader : ExceptT HttpError (Serving ν) _).run := by
  refine moves_ebind moves_eget fun e => ?_
  dsimp only
  generalize e.settings.limits.maxBytes + 1 = reads
  generalize ({ limits := e.settings.limits } : HeaderReader) = reader
  induction reads generalizing reader with
  | zero => exact moves_never.withholds
  | succ reads ih =>
      refine moves_ebind (moves_adapt moves_read) fun data => ?_
      split
      · exact moves_throw _
      · exact moves_epure _
      · exact ih _

end Serving

end HttpServer
