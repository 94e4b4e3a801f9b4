import HttpServer.Proofs.Session.Lifecycle

/-!
# Expired sessions that are replaced

A session has expired once its idle time is over since a call has last touched it in time
(`SessionStore.HasExpired`), and as long as the clock does not run backwards it stays so. No lookup
finds it then, but a call that replaces it does not look at the clock: it succeeds on every session
that is still stored, and the session is live again (`SessionStore.Revived`). Apart from that no
call succeeds on an expired session (`SessionStore.expired_for_good`).
-/

namespace HttpServer

variable {σ : Type}

/-- The readings of the clock that a call takes. -/
def StoreCall.readings : StoreCall σ → List Nat
  | .create _ _ swept stored => [swept, stored]
  | .get _ now => [now]
  | .set _ _ now => [now]
  | .delete _ => []
  | .clear => []
  | .sweep now => [now]
  | .state _ now => [now]

/-- A call touches a session at a reading of the clock. -/
theorem StoreCall.mem_readings_of_touched {id : String} {call : StoreCall σ} {reply : StoreReply σ}
    {now : Nat} (h : StoreCall.touched? id (call, reply) = some now) : now ∈ call.readings := by
  cases call with
  | create _ _ _ _ | get _ _ | set _ _ _ | state _ _ =>
      rw [StoreCall.touched?, Option.ite_none_right_eq_some] at h
      cases h.2
      simp [StoreCall.readings]
  | delete _ | clear | sweep _ => cases h

namespace SessionStore

/-- A touch counts if it comes before the idle time is over, or is the first one. -/
def countTouch (timeout : Option Nat) : Option Nat → Nat → Option Nat
  | none, now => some now
  | some last, now => if timeout.any (· ≤ now - last) then some last else some now

/-- When the session of an id was last touched while it had not expired. -/
def lastInTime (timeout : Option Nat) (past : List (StoreCall σ × StoreReply σ)) (id : String) :
    Option Nat :=
  (past.filterMap (StoreCall.touched? id)).foldl (countTouch timeout) none

/-- **The session has expired**: its idle time is over since it was last touched in time. -/
def HasExpired (timeout : Option Nat) (past : List (StoreCall σ × StoreReply σ)) (id : String)
    (now : Nat) : Prop :=
  ∃ limit last, timeout = some limit ∧ lastInTime timeout past id = some last ∧ limit ≤ now - last

/-- A session was replaced after it had expired. -/
def Revived (timeout : Option Nat) (calls : List (StoreCall σ)) (id : String) : Prop :=
  ∃ before session now later, calls = before ++ .set id session now :: later ∧
    HasExpired timeout (history timeout before) id now ∧ Remains timeout before id

/-- No call has touched the session after it had expired. -/
def NoneSucceeds (timeout : Option Nat) (calls : List (StoreCall σ)) (id : String) : Prop :=
  ∀ before call later, calls = before ++ call :: later → ∀ now,
    StoreCall.touched? id (call, ((after timeout before).perform call).2) = some now →
      ¬ HasExpired timeout (history timeout before) id now

/-- No lookup finds the session. -/
def Denies (s : SessionStore σ) (id : String) (now : Nat) : Prop :=
  (s.perform (.get id now)).2 = .found none ∧
    ((s.perform (.state (some id) now)).2 = .state .timedOut ∨
      (s.perform (.state (some id) now)).2 = .state .notFound)

theorem lastInTime_concat (timeout : Option Nat) (past : List (StoreCall σ × StoreReply σ))
    (last : StoreCall σ × StoreReply σ) (id : String) :
    lastInTime timeout (past ++ [last]) id =
      match StoreCall.touched? id last with
      | none => lastInTime timeout past id
      | some now => countTouch timeout (lastInTime timeout past id) now := by
  rw [lastInTime, lastInTime, List.filterMap_append, List.foldl_append]
  cases h : StoreCall.touched? id last <;> simp [h]

theorem countTouch_of_expired {timeout : Option Nat} {limit last now : Nat}
    (htimeout : timeout = some limit) (hover : limit ≤ now - last) :
    countTouch timeout (some last) now = some last := by
  rw [htimeout, countTouch, if_pos (by simpa using hover)]

theorem countTouch_of_not_hasExpired {timeout : Option Nat}
    {past : List (StoreCall σ × StoreReply σ)} {id : String} {now : Nat}
    (h : ¬ HasExpired timeout past id now) :
    countTouch timeout (lastInTime timeout past id) now = some now := by
  cases hlast : lastInTime timeout past id with
  | none => rfl
  | some last =>
      rw [countTouch, if_neg]
      intro hover
      cases timeout with
      | none => cases hover
      | some limit => exact h ⟨limit, last, rfl, hlast, by simpa using hover⟩

/-- No session has expired that was never touched. -/
theorem not_hasExpired_of_lastInTime {timeout : Option Nat}
    {past : List (StoreCall σ × StoreReply σ)} {id : String}
    (h : lastInTime timeout past id = none) (now : Nat) : ¬ HasExpired timeout past id now := by
  rintro ⟨limit, last, _, hlast, _⟩
  cases h.symm.trans hlast

/-! ## One more call -/

section Histories

variable {timeout : Option Nat} {calls before more : List (StoreCall σ)} {call : StoreCall σ}
  {id : String}

/-- What touches a session creates it, or finds it in time, or replaces it. -/
theorem Tracks.of_touched (h : Tracks timeout calls) {now : Nat}
    (htouched : StoreCall.touched? id (call, ((after timeout calls).perform call).2) = some now) :
    call.newId? = some id ∨ Remains timeout calls id ∧
      (InTime timeout (history timeout calls) id now ∨ ∃ session, call = .set id session now) := by
  cases call with
  | create other session swept stored =>
      rw [StoreCall.touched?, Option.ite_none_right_eq_some] at htouched
      exact .inl (congrArg some htouched.1)
  | get other instant =>
      rw [StoreCall.touched?, Option.ite_none_right_eq_some] at htouched
      obtain ⟨⟨rfl, hhit⟩, htime⟩ := htouched
      cases htime
      cases hfound : ((after timeout calls).get other now).2 with
      | none =>
          rw [perform, hfound] at hhit
          cases hhit
      | some session =>
          have hreply : ((after timeout calls).perform (.get other now)).2 =
              .found (some session) :=
            congrArg StoreReply.found hfound
          obtain ⟨hremains, hintime, _⟩ := (h.found_iff other now session).1 hreply
          exact .inr ⟨hremains, .inl hintime⟩
  | set other session instant =>
      rw [StoreCall.touched?, Option.ite_none_right_eq_some] at htouched
      obtain ⟨⟨rfl, hhit⟩, htime⟩ := htouched
      cases htime
      have hreply : ((after timeout calls).perform (.set other session now)).2 = .replaced true :=
        congrArg StoreReply.replaced hhit
      exact .inr ⟨(h.replaced_iff other session now).1 hreply, .inr ⟨session, rfl⟩⟩
  | state other instant =>
      rw [StoreCall.touched?, Option.ite_none_right_eq_some] at htouched
      obtain ⟨⟨rfl, hhit⟩, htime⟩ := htouched
      cases htime
      have hlive : ((after timeout calls).state (some id) now).2 = .live := of_decide_eq_true hhit
      obtain ⟨hremains, hintime⟩ := (h.live_iff id now).1 (congrArg StoreReply.state hlive)
      exact .inr ⟨hremains, .inl hintime⟩
  | delete _ | clear | sweep _ => cases htouched

theorem lastInTime_history_concat (timeout : Option Nat) (calls : List (StoreCall σ))
    (call : StoreCall σ) (id : String) :
    lastInTime timeout (history timeout (calls ++ [call])) id =
      match StoreCall.touched? id (call, ((after timeout calls).perform call).2) with
      | none => lastInTime timeout (history timeout calls) id
      | some now => countTouch timeout (lastInTime timeout (history timeout calls) id) now := by
  rw [history_concat]
  exact lastInTime_concat _ _ _ _

/-- A session that was not created is not touched. -/
theorem lastInTime_of_not_created (hfresh : (created calls).Nodup) (hmem : id ∉ created calls) :
    lastInTime timeout (history timeout calls) id = none := by
  induction calls using List.reverseRecOn with
  | nil => rfl
  | append_singleton calls call ih =>
      have hbefore := nodup_created_left hfresh
      have hearlier : id ∉ created calls := fun h => hmem (mem_created_left [call] h)
      rw [lastInTime_history_concat, ih hbefore hearlier]
      cases htouched : StoreCall.touched? id (call, ((after timeout calls).perform call).2) with
      | none => rfl
      | some now =>
          rcases (tracks_after hbefore).of_touched htouched with hnew | ⟨hremains, _⟩
          · refine absurd ?_ hmem
            rw [created_append]
            exact List.mem_append_right _ (List.mem_filterMap.2 ⟨call, List.mem_cons_self, hnew⟩)
          · exact absurd (mem_created_of_remains hremains) hearlier

theorem Revived.append (h : Revived timeout calls id) (more : List (StoreCall σ)) :
    Revived timeout (calls ++ more) id := by
  obtain ⟨before, session, now, later, rfl, hexpired, hremains⟩ := h
  exact ⟨before, session, now, later ++ more, by simp, hexpired, hremains⟩

/-- A session that has not expired when it is touched counts as touched then. -/
theorem touched_of_not_revived (hfresh : (created (calls ++ [call])).Nodup)
    (hnone : ¬ Revived timeout (calls ++ [call]) id)
    (hsame : lastInTime timeout (history timeout calls) id =
      lastTouched (history timeout calls) id) {now : Nat}
    (htouched : StoreCall.touched? id (call, ((after timeout calls).perform call).2) = some now) :
    ¬ HasExpired timeout (history timeout calls) id now := by
  have hbefore := nodup_created_left hfresh
  rcases (tracks_after hbefore).of_touched htouched with hnew | ⟨hremains, hintime | ⟨session, rfl⟩⟩
  · have hunknown : id ∉ created calls := fun h => newId?_ne_of_mem_created hfresh h hnew
    exact not_hasExpired_of_lastInTime (lastInTime_of_not_created hbefore hunknown) now
  · rintro ⟨limit, last, htimeout, hlast, hover⟩
    obtain ⟨touched, hlastTouched, hless⟩ := hintime
    rw [hsame, hlastTouched, Option.some.injEq] at hlast
    have := hless limit htimeout
    omega
  · intro hexpired
    exact hnone ⟨calls, session, now, [], rfl, hexpired, hremains⟩

/-- **Without a revival every touch counts.** -/
theorem lastInTime_eq_lastTouched (hfresh : (created calls).Nodup)
    (hnone : ¬ Revived timeout calls id) :
    lastInTime timeout (history timeout calls) id = lastTouched (history timeout calls) id := by
  induction calls using List.reverseRecOn with
  | nil => rfl
  | append_singleton calls call ih =>
      have hsame := ih (nodup_created_left hfresh) fun h => hnone (h.append [call])
      rw [lastInTime_history_concat, history_concat, lastTouched_concat, ← hsame]
      cases htouched : StoreCall.touched? id (call, ((after timeout calls).perform call).2) with
      | none => rfl
      | some now =>
          exact countTouch_of_not_hasExpired (touched_of_not_revived hfresh hnone hsame htouched)

/-- **What has expired stays so**, as long as the clock does not run backwards. -/
theorem HasExpired.append {start : Nat} (h : HasExpired timeout (history timeout before) id start)
    (hclock : ∀ call ∈ more, ∀ now ∈ call.readings, start ≤ now) :
    ∀ now, start ≤ now → HasExpired timeout (history timeout (before ++ more)) id now := by
  obtain ⟨limit, last, htimeout, hlast, hover⟩ := h
  suffices hkept : lastInTime timeout (history timeout (before ++ more)) id = some last from
    fun now hlater => ⟨limit, last, htimeout, hkept, by omega⟩
  induction more using List.reverseRecOn with
  | nil =>
      rw [List.append_nil]
      exact hlast
  | append_singleton more call ih =>
      have hkept := ih fun other hother => hclock other (List.mem_append_left _ hother)
      rw [← List.append_assoc, lastInTime_history_concat, hkept]
      cases htouched :
          StoreCall.touched? id (call, ((after timeout (before ++ more)).perform call).2) with
      | none => rfl
      | some now =>
          have hlater : start ≤ now := hclock call (List.mem_append_right _ List.mem_cons_self) now
            (StoreCall.mem_readings_of_touched htouched)
          exact countTouch_of_expired htimeout (by omega)

/-- **Nothing but a replacement succeeds on an expired session.** -/
theorem noneSucceeds_iff (hfresh : (created calls).Nodup) :
    NoneSucceeds timeout calls id ↔ ¬ Revived timeout calls id := by
  constructor
  · rintro hnone ⟨before, session, now, later, rfl, hexpired, hremains⟩
    have hbefore := nodup_created_left hfresh
    refine hnone before _ later rfl now ?_ hexpired
    rw [((tracks_after hbefore).replaced_iff id session now).2 hremains]
    exact if_pos ⟨rfl, rfl⟩
  · rintro hnone before call later rfl now htouched
    have hsplit : before ++ call :: later = (before ++ [call]) ++ later := by simp
    rw [hsplit] at hfresh hnone
    have hcall := nodup_created_left hfresh
    have hnotCall : ¬ Revived timeout (before ++ [call]) id := fun h => hnone (h.append later)
    have hnotBefore : ¬ Revived timeout before id := fun h => hnotCall (h.append [call])
    have hsame := lastInTime_eq_lastTouched (nodup_created_left hcall) hnotBefore
    exact touched_of_not_revived hcall hnotCall hsame htouched

theorem Tracks.denies (h : Tracks timeout calls) {now : Nat}
    (hover : ¬ InTime timeout (history timeout calls) id now) :
    (after timeout calls).Denies id now := by
  by_cases hremains : Remains timeout calls id
  · obtain ⟨entry, hentry, rfl⟩ := h.exists_entry hremains
    have hexpired : (after timeout calls).isExpired entry now = true := by
      rw [inTime_iff (idleTimeout_after timeout calls) (h.touched entry hentry)] at hover
      simpa using hover
    obtain ⟨hget, hstate, _⟩ := answers_of_mem h.distinct hentry now
    rw [hexpired] at hget hstate
    exact ⟨hget, .inl hstate⟩
  · obtain ⟨hstate, hget, _⟩ := h.forgets hremains now
    exact ⟨hget, .inr hstate⟩

/-- A session that is replaced is live until its idle time is over again. -/
theorem live_of_replaced (hfresh : (created calls).Nodup) {session : σ} {now later : Nat}
    (hremains : Remains timeout calls id)
    (hless : ∀ limit, timeout = some limit → later - now < limit) :
    ((after timeout (calls ++ [.set id session now])).perform (.state (some id) later)).2 =
      .state .live := by
  have hadded : (created (calls ++ [StoreCall.set id session now])).Nodup := by
    rw [created_append]
    exact (List.append_nil (created calls)).symm ▸ hfresh
  rw [(tracks_after hadded).live_iff]
  constructor
  · exact (remains_concat timeout calls _ id).2 (.inl ⟨hremains, fun hno => hno⟩)
  · refine ⟨now, ?_, hless⟩
    rw [history_concat, lastTouched_concat,
      ((tracks_after hfresh).replaced_iff id session now).2 hremains]
    exact congrArg (Option.or · _) (if_pos ⟨rfl, rfl⟩)

end Histories

/-! ## After the idle time -/

/-- **What has expired comes back by replacement alone.** Let a session have expired, and let the
clock not run backwards from then on. It stays expired, whatever is called, and no call succeeds on
it, in the whole history, exactly if none replaces it after it had expired. Without that no lookup
finds it at any later time: it has timed out, or the store does not know it. A replacement succeeds
as long as the session is stored, expired or not, and makes it live until its idle time is over
again. -/
theorem expired_for_good (timeout : Option Nat) (before more : List (StoreCall σ)) (id : String)
    (start : Nat) (hfresh : (created (before ++ more)).Nodup)
    (hexpired : HasExpired timeout (history timeout before) id start)
    (hclock : ∀ call ∈ more, ∀ now ∈ call.readings, start ≤ now) :
    (NoneSucceeds timeout (before ++ more) id ↔ ¬ Revived timeout (before ++ more) id) ∧
    ∀ now, start ≤ now →
      HasExpired timeout (history timeout (before ++ more)) id now ∧
      (¬ Revived timeout (before ++ more) id → (after timeout (before ++ more)).Denies id now) ∧
      ∀ session : σ,
        (((after timeout (before ++ more)).perform (.set id session now)).2 = .replaced true ↔
          Remains timeout (before ++ more) id) ∧
        (Remains timeout (before ++ more) id →
          ∀ later, (∀ limit, timeout = some limit → later - now < limit) →
            ((after timeout (before ++ more ++ [.set id session now])).perform
              (.state (some id) later)).2 = .state .live) := by
  have htracks : Tracks timeout (before ++ more) := tracks_after hfresh
  refine ⟨noneSucceeds_iff hfresh, fun now hlater => ?_⟩
  have hstays := hexpired.append hclock now hlater
  refine ⟨hstays, fun hnone => ?_, fun session => ⟨htracks.replaced_iff id session now, ?_⟩⟩
  · apply htracks.denies
    rintro ⟨touched, hlast, hless⟩
    obtain ⟨limit, last, htimeout, hcounted, hover⟩ := hstays
    rw [lastInTime_eq_lastTouched hfresh hnone, hlast, Option.some.injEq] at hcounted
    have := hless limit htimeout
    omega
  · intro hremains later hless
    exact live_of_replaced hfresh hremains hless

/-- A session that expires before the next one is created, which sweeps it out. -/
theorem expired_for_good_sweptOut :
    (created ([.create "first" () 0 0] ++ [.create "second" () 12 13])).Nodup ∧
      (after (some 10) ([.create "first" () 0 0] ++ [.create "second" () 12 13])).Denies
        "first" 15 := by
  have hfresh : (created ([.create "first" () 0 0] ++ [.create "second" () 12 13])).Nodup := by
    decide
  have hexpired : HasExpired (some 10) (history (some 10) [.create "first" () 0 0]) "first" 10 :=
    ⟨10, 0, rfl, by decide, by decide⟩
  have hclock : ∀ call ∈ [StoreCall.create "second" () 12 13], ∀ now ∈ call.readings, 10 ≤ now := by
    decide
  obtain ⟨_, hlaws⟩ :=
    expired_for_good (some 10) _ [.create "second" () 12 13] "first" 10 hfresh hexpired hclock
  refine ⟨hfresh, (hlaws 15 (by decide)).2.1 ?_⟩
  rintro ⟨before, session, now, later, hcalls, _⟩
  have hset : StoreCall.set "first" session now ∈
      [StoreCall.create "first" () 0 0] ++ [.create "second" () 12 13] := by
    rw [hcalls]
    exact List.mem_append_right _ List.mem_cons_self
  simp at hset

/-- **An expired session is replaced, and is live again.** Without any idle time a new session has
expired at once, but replacing it succeeds; and a session that was replaced half an idle time too
late is found by the next lookup. -/
theorem revived_by_replacement :
    (HasExpired (some 0) (history (some 0) [.create "first" () 0 0]) "first" 0 ∧
      ((after (some 0) [.create "first" () 0 0]).perform (.set "first" () 0)).2 = .replaced true) ∧
    HasExpired (some 10) (history (some 10) [.create "first" () 0 0]) "first" 15 ∧
      history (some 10) [.create "first" () 0 0, .set "first" () 15, .state (some "first") 20] =
        [(.create "first" () 0 0, .done), (.set "first" () 15, .replaced true),
          (.state (some "first") 20, .state .live)] := by
  refine ⟨⟨⟨0, 0, rfl, ?_, ?_⟩, ?_⟩, ⟨10, 0, rfl, ?_, ?_⟩, ?_⟩
  all_goals decide

end SessionStore

end HttpServer
