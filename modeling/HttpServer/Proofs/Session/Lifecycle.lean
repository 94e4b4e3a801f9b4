import HttpServer.Proofs.Session.Calls
import Mathlib.Data.Set.Card

/-!
# The life of a session

The answers to the calls of a history tell which sessions are still there (`Remains`), when they
were touched last and what was stored last. The store keeps track of just that
(`SessionStore.tracks_after`), and `SessionStore.lifecycle` says what follows for the answers.

An expired session stays in the store until a lookup, a sweep or the creation of another one comes
upon it. A session that is replaced before that goes on as if it had not expired. Nothing is assumed
of the clock; where it runs backwards, no time counts as passed.
-/

namespace HttpServer

variable {σ : Type}

namespace SessionStore

/-- Makes calls one after another. -/
def performAll (s : SessionStore σ) (calls : List (StoreCall σ)) : SessionStore σ :=
  calls.foldl (fun store call => (store.perform call).1) s

/-- Calls that are made one after another, with their answers. -/
def answered (s : SessionStore σ) : List (StoreCall σ) → List (StoreCall σ × StoreReply σ)
  | [] => []
  | call :: calls => (call, (s.perform call).2) :: answered (s.perform call).1 calls

/-- The store that a history of calls leaves behind. -/
def after (timeout : Option Nat) (calls : List (StoreCall σ)) : SessionStore σ :=
  performAll { idleTimeout := timeout } calls

/-- A history of calls with their answers, oldest first. -/
def history (timeout : Option Nat) (calls : List (StoreCall σ)) :
    List (StoreCall σ × StoreReply σ) :=
  answered { idleTimeout := timeout } calls

/-- The store after one more call is the store after the others, with that call performed. -/
theorem after_concat (timeout : Option Nat) (calls : List (StoreCall σ)) (call : StoreCall σ) :
    after timeout (calls ++ [call]) = ((after timeout calls).perform call).1 :=
  List.foldl_append

/-- The answer to the last call comes from the store that the others have left. -/
theorem answered_concat (s : SessionStore σ) (calls : List (StoreCall σ)) (call : StoreCall σ) :
    s.answered (calls ++ [call]) =
      s.answered calls ++ [(call, ((s.performAll calls).perform call).2)] := by
  induction calls generalizing s with
  | nil => rfl
  | cons first calls ih => exact congrArg _ (ih _)

/-- A history grows at its end. -/
theorem history_concat (timeout : Option Nat) (calls : List (StoreCall σ)) (call : StoreCall σ) :
    history timeout (calls ++ [call]) =
      history timeout calls ++ [(call, ((after timeout calls).perform call).2)] :=
  answered_concat _ calls call

/-- No call changes the idle time. -/
theorem idleTimeout_after (timeout : Option Nat) (calls : List (StoreCall σ)) :
    (after timeout calls).idleTimeout = timeout := by
  induction calls using List.reverseRecOn with
  | nil => rfl
  | append_singleton calls call ih => rw [after_concat, idleTimeout_perform, ih]

/-! ## What a history tells -/

/-- When the session of an id was last touched. -/
def lastTouched (past : List (StoreCall σ × StoreReply σ)) (id : String) : Option Nat :=
  (past.filterMap (StoreCall.touched? id)).getLast?

/-- The session that was last stored under an id. -/
def lastStored (past : List (StoreCall σ × StoreReply σ)) (id : String) : Option σ :=
  (past.filterMap (StoreCall.stored? id)).getLast?

/-- The idle time of a session is over. -/
def Overdue (timeout : Option Nat) (past : List (StoreCall σ × StoreReply σ)) (id : String)
    (now : Nat) : Prop :=
  ∃ limit touched, timeout = some limit ∧ lastTouched past id = some touched ∧
    limit ≤ now - touched

/-- Less than the idle time has passed since the session was last touched. -/
def InTime (timeout : Option Nat) (past : List (StoreCall σ × StoreReply σ)) (id : String)
    (now : Nat) : Prop :=
  ∃ touched, lastTouched past id = some touched ∧
    ∀ limit, timeout = some limit → now - touched < limit

/-- **How a session goes.** The call deletes it or clears the store, or it comes upon it, by a sweep
or a lookup, when its idle time is over. -/
def Ousts (timeout : Option Nat) (past : List (StoreCall σ × StoreReply σ)) (id : String) :
    StoreCall σ → Prop
  | .create _ _ swept _ => Overdue timeout past id swept
  | .get other now => other = id ∧ Overdue timeout past id now
  | .set .. => False
  | .delete other => other = id
  | .clear => True
  | .sweep now => Overdue timeout past id now
  | .state other now => other = some id ∧ Overdue timeout past id now

/-- The session was created, and it has not gone since. -/
def Remains (timeout : Option Nat) (calls : List (StoreCall σ)) (id : String) : Prop :=
  ∃ before session swept stored later,
    calls = before ++ .create id session swept stored :: later ∧
    ∀ first call rest, later = first ++ call :: rest →
      ¬ Ousts timeout (history timeout (before ++ .create id session swept stored :: first)) id call

/-- The ids under which sessions are created. -/
def created (calls : List (StoreCall σ)) : List String := calls.filterMap StoreCall.newId?

/-- The answer says that the session of the id has expired. -/
def ReportsTimeout (id : String) (answer : StoreCall σ × StoreReply σ) : Prop :=
  ∃ now, answer = (.state (some id) now, .state .timedOut)

/-- A session was touched last in the last call, if that touches it. -/
theorem lastTouched_concat (past : List (StoreCall σ × StoreReply σ))
    (last : StoreCall σ × StoreReply σ) (id : String) :
    lastTouched (past ++ [last]) id = (StoreCall.touched? id last).or (lastTouched past id) := by
  rw [lastTouched, lastTouched, List.filterMap_append, List.getLast?_append]
  cases h : StoreCall.touched? id last <;> simp [h]

/-- Its data were stored last in the last call, if that stores them. -/
theorem lastStored_concat (past : List (StoreCall σ × StoreReply σ))
    (last : StoreCall σ × StoreReply σ) (id : String) :
    lastStored (past ++ [last]) id = (StoreCall.stored? id last).or (lastStored past id) := by
  rw [lastStored, lastStored, List.filterMap_append, List.getLast?_append]
  cases h : StoreCall.stored? id last <;> simp [h]

theorem created_append (calls more : List (StoreCall σ)) :
    created (calls ++ more) = created calls ++ created more :=
  List.filterMap_append

/-- Ids that are not repeated in a history are not repeated in a front of it. -/
theorem nodup_created_left {calls more : List (StoreCall σ)}
    (h : (created (calls ++ more)).Nodup) : (created calls).Nodup := by
  rw [created_append] at h
  exact h.of_append_left

theorem mem_created_left {calls : List (StoreCall σ)} {id : String} (more : List (StoreCall σ))
    (h : id ∈ created calls) : id ∈ created (calls ++ more) := by
  rw [created_append]
  exact List.mem_append_left _ h

/-- **A session is still there after a call** if it was before and the call does not oust it, or if
the call creates it. -/
theorem remains_concat (timeout : Option Nat) (calls : List (StoreCall σ)) (call : StoreCall σ)
    (id : String) :
    Remains timeout (calls ++ [call]) id ↔
      (Remains timeout calls id ∧ ¬ Ousts timeout (history timeout calls) id call) ∨
        call.newId? = some id := by
  constructor
  · intro h
    obtain ⟨before, session, swept, stored, later, hcalls, hkept⟩ := h
    rcases List.eq_nil_or_concat' later with rfl | ⟨later, last, rfl⟩
    · obtain ⟨rfl, hlast⟩ := List.append_inj' hcalls rfl
      cases hlast
      exact .inr rfl
    · rw [← List.cons_append, ← List.append_assoc] at hcalls
      obtain ⟨rfl, hlast⟩ := List.append_inj' hcalls rfl
      cases hlast
      apply Or.inl
      constructor
      · refine ⟨before, session, swept, stored, later, rfl, fun first other rest hlater => ?_⟩
        apply hkept first other (rest ++ [call])
        rw [hlater, List.append_assoc]
        rfl
      · exact hkept later call [] rfl
  · intro h
    rcases h with ⟨⟨before, session, swept, stored, later, rfl, hkept⟩, hspared⟩ | hnew
    · refine ⟨before, session, swept, stored, later ++ [call], by simp, ?_⟩
      intro first other rest hlater
      rcases List.eq_nil_or_concat' rest with rfl | ⟨rest, last, rfl⟩
      · obtain ⟨rfl, hlast⟩ := List.append_inj' hlater rfl
        cases hlast
        exact hspared
      · rw [← List.cons_append, ← List.append_assoc] at hlater
        obtain ⟨rfl, _⟩ := List.append_inj' hlater rfl
        exact hkept first other rest rfl
    · cases call with
      | create other session swept stored =>
          cases hnew
          refine ⟨calls, session, swept, stored, [], rfl, fun first other rest hnone => ?_⟩
          simp at hnone
      | get _ _ | set _ _ _ | delete _ | clear | sweep _ | state _ _ => cases hnew

/-- At first there is no session. -/
theorem not_remains_nil (timeout : Option Nat) (id : String) :
    ¬ Remains timeout ([] : List (StoreCall σ)) id := by
  intro h
  obtain ⟨before, session, swept, stored, later, hnone, _⟩ := h
  simp at hnone

/-- A session that remains was created. -/
theorem mem_created_of_remains {timeout : Option Nat} {calls : List (StoreCall σ)} {id : String}
    (h : Remains timeout calls id) : id ∈ created calls := by
  obtain ⟨before, session, swept, stored, later, rfl, _⟩ := h
  rw [created_append]
  apply List.mem_append_right
  exact List.mem_cons_self

/-- An id under which a session was created is not used again. -/
theorem newId?_ne_of_mem_created {calls : List (StoreCall σ)} {call : StoreCall σ} {id : String}
    (hfresh : (created (calls ++ [call])).Nodup) (hmem : id ∈ created calls) :
    call.newId? ≠ some id := by
  intro hnew
  have hagain : id ∈ created [call] := List.mem_filterMap.2 ⟨call, List.mem_cons_self, hnew⟩
  rw [created_append] at hfresh
  exact (List.nodup_append.1 hfresh).2.2 id hmem id hagain rfl

/-- **What has gone stays gone.** -/
theorem not_remains_append {timeout : Option Nat} {calls more : List (StoreCall σ)} {id : String}
    (hfresh : (created (calls ++ more)).Nodup) (hmem : id ∈ created calls)
    (hgone : ¬ Remains timeout calls id) : ¬ Remains timeout (calls ++ more) id := by
  induction more using List.reverseRecOn with
  | nil =>
      rw [List.append_nil]
      exact hgone
  | append_singleton more call ih =>
      rw [← List.append_assoc] at hfresh ⊢
      rw [remains_concat]
      intro h
      rcases h with ⟨hremains, _⟩ | hnew
      · exact ih (nodup_created_left hfresh) hremains
      · exact newId?_ne_of_mem_created hfresh (mem_created_left more hmem) hnew

/-! ## The store keeps track of its history -/

section Recorded

variable {timeout : Option Nat} {s : SessionStore σ} {past : List (StoreCall σ × StoreReply σ)}
  {entry : SessionEntry σ}

/-- What the store takes for expired is overdue by the history, if the entry was touched when the
history says so. -/
theorem overdue_iff (htimeout : s.idleTimeout = timeout)
    (htouched : lastTouched past entry.id = some entry.lastAccess) (now : Nat) :
    Overdue timeout past entry.id now ↔ s.isExpired entry now = true := by
  rw [Overdue, isExpired, htouched, htimeout]
  cases timeout with
  | none => simp
  | some limit => simp

/-- What the store takes for live is in time by the history. -/
theorem inTime_iff (htimeout : s.idleTimeout = timeout)
    (htouched : lastTouched past entry.id = some entry.lastAccess) (now : Nat) :
    InTime timeout past entry.id now ↔ s.isExpired entry now = false := by
  rw [InTime, isExpired, htouched, htimeout]
  cases timeout with
  | none => simp
  | some limit => simp

/-- A call drops exactly the entries whose sessions go. -/
theorem touch_eq_none_iff (htimeout : s.idleTimeout = timeout)
    (htouched : lastTouched past entry.id = some entry.lastAccess) (call : StoreCall σ) :
    call.touch s entry = none ↔ Ousts timeout past entry.id call := by
  cases call with
  | create _ _ now _ | sweep now =>
      rw [Ousts, overdue_iff htimeout htouched, StoreCall.touch, spare]
      cases s.isExpired entry now <;> simp
  | get id now =>
      rw [Ousts, overdue_iff htimeout htouched, StoreCall.touch, visit]
      by_cases hid : id = entry.id <;> simp [hid]
  | set id session now =>
      rw [Ousts, StoreCall.touch]
      by_cases hid : id = entry.id <;> simp [hid]
  | delete id =>
      rw [Ousts, StoreCall.touch]
      by_cases hid : id = entry.id <;> simp [hid, Ne.symm]
  | clear => simp [Ousts, StoreCall.touch]
  | state id now =>
      rw [Ousts, overdue_iff htimeout htouched]
      cases id with
      | none => simp [StoreCall.touch]
      | some id =>
          rw [StoreCall.touch, visit]
          by_cases hid : id = entry.id <;> simp [hid]

end Recorded

/-- **The store and its history agree** on which sessions are there, when they were touched and what
was stored. -/
structure Tracks (timeout : Option Nat) (calls : List (StoreCall σ)) : Prop where
  distinct : (after timeout calls).ids.Nodup
  known_iff : ∀ id, id ∈ (after timeout calls).ids ↔ Remains timeout calls id
  touched : ∀ entry ∈ (after timeout calls).entries,
    lastTouched (history timeout calls) entry.id = some entry.lastAccess
  stored : ∀ entry ∈ (after timeout calls).entries,
    lastStored (history timeout calls) entry.id = some entry.session

section Tracking

variable {timeout : Option Nat} {calls : List (StoreCall σ)}

/-- **One more call is kept track of.** The cases are those of the calls; a new session needs an id
of its own. -/
theorem tracks_concat (h : Tracks timeout calls) {call : StoreCall σ}
    (hfresh : (created (calls ++ [call])).Nodup) : Tracks timeout (calls ++ [call]) := by
  have hnew : ∀ id ∈ (after timeout calls).ids, call.newId? ≠ some id := by
    intro id hid
    exact newId?_ne_of_mem_created hfresh (mem_created_of_remains ((h.known_iff id).1 hid))
  -- Whatever is recorded of an entry after the call is what the history tells then.
  have hrecorded : ∀ later ∈ ((after timeout calls).perform call).1.entries,
      lastTouched (history timeout (calls ++ [call])) later.id = some later.lastAccess ∧
        lastStored (history timeout (calls ++ [call])) later.id = some later.session := by
    intro later hlater
    rw [history_concat, lastTouched_concat, lastStored_concat]
    rcases touched_or_fresh h.distinct hlater with ⟨entry, hentry, htouch⟩ | hadded
    · rw [StoreCall.id_of_touch htouch, h.touched entry hentry, h.stored entry hentry]
      exact recorded_touch h.distinct hentry (hnew _ (List.mem_map_of_mem hentry)) htouch
    · obtain ⟨htouched, hstored⟩ :=
        recorded_fresh hadded ((after timeout calls).perform call).2
      rw [htouched, hstored]
      exact ⟨rfl, rfl⟩
  constructor
  case distinct =>
    rw [after_concat]
    exact distinct_perform h.distinct hnew
  case known_iff =>
    intro id
    rw [after_concat, mem_ids_perform_iff h.distinct, remains_concat, ← h.known_iff]
    apply or_congr_left
    have hspared (entry : SessionEntry σ) (hentry : entry ∈ (after timeout calls).entries) :
        call.touch (after timeout calls) entry ≠ none ↔
          ¬ Ousts timeout (history timeout calls) entry.id call :=
      not_congr (touch_eq_none_iff (idleTimeout_after timeout calls) (h.touched entry hentry) call)
    constructor
    · intro hkept
      obtain ⟨entry, hentry, rfl, htouch⟩ := hkept
      exact ⟨List.mem_map_of_mem hentry, (hspared entry hentry).1 htouch⟩
    · intro hremains
      obtain ⟨hid, hstays⟩ := hremains
      obtain ⟨entry, hentry, rfl⟩ := List.mem_map.1 hid
      exact ⟨entry, hentry, rfl, (hspared entry hentry).2 hstays⟩
  case touched =>
    intro later hlater
    rw [after_concat] at hlater
    exact (hrecorded later hlater).1
  case stored =>
    intro later hlater
    rw [after_concat] at hlater
    exact (hrecorded later hlater).2

/-- **The store keeps track of its history**, by induction on the calls from the end. -/
theorem tracks_after (hfresh : (created calls).Nodup) : Tracks timeout calls := by
  induction calls using List.reverseRecOn with
  | nil =>
      constructor
      case distinct => exact List.nodup_nil
      case known_iff => exact fun id => iff_of_false List.not_mem_nil (not_remains_nil timeout id)
      case touched => exact nofun
      case stored => exact nofun
  | append_singleton calls call ih =>
      have hbefore := nodup_created_left hfresh
      exact tracks_concat (ih hbefore) hfresh

/-- A session that is still there has an entry. -/
theorem Tracks.exists_entry (h : Tracks timeout calls) {id : String}
    (hremains : Remains timeout calls id) :
    ∃ entry ∈ (after timeout calls).entries, entry.id = id :=
  List.mem_map.1 ((h.known_iff id).2 hremains)

/-- The store knows nothing of a session that is there no more. -/
theorem Tracks.forgets (h : Tracks timeout calls) {id : String}
    (hgone : ¬ Remains timeout calls id) :
    (after timeout calls).Forgets id :=
  forgets_of_not_mem fun hknown => hgone ((h.known_iff id).1 hknown)

/-- A session is reported live exactly if it is still there and in time. -/
theorem Tracks.live_iff (h : Tracks timeout calls) (id : String) (now : Nat) :
    ((after timeout calls).perform (.state (some id) now)).2 = .state .live ↔
      Remains timeout calls id ∧ InTime timeout (history timeout calls) id now := by
  by_cases hremains : Remains timeout calls id
  · obtain ⟨entry, hentry, rfl⟩ := h.exists_entry hremains
    have htime := inTime_iff (idleTimeout_after timeout calls) (h.touched entry hentry) now
    rw [(answers_of_mem h.distinct hentry now).2.1, htime]
    cases (after timeout calls).isExpired entry now <;> simp [hremains]
  · rw [(h.forgets hremains now).1]
    simp [hremains]

/-- A lookup finds what was stored last, exactly if the session is still there and in time. -/
theorem Tracks.found_iff (h : Tracks timeout calls) (id : String) (now : Nat) (session : σ) :
    ((after timeout calls).perform (.get id now)).2 = .found (some session) ↔
      Remains timeout calls id ∧ InTime timeout (history timeout calls) id now ∧
        lastStored (history timeout calls) id = some session := by
  by_cases hremains : Remains timeout calls id
  · obtain ⟨entry, hentry, rfl⟩ := h.exists_entry hremains
    have htime := inTime_iff (idleTimeout_after timeout calls) (h.touched entry hentry) now
    rw [(answers_of_mem h.distinct hentry now).1, htime, h.stored entry hentry]
    cases (after timeout calls).isExpired entry now <;> simp [hremains]
  · rw [(h.forgets hremains now).2.1]
    simp [hremains]

/-- A session is reported timed out exactly if it is still there and overdue. -/
theorem Tracks.timedOut_iff (h : Tracks timeout calls) (id : String) (now : Nat) :
    ((after timeout calls).perform (.state (some id) now)).2 = .state .timedOut ↔
      Remains timeout calls id ∧ Overdue timeout (history timeout calls) id now := by
  by_cases hremains : Remains timeout calls id
  · obtain ⟨entry, hentry, rfl⟩ := h.exists_entry hremains
    have htime := overdue_iff (idleTimeout_after timeout calls) (h.touched entry hentry) now
    rw [(answers_of_mem h.distinct hentry now).2.1, htime]
    cases (after timeout calls).isExpired entry now <;> simp [hremains]
  · rw [(h.forgets hremains now).1]
    simp [hremains]

/-- A session can be replaced exactly if it is still there, in time or not. -/
theorem Tracks.replaced_iff (h : Tracks timeout calls) (id : String) (session : σ) (now : Nat) :
    ((after timeout calls).perform (.set id session now)).2 = .replaced true ↔
      Remains timeout calls id := by
  by_cases hremains : Remains timeout calls id
  · obtain ⟨entry, hentry, rfl⟩ := h.exists_entry hremains
    rw [(answers_of_mem h.distinct hentry now).2.2 session]
    simp [hremains]
  · rw [(h.forgets hremains now).2.2 session]
    simp [hremains]

/-- The store has as many entries as there are sessions. -/
theorem Tracks.size_eq (h : Tracks timeout calls) :
    (after timeout calls).size = {id | Remains timeout calls id}.ncard := by
  have hset : {id | Remains timeout calls id} =
      ((after timeout calls).ids.toFinset : Set String) := by
    ext id
    simp [h.known_iff]
  rw [hset, Set.ncard_coe_finset, List.toFinset_card_of_nodup h.distinct, size, ids,
    List.length_map]

/-- A session that goes with a call is gone after it. -/
theorem not_remains_of_ousts {call : StoreCall σ} {id : String}
    (hfresh : (created (calls ++ [call])).Nodup) (hmem : id ∈ created calls)
    (housts : Ousts timeout (history timeout calls) id call) :
    ¬ Remains timeout (calls ++ [call]) id := by
  rw [remains_concat]
  intro h
  rcases h with ⟨_, hspared⟩ | hnew
  · exact hspared housts
  · exact newId?_ne_of_mem_created hfresh hmem hnew

/-- A session of which it was said that it has expired is gone. -/
theorem gone_of_reported {id : String} (hfresh : (created calls).Nodup)
    {answer : StoreCall σ × StoreReply σ} (hmem : answer ∈ history timeout calls)
    (hreports : ReportsTimeout id answer) :
    id ∈ created calls ∧ ¬ Remains timeout calls id := by
  induction calls using List.reverseRecOn with
  | nil => cases hmem
  | append_singleton calls call ih =>
      have hbefore := nodup_created_left hfresh
      rw [history_concat, List.mem_append, List.mem_singleton] at hmem
      have hgone : id ∈ created calls ∧ ¬ Remains timeout (calls ++ [call]) id := by
        rcases hmem with hmem | rfl
        · obtain ⟨hcreated, hgone⟩ := ih hbefore hmem
          exact ⟨hcreated, not_remains_append hfresh hcreated hgone⟩
        · obtain ⟨now, hlast⟩ := hreports
          cases congrArg Prod.fst hlast
          obtain ⟨hremains, hoverdue⟩ :=
            ((tracks_after hbefore).timedOut_iff id now).1 (congrArg Prod.snd hlast)
          have hcreated := mem_created_of_remains hremains
          exact ⟨hcreated, not_remains_of_ousts hfresh hcreated ⟨rfl, hoverdue⟩⟩
      exact ⟨mem_created_left [call] hgone.1, hgone.2⟩

/-- The end of a session is reported once: the lookup that reports it ousts the session, and its id
does not come again. -/
theorem reported_once (hfresh : (created calls).Nodup) (id : String) :
    (history timeout calls).Pairwise fun first second =>
      ¬ (ReportsTimeout id first ∧ ReportsTimeout id second) := by
  induction calls using List.reverseRecOn with
  | nil => exact List.Pairwise.nil
  | append_singleton calls call ih =>
      have hbefore := nodup_created_left hfresh
      rw [history_concat]
      refine List.pairwise_append.2 ⟨ih hbefore, List.pairwise_singleton _ _, ?_⟩
      intro first hfirst second hsecond hboth
      obtain ⟨hreported, now, hagain⟩ := hboth
      rw [List.mem_singleton.1 hsecond] at hagain
      cases congrArg Prod.fst hagain
      obtain ⟨hremains, _⟩ :=
        ((tracks_after hbefore).timedOut_iff id now).1 (congrArg Prod.snd hagain)
      exact (gone_of_reported hbefore hfirst hreported).2 hremains

end Tracking

/-! ## The laws -/

/-- **What holds after any history of calls** under a given idle time. -/
structure Lawful (timeout : Option Nat) (calls : List (StoreCall σ)) : Prop where
  live_iff : ∀ id now,
    ((after timeout calls).perform (.state (some id) now)).2 = .state .live ↔
      Remains timeout calls id ∧ InTime timeout (history timeout calls) id now
  found_iff : ∀ id now session,
    ((after timeout calls).perform (.get id now)).2 = .found (some session) ↔
      Remains timeout calls id ∧ InTime timeout (history timeout calls) id now ∧
        lastStored (history timeout calls) id = some session
  timedOut_iff : ∀ id now,
    ((after timeout calls).perform (.state (some id) now)).2 = .state .timedOut ↔
      Remains timeout calls id ∧ Overdue timeout (history timeout calls) id now
  replaced_iff : ∀ id session now,
    ((after timeout calls).perform (.set id session now)).2 = .replaced true ↔
      Remains timeout calls id
  /-- Of each session it is said once that it has expired, if at all. -/
  reported_once : ∀ id, (history timeout calls).Pairwise fun first second =>
    ¬ (ReportsTimeout id first ∧ ReportsTimeout id second)
  /-- A session of which it was said that it has expired is unknown ever after. -/
  forgotten_of_reported : ∀ answer ∈ history timeout calls, ∀ id, ReportsTimeout id answer →
    (after timeout calls).Forgets id
  /-- So is a session that has gone by any other call. -/
  forgotten : ∀ before call later id, calls = before ++ call :: later → id ∈ created before →
    Ousts timeout (history timeout before) id call → (after timeout calls).Forgets id
  counted : (after timeout calls).size = {id | Remains timeout calls id}.ncard
  /-- Creating a session leaves every other one as it is that has not expired. -/
  spared : ∀ id session swept stored, id ∉ created calls →
    ∀ entry ∈ (after timeout calls).entries, InTime timeout (history timeout calls) entry.id swept →
      ((after timeout calls).perform (.create id session swept stored)).1.find? entry.id =
        some entry

/-- **The life of a session.** However sessions are created under new ids, looked up, replaced,
deleted, cleared and swept, at any readings of the clock: an id is live, or its session found,
exactly if the session was created, has not gone since, and was touched less than the idle time ago;
what is found is the session stored last. That it has expired is reported at most once. A session
that went by deletion, clearing, a sweep or a lookup is unknown ever after. The size is the number
of sessions that remain, and creating another one removes none that has not expired. -/
theorem lifecycle (timeout : Option Nat) (calls : List (StoreCall σ))
    (hfresh : (created calls).Nodup) : Lawful timeout calls := by
  have htracks : Tracks timeout calls := tracks_after hfresh
  constructor
  case live_iff => exact htracks.live_iff
  case found_iff => exact htracks.found_iff
  case timedOut_iff => exact htracks.timedOut_iff
  case replaced_iff => exact htracks.replaced_iff
  case reported_once => exact SessionStore.reported_once hfresh
  case forgotten_of_reported =>
    intro answer hmem id hreports
    exact htracks.forgets (gone_of_reported hfresh hmem hreports).2
  case forgotten =>
    intro before call later id hcalls hmem housts
    apply htracks.forgets
    have hsplit : calls = (before ++ [call]) ++ later := by
      rw [hcalls, List.append_assoc]
      rfl
    subst hsplit
    apply not_remains_append hfresh (mem_created_left [call] hmem)
    exact not_remains_of_ousts (nodup_created_left hfresh) hmem housts
  case counted => exact htracks.size_eq
  case spared =>
    intro id session swept stored hnew entry hentry htime
    have hlater : (created (calls ++ [.create id session swept stored])).Nodup := by
      rw [created_append]
      exact hfresh.append (List.nodup_singleton id) (List.disjoint_singleton.2 hnew)
    have hadded : Tracks timeout (calls ++ [.create id session swept stored]) :=
      tracks_after hlater
    have hdistinct := hadded.distinct
    rw [after_concat] at hdistinct
    apply find?_of_mem hdistinct
    rw [inTime_iff (idleTimeout_after timeout calls) (htracks.touched entry hentry)] at htime
    rw [entries_perform htracks.distinct]
    apply List.mem_append_left
    refine List.mem_filterMap.2 ⟨entry, hentry, ?_⟩
    rw [StoreCall.touch, spare, htime]
    rfl

/-- Of two sessions one expires while the other one is in use. -/
def twoSessions : List (StoreCall Unit) :=
  [.create "first" () 0 0, .state (some "first") 5, .create "second" () 7 8,
    .state (some "first") 15, .get "second" 17]

theorem lifecycle_twoSessions :
    (created twoSessions).Nodup ∧ (after (some 10) twoSessions).Forgets "first" ∧
      {id | Remains (some 10) twoSessions id}.ncard = 1 := by
  have hfresh : (created twoSessions).Nodup := by decide
  have hlaws := lifecycle (some 10) twoSessions hfresh
  have hreported :
      (.state (some "first") 15, .state .timedOut) ∈ history (some 10) twoSessions := by
    decide
  have hsize : (after (some 10) twoSessions).size = 1 := by decide
  refine ⟨hfresh, ?_, ?_⟩
  · exact hlaws.forgotten_of_reported _ hreported "first" ⟨15, rfl⟩
  · rw [← hlaws.counted, hsize]

end SessionStore

end HttpServer
