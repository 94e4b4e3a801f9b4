import HttpServer.Session.Store
import Mathlib.Data.List.Nodup

/-!
# What a call does to stored sessions

A store is used by calls (`StoreCall`). A call does one thing to each session that is stored
(`StoreCall.touch`, `SessionStore.entries_perform`), as long as ids are distinct, and its answer
tells what it has done to the session that it names (`SessionStore.answers_of_mem`,
`SessionStore.recorded_touch`).
-/

namespace HttpServer

variable {σ : Type}

/-- One use of a store, with the readings of the clock that it takes. -/
inductive StoreCall (σ : Type)
  /-- The store is swept at the first reading, and the session stored at the second one. -/
  | create (id : String) (session : σ) (swept stored : Nat)
  | get (id : String) (now : Nat)
  | set (id : String) (session : σ) (now : Nat)
  | delete (id : String)
  | clear
  | sweep (now : Nat)
  | state (id : Option String) (now : Nat)
  deriving DecidableEq

/-- What a call is answered with. -/
inductive StoreReply (σ : Type)
  | found (session : Option σ)
  /-- Whether there was a session to replace. -/
  | replaced (known : Bool)
  | swept (count : Nat)
  | state (state : SessionState)
  | done
  deriving DecidableEq

/-- The call has come upon a session that is live, or has replaced one. -/
def StoreReply.isHit : StoreReply σ → Bool
  | .found session => session.isSome
  | .replaced known => known
  | .state told => told = .live
  | _ => false

namespace StoreCall

/-- The id under which a call creates a session. -/
def newId? : StoreCall σ → Option String
  | .create id .. => some id
  | _ => none

/-- When an answered call touched the session of an id: it has created, found or replaced it. -/
def touched? (id : String) : StoreCall σ × StoreReply σ → Option Nat
  | (.create other _ _ stored, _) => if other = id then some stored else none
  | (.get other now, reply) => if other = id ∧ reply.isHit then some now else none
  | (.set other _ now, reply) => if other = id ∧ reply.isHit then some now else none
  | (.state other now, reply) => if other = some id ∧ reply.isHit then some now else none
  | _ => none

/-- The session that an answered call has stored under an id. -/
def stored? (id : String) : StoreCall σ × StoreReply σ → Option σ
  | (.create other session _ _, _) => if other = id then some session else none
  | (.set other session _, reply) => if other = id ∧ reply.isHit then some session else none
  | _ => none

end StoreCall

namespace SessionStore

/-- Makes a call. -/
def perform (s : SessionStore σ) : StoreCall σ → SessionStore σ × StoreReply σ
  | .create id session swept stored => (s.create id session swept stored, .done)
  | .get id now => ((s.get id now).1, .found (s.get id now).2)
  | .set id session now => ((s.set id session now).1, .replaced (s.set id session now).2)
  | .delete id => (s.delete id, .done)
  | .clear => (s.clear, .done)
  | .sweep now => ((s.sweep now).1, .swept (s.sweep now).2)
  | .state id now => ((s.state id now).1, .state (s.state id now).2)

/-- The store does not know the id, whatever it is asked. -/
def Forgets (s : SessionStore σ) (id : String) : Prop :=
  ∀ now, (s.perform (.state (some id) now)).2 = .state .notFound ∧
    (s.perform (.get id now)).2 = .found none ∧
    ∀ session, (s.perform (.set id session now)).2 = .replaced false

end SessionStore

/-! ## Stored sessions -/

/-- What a lookup makes of an entry: the one it looks for is touched, or dropped if it has
expired. -/
def SessionStore.visit (s : SessionStore σ) (id : String) (now : Nat) (entry : SessionEntry σ) :
    Option (SessionEntry σ) :=
  if id = entry.id then
    if s.isExpired entry now then none else some { entry with lastAccess := now }
  else some entry

/-- What a sweep makes of an entry. -/
def SessionStore.spare (s : SessionStore σ) (now : Nat) (entry : SessionEntry σ) :
    Option (SessionEntry σ) :=
  if !s.isExpired entry now then some entry else none

namespace StoreCall

/-- **What a call makes of an entry** that is stored. -/
def touch (call : StoreCall σ) (s : SessionStore σ) (entry : SessionEntry σ) :
    Option (SessionEntry σ) :=
  match call with
  | .create _ _ swept _ => s.spare swept entry
  | .get id now => s.visit id now entry
  | .set id session now =>
    if id = entry.id then some { entry with session, lastAccess := now } else some entry
  | .delete id => if entry.id != id then some entry else none
  | .clear => none
  | .sweep now => s.spare now entry
  | .state none _ => some entry
  | .state (some id) now => s.visit id now entry

/-- The entry that a call adds. -/
def fresh : StoreCall σ → List (SessionEntry σ)
  | .create id session _ stored => [{ id, session, lastAccess := stored }]
  | _ => []

/-- A session keeps its id. -/
theorem id_of_touch {call : StoreCall σ} {s : SessionStore σ} {entry later : SessionEntry σ}
    (h : call.touch s entry = some later) : later.id = entry.id := by
  unfold touch SessionStore.spare SessionStore.visit at h
  grind

/-- Only the creation of a session adds one, with the id of the call. -/
theorem map_id_fresh (call : StoreCall σ) :
    call.fresh.map SessionEntry.id = call.newId?.toList := by
  cases call <;> rfl

end StoreCall

namespace SessionStore

/-- The ids of the stored sessions. -/
def ids (s : SessionStore σ) : List String := s.entries.map SessionEntry.id

/-- Where ids are distinct, a stored session is found by its own. -/
theorem find?_of_mem {s : SessionStore σ} (hdistinct : s.ids.Nodup) {entry : SessionEntry σ}
    (hmem : entry ∈ s.entries) : s.find? entry.id = some entry := by
  rw [find?]
  cases hfound : s.entries.find? fun other => other.id == entry.id with
  | none => simpa using List.find?_eq_none.1 hfound entry hmem
  | some other =>
      have hid : other.id = entry.id := by simpa using List.find?_some hfound
      rw [List.inj_on_of_nodup_map hdistinct (List.mem_of_find?_eq_some hfound) hmem hid]

/-- An unknown id is not found. -/
theorem find?_of_not_mem {s : SessionStore σ} {id : String} (hunknown : id ∉ s.ids) :
    s.find? id = none := by
  apply List.find?_eq_none.2
  intro entry hmem hid
  apply hunknown
  rw [← beq_iff_eq.1 hid]
  exact List.mem_map_of_mem hmem

theorem ne_of_not_mem_ids {s : SessionStore σ} {id : String} (hunknown : id ∉ s.ids)
    {entry : SessionEntry σ} (hmem : entry ∈ s.entries) : id ≠ entry.id := by
  intro hid
  rw [hid] at hunknown
  exact hunknown (List.mem_map_of_mem hmem)

/-- **Looking up a stored session** forgets it if it has expired, and touches it otherwise. -/
theorem lookup_of_mem {s : SessionStore σ} (hdistinct : s.ids.Nodup) {entry : SessionEntry σ}
    (hmem : entry ∈ s.entries) (now : Nat) :
    s.lookup entry.id now =
      if s.isExpired entry now then (s.delete entry.id, .error .timedOut)
      else (s.modify entry.id fun entry => { entry with lastAccess := now },
        .ok entry.session) := by
  rw [lookup, find?_of_mem hdistinct hmem]

/-- Looking up an unknown id changes nothing. -/
theorem lookup_of_not_mem {s : SessionStore σ} {id : String} (hunknown : id ∉ s.ids) (now : Nat) :
    s.lookup id now = (s, .error .notFound) := by
  rw [lookup, find?_of_not_mem hunknown]

/-- A filter as one of those changes that touch every session. -/
theorem filter_eq_filterMap {α : Type} (p : α → Bool) (l : List α) :
    l.filter p = l.filterMap fun a => if p a then some a else none := by
  rw [← List.filterMap_eq_filter]
  rfl

/-- Nothing happens to a store of which a call changes no entry. -/
theorem filterMap_eq_self {l : List (SessionEntry σ)}
    {f : SessionEntry σ → Option (SessionEntry σ)} (h : ∀ entry ∈ l, f entry = some entry) :
    l.filterMap f = l :=
  (List.filterMap_congr h).trans List.filterMap_some

/-- A sweep spares the sessions that have not expired. -/
theorem entries_sweep (s : SessionStore σ) (now : Nat) :
    (s.sweep now).1.entries = s.entries.filterMap (s.spare now) :=
  filter_eq_filterMap _ _

/-- A lookup visits the one session that it names. -/
theorem entries_lookup {s : SessionStore σ} (hdistinct : s.ids.Nodup) (id : String) (now : Nat) :
    (s.lookup id now).1.entries = s.entries.filterMap (s.visit id now) := by
  by_cases hknown : id ∈ s.ids
  · obtain ⟨entry, hmem, rfl⟩ := List.mem_map.1 hknown
    -- The entry that is looked up decides, and it is the only one with its id.
    have hsame (other : SessionEntry σ) (hother : other ∈ s.entries) (hid : entry.id = other.id) :
        other = entry := List.inj_on_of_nodup_map hdistinct hother hmem hid.symm
    rw [lookup_of_mem hdistinct hmem]
    split
    · rename_i hexpired
      rw [delete, filter_eq_filterMap]
      apply List.filterMap_congr
      intro other hother
      rw [visit]
      by_cases hid : entry.id = other.id
      · rw [if_neg (by simp [hid]), if_pos hid, hsame other hother hid, if_pos hexpired]
      · rw [if_pos (by simpa using Ne.symm hid), if_neg hid]
    · rename_i hlive
      rw [modify, ← List.filterMap_eq_map]
      apply List.filterMap_congr
      intro other hother
      rw [visit, Function.comp_apply]
      by_cases hid : entry.id = other.id
      · rw [if_pos (beq_iff_eq.2 hid.symm), if_pos hid, hsame other hother hid, if_neg hlive]
      · rw [if_neg (by simpa using Ne.symm hid), if_neg hid]
  · rw [lookup_of_not_mem hknown]
    symm
    apply filterMap_eq_self
    intro entry hmem
    exact if_neg (ne_of_not_mem_ids hknown hmem)

/-- Getting the data of a session is a lookup. -/
theorem get_fst (s : SessionStore σ) (id : String) (now : Nat) :
    (s.get id now).1 = (s.lookup id now).1 := by
  rw [get]
  split
  · next h => rw [h]
  · next h => rw [h]

theorem state_fst (s : SessionStore σ) (id : String) (now : Nat) :
    (s.state (some id) now).1 = (s.lookup id now).1 := by
  rw [state]
  split
  · next h => rw [h]
  · next h => rw [h]

/-- A session is replaced whether or not it has expired. -/
theorem set_of_mem {s : SessionStore σ} (hdistinct : s.ids.Nodup) {entry : SessionEntry σ}
    (hmem : entry ∈ s.entries) (session : σ) (now : Nat) :
    s.set entry.id session now =
      (s.modify entry.id fun entry => { entry with session, lastAccess := now }, true) := by
  rw [set, find?_of_mem hdistinct hmem]

/-- An unknown session is not replaced. -/
theorem set_of_not_mem {s : SessionStore σ} {id : String} (hunknown : id ∉ s.ids) (session : σ)
    (now : Nat) : s.set id session now = (s, false) := by
  rw [set, find?_of_not_mem hunknown]

/-- **What a call does to the store.** Each entry is touched in one way, and an entry that a call
adds comes last. -/
theorem entries_perform {s : SessionStore σ} (hdistinct : s.ids.Nodup) (call : StoreCall σ) :
    (s.perform call).1.entries = s.entries.filterMap (call.touch s) ++ call.fresh := by
  cases call with
  | create id session swept stored =>
      exact congrArg (· ++ [_]) (s.entries_sweep swept)
  | get id now =>
      rw [perform, get_fst, entries_lookup hdistinct]
      exact (List.append_nil _).symm
  | set id session now =>
      apply Eq.trans _ (List.append_nil _).symm
      rw [perform]
      by_cases hknown : id ∈ s.ids
      · obtain ⟨entry, hmem, rfl⟩ := List.mem_map.1 hknown
        rw [set_of_mem hdistinct hmem, modify, ← List.filterMap_eq_map]
        apply List.filterMap_congr
        intro other _
        rw [StoreCall.touch, Function.comp_apply]
        by_cases hid : entry.id = other.id
        · rw [if_pos (beq_iff_eq.2 hid.symm), if_pos hid]
        · rw [if_neg (by simpa using Ne.symm hid), if_neg hid]
      · rw [set_of_not_mem hknown]
        symm
        apply filterMap_eq_self
        intro entry hmem
        exact if_neg (ne_of_not_mem_ids hknown hmem)
  | delete id =>
      exact (filter_eq_filterMap _ _).trans (List.append_nil _).symm
  | clear =>
      apply Eq.trans _ (List.append_nil _).symm
      symm
      exact List.filterMap_eq_nil_iff.2 fun _ _ => rfl
  | sweep now =>
      exact (s.entries_sweep now).trans (List.append_nil _).symm
  | state id now =>
      apply Eq.trans _ (List.append_nil _).symm
      cases id with
      | none => exact (filterMap_eq_self fun _ _ => rfl).symm
      | some id =>
          rw [perform, state_fst, entries_lookup hdistinct]
          rfl

/-- No call changes the idle time. -/
theorem idleTimeout_perform (s : SessionStore σ) (call : StoreCall σ) :
    (s.perform call).1.idleTimeout = s.idleTimeout := by
  have hlookup (id : String) (now : Nat) : (s.lookup id now).1.idleTimeout = s.idleTimeout := by
    rw [lookup]
    split
    · rfl
    · split <;> rfl
  cases call with
  | get id now =>
      rw [perform, get_fst]
      exact hlookup id now
  | set id session now =>
      rw [perform, set]
      split <;> rfl
  | state id now =>
      cases id with
      | none => rfl
      | some id =>
          rw [perform, state_fst]
          exact hlookup id now
  | create _ _ _ _ | delete _ | clear | sweep _ => rfl

/-- Ids stay distinct as long as the ids of new sessions are new. -/
theorem distinct_perform {s : SessionStore σ} (hdistinct : s.ids.Nodup) {call : StoreCall σ}
    (hnew : ∀ id ∈ s.ids, call.newId? ≠ some id) : (s.perform call).1.ids.Nodup := by
  have hkept : ((s.entries.filterMap (call.touch s)).map SessionEntry.id).Nodup := by
    rw [ids, List.Nodup, List.pairwise_map] at hdistinct
    rw [List.Nodup, List.pairwise_map, List.pairwise_filterMap]
    apply hdistinct.imp
    intro first second hne later hlater other hother
    rw [StoreCall.id_of_touch hlater, StoreCall.id_of_touch hother]
    exact hne
  rw [ids, entries_perform hdistinct, List.map_append, StoreCall.map_id_fresh]
  apply hkept.append
  · cases call.newId? <;> simp
  · intro id hid hfresh
    obtain ⟨later, hlater, rfl⟩ := List.mem_map.1 hid
    obtain ⟨entry, hentry, htouch⟩ := List.mem_filterMap.1 hlater
    rw [StoreCall.id_of_touch htouch] at hfresh
    exact hnew entry.id (List.mem_map_of_mem hentry) (Option.mem_toList.1 hfresh)

/-! ## Answers -/

/-- How a store answers a lookup of a session that it has. -/
theorem answers_of_mem {s : SessionStore σ} (hdistinct : s.ids.Nodup) {entry : SessionEntry σ}
    (hmem : entry ∈ s.entries) (now : Nat) :
    (s.perform (.get entry.id now)).2 =
        .found (if s.isExpired entry now then none else some entry.session) ∧
      (s.perform (.state (some entry.id) now)).2 =
        .state (if s.isExpired entry now then .timedOut else .live) ∧
      ∀ session, (s.perform (.set entry.id session now)).2 = .replaced true := by
  refine ⟨?_, ?_, fun session => ?_⟩
  · rw [perform, get, lookup_of_mem hdistinct hmem]
    cases s.isExpired entry now <;> rfl
  · rw [perform, state, lookup_of_mem hdistinct hmem]
    cases s.isExpired entry now <;> rfl
  · rw [perform, set_of_mem hdistinct hmem]

/-- How a store answers for a session that it has not. -/
theorem forgets_of_not_mem {s : SessionStore σ} {id : String} (hunknown : id ∉ s.ids) :
    s.Forgets id := by
  intro now
  refine ⟨?_, ?_, fun session => ?_⟩
  · rw [perform, state, lookup_of_not_mem hunknown]
  · rw [perform, get, lookup_of_not_mem hunknown]
  · rw [perform, set_of_not_mem hunknown]

/-- What a sweep spares it leaves as it is. -/
theorem eq_of_spare {s : SessionStore σ} {now : Nat} {entry later : SessionEntry σ}
    (h : s.spare now entry = some later) : later = entry := by
  rw [spare] at h
  grind

/-- What a lookup leaves is another session as it was, or the one that it has touched. -/
theorem of_visit {s : SessionStore σ} {id : String} {now : Nat} {entry later : SessionEntry σ}
    (h : s.visit id now entry = some later) :
    (id ≠ entry.id ∧ later = entry) ∨
      (id = entry.id ∧ s.isExpired entry now = false ∧
        later = { entry with lastAccess := now }) := by
  rw [visit] at h
  grind

/-- The answer to a call tells what the call does to an entry. -/
theorem recorded_touch {s : SessionStore σ} (hdistinct : s.ids.Nodup)
    {entry later : SessionEntry σ} (hmem : entry ∈ s.entries) {call : StoreCall σ}
    (hnew : call.newId? ≠ some entry.id) (htouch : call.touch s entry = some later) :
    (StoreCall.touched? entry.id (call, (s.perform call).2)).or (some entry.lastAccess) =
        some later.lastAccess ∧
      (StoreCall.stored? entry.id (call, (s.perform call).2)).or (some entry.session) =
        some later.session := by
  cases call with
  | create id session swept stored =>
      have hother : id ≠ entry.id := fun hid => hnew (congrArg some hid)
      simp [StoreCall.touched?, StoreCall.stored?, hother, eq_of_spare htouch]
  | get id now =>
      rcases of_visit htouch with ⟨hother, rfl⟩ | ⟨rfl, hlive, rfl⟩
      · simp [StoreCall.touched?, StoreCall.stored?, hother]
      · rw [(answers_of_mem hdistinct hmem now).1, hlive]
        simp [StoreCall.touched?, StoreCall.stored?, StoreReply.isHit]
  | set id session now =>
      rw [StoreCall.touch] at htouch
      by_cases hid : id = entry.id
      · rw [hid, (answers_of_mem hdistinct hmem now).2.2]
        rw [if_pos hid, Option.some.injEq] at htouch
        simp [StoreCall.touched?, StoreCall.stored?, StoreReply.isHit, ← htouch]
      · rw [if_neg hid, Option.some.injEq] at htouch
        simp [StoreCall.touched?, StoreCall.stored?, hid, ← htouch]
  | delete id =>
      rw [StoreCall.touch] at htouch
      have hsame : later = entry := by grind
      simp [StoreCall.touched?, StoreCall.stored?, hsame]
  | clear => cases htouch
  | sweep now => simp [StoreCall.touched?, StoreCall.stored?, eq_of_spare htouch]
  | state id now =>
      cases id with
      | none =>
          cases htouch
          simp [StoreCall.touched?, StoreCall.stored?]
      | some id =>
          rcases of_visit htouch with ⟨hother, rfl⟩ | ⟨rfl, hlive, rfl⟩
          · simp [StoreCall.touched?, StoreCall.stored?, hother]
          · rw [(answers_of_mem hdistinct hmem now).2.1, hlive]
            simp [StoreCall.touched?, StoreCall.stored?, StoreReply.isHit]

/-- The ids after a call are those of the sessions that it leaves, and that of the one that it
creates. -/
theorem mem_ids_perform_iff {s : SessionStore σ} (hdistinct : s.ids.Nodup) (call : StoreCall σ)
    (id : String) :
    id ∈ (s.perform call).1.ids ↔
      (∃ entry ∈ s.entries, entry.id = id ∧ call.touch s entry ≠ none) ∨ call.newId? = some id := by
  rw [ids, entries_perform hdistinct, List.map_append, StoreCall.map_id_fresh, List.mem_append,
    Option.mem_toList]
  apply or_congr_left
  constructor
  · intro h
    obtain ⟨later, hlater, rfl⟩ := List.mem_map.1 h
    obtain ⟨entry, hentry, htouch⟩ := List.mem_filterMap.1 hlater
    refine ⟨entry, hentry, (StoreCall.id_of_touch htouch).symm, ?_⟩
    rw [htouch]
    exact Option.some_ne_none later
  · intro h
    obtain ⟨entry, hentry, rfl, hkept⟩ := h
    obtain ⟨later, htouch⟩ := Option.ne_none_iff_exists'.1 hkept
    rw [← StoreCall.id_of_touch htouch]
    exact List.mem_map_of_mem (List.mem_filterMap.2 ⟨entry, hentry, htouch⟩)

/-- An entry after a call was touched by it, or the call has added it. -/
theorem touched_or_fresh {s : SessionStore σ} (hdistinct : s.ids.Nodup) {call : StoreCall σ}
    {later : SessionEntry σ} (h : later ∈ (s.perform call).1.entries) :
    (∃ entry ∈ s.entries, call.touch s entry = some later) ∨ later ∈ call.fresh := by
  rw [entries_perform hdistinct, List.mem_append, List.mem_filterMap] at h
  exact h

/-- The answer to a call that creates a session tells of the entry that it adds. -/
theorem recorded_fresh {call : StoreCall σ} {later : SessionEntry σ} (h : later ∈ call.fresh)
    (reply : StoreReply σ) :
    StoreCall.touched? later.id (call, reply) = some later.lastAccess ∧
      StoreCall.stored? later.id (call, reply) = some later.session := by
  cases call with
  | create id session swept stored =>
      cases List.mem_singleton.1 h
      simp [StoreCall.touched?, StoreCall.stored?]
  | get _ _ | set _ _ _ | delete _ | clear | sweep _ | state _ _ => cases h

end SessionStore

end HttpServer
