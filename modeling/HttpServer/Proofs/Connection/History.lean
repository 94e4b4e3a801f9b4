import HttpServer.Proofs.Connection.Registry
import Mathlib.Data.Set.Card

/-!
# The history of a registry

A registry comes about by calls (`RegistryCall`): connections are created, taken out and cleared,
and whoever holds a handle stops the connection or concludes its response. A call does one thing to
each handle that is known already (`RegistryCall.touch`, `Registry.handle?_perform`) and decides
which connections stay registered (`Registry.contains_perform_iff`). From these two follow what
holds in every state (`Registry.sound_after`), that no mark is taken back, and that whatever leaves
a lasting mark is done at most once (`Registry.once_of_mark`). `Registry.lawful_after` puts all of
it together for any history of calls.

Numbers are handed out in order, so they are distinct for as long as they do not run out.
-/

namespace HttpServer

/-- One use of a registry, or of a handle that it gave out. -/
inductive RegistryCall
  | create (remote : Option PeerAddress)
  | remove (id : Nat)
  | clear
  /-- Someone stops the connection by its handle. -/
  | stop (id : Nat)
  /-- Someone concludes the response of the connection. -/
  | conclude (id : Nat)
  deriving DecidableEq

/-- What a call is answered with. -/
inductive RegistryReply
  /-- The number of the new connection. -/
  | created (id : Nat)
  /-- Whether it was this call that did what it asks for. -/
  | answered (effective : Bool)
  | done
  deriving DecidableEq

/-- The number that a reply hands out. -/
def RegistryReply.id? : RegistryReply → Option Nat
  | .created id => some id
  | _ => none

namespace Registry

/-- Makes a call. -/
def perform (r : Registry) : RegistryCall → Registry × RegistryReply
  | .create remote => ((r.create remote).1, .created (r.create remote).2.id)
  | .remove id => ((r.remove id).1, .answered (r.remove id).2)
  | .clear => (r.clear, .done)
  | .stop id => ((r.stop id).1, .answered (r.stop id).2)
  | .conclude id => ((r.conclude id).1, .answered (r.conclude id).2)

/-- Makes calls one after another. -/
def performAll (r : Registry) (calls : List RegistryCall) : Registry :=
  calls.foldl (fun registry call => (registry.perform call).1) r

/-- The replies to calls that are made one after another. -/
def replies (r : Registry) : List RegistryCall → List RegistryReply
  | [] => []
  | call :: calls => (r.perform call).2 :: replies (r.perform call).1 calls

/-- The registry that a history of calls leaves behind. -/
def after (calls : List RegistryCall) : Registry := performAll {} calls

/-- A history goes on from the registry that it has led to. -/
theorem after_append (calls more : List RegistryCall) :
    after (calls ++ more) = (after calls).performAll more :=
  List.foldl_append

/-- The last call is performed on the registry that the others have led to. -/
theorem after_concat (calls : List RegistryCall) (call : RegistryCall) :
    after (calls ++ [call]) = ((after calls).perform call).1 :=
  after_append calls [call]

/-- The replies to a history that goes on are those to its two parts. -/
theorem replies_append (r : Registry) (calls more : List RegistryCall) :
    r.replies (calls ++ more) = r.replies calls ++ (r.performAll calls).replies more := by
  induction calls generalizing r with
  | nil => rfl
  | cons call calls ih => exact congrArg _ (ih _)

end Registry

/-- The connections that a call names. -/
def RegistryCall.names (call : RegistryCall) (r : Registry) : List Nat :=
  match call with
  | .create _ => []
  | .remove id => [id]
  | .clear => r.live
  | .stop id => [id]
  | .conclude id => [id]

/-- **What a call does to the handle** of a connection that is known already. -/
def RegistryCall.touch (call : RegistryCall) (r : Registry) (id : Nat) (h : Handle) : Handle :=
  match call with
  | .create _ => h
  | .remove other => if other = id ∧ r.contains id = true then h.stop.1 else h
  | .clear => if r.contains id = true then h.stop.1 else h
  | .stop other => if other = id then h.stop.1 else h
  | .conclude other => if other = id then h.conclude.1 else h

namespace Handle

/-- No mark of a handle is taken back. -/
structure Retains (h later : Handle) : Prop extends h.Ages later where
  claimed : h.conclusion.claimed = true → later.conclusion.claimed = true

theorem Retains.refl (h : Handle) : h.Retains h := ⟨.refl h, fun hclaimed => hclaimed⟩

/-- Handles are retained in steps. -/
theorem Retains.trans {h mid later : Handle} (first : h.Retains mid) (second : mid.Retains later) :
    h.Retains later :=
  ⟨first.toAges.trans second.toAges, second.claimed ∘ first.claimed⟩

/-- Stopping a handle leaves the claim to its response. -/
theorem retains_stop (h : Handle) : h.Retains h.stop.1 := by
  constructor
  case toAges => exact h.ages_stop
  case claimed =>
    intro hclaimed
    unfold stop
    split <;> exact hclaimed

/-- Once claimed, a response stays claimed. -/
theorem retains_conclude (h : Handle) : h.Retains h.conclude.1 :=
  ⟨h.ages_conclude, fun _ => rfl⟩

/-- **No call takes back a mark** of any handle; the cases are those of the calls. -/
theorem retains_touch (call : RegistryCall) (r : Registry) (id : Nat) (h : Handle) :
    h.Retains (call.touch r id h) := by
  unfold RegistryCall.touch
  split
  · exact .refl h
  · split
    · exact h.retains_stop
    · exact .refl h
  · split
    · exact h.retains_stop
    · exact .refl h
  · split
    · exact h.retains_stop
    · exact .refl h
  · split
    · exact h.retains_conclude
    · exact .refl h

/-- Stopping a handle again does nothing. -/
theorem stop_stop (h : Handle) : h.stop.1.stop.1 = h.stop.1 := by
  rw [stop, if_pos h.stopped_stop]

end Handle

namespace Registry

/-! ## One call -/

/-- Of several connections that are stopped each is stopped once, and the others are left as they
are. -/
theorem handle?_stopAll {r : Registry} {id : Nat} {handle : Handle}
    (h : r.handle? id = some handle) (ids : List Nat) :
    (r.stopAll ids).handle? id = some (if id ∈ ids then handle.stop.1 else handle) := by
  induction ids generalizing r handle with
  | nil => simpa [stopAll] using h
  | cons first ids ih =>
      have hfirst : (r.stop first).1.handle? id =
          some (if first = id then handle.stop.1 else handle) := handle?_modify h first _
      refine (ih hfirst).trans ?_
      by_cases hsame : first = id
      · simp [hsame, handle.stop_stop]
      · simp [hsame, Ne.symm hsame]

/-- **Each known handle is touched by a call in one way.** -/
theorem handle?_perform {r : Registry} {id : Nat} {handle : Handle} (call : RegistryCall)
    (h : r.handle? id = some handle) :
    (r.perform call).1.handle? id = some (call.touch r id handle) := by
  cases call with
  | create remote =>
      obtain ⟨hlt, _⟩ := List.getElem?_eq_some_iff.1 h
      exact (List.getElem?_append_left hlt).trans h
  | remove other =>
      simp only [perform, remove, RegistryCall.touch]
      by_cases hlive : r.contains other = true
      · rw [if_pos hlive]
        refine (handle?_modify h other _).trans ?_
        by_cases hsame : other = id
        · rw [hsame] at hlive
          simp [hsame, hlive]
        · simp [hsame]
      · rw [if_neg hlive, h, if_neg]
        rintro ⟨rfl, hlater⟩
        exact hlive hlater
  | clear =>
      refine (handle?_stopAll h r.live).trans ?_
      simp only [RegistryCall.touch, contains, List.contains_iff_mem]
  | stop other => exact handle?_modify h other _
  | conclude other => exact handle?_modify h other _

/-- Stopping hands out no number. -/
theorem length_stopAll (r : Registry) (ids : List Nat) :
    (r.stopAll ids).handles.length = r.handles.length := by
  induction ids generalizing r with
  | nil => rfl
  | cons id ids ih => exact (ih _).trans (List.length_modify ..)

/-- Only a call that hands out a number makes another connection known. -/
theorem length_perform (r : Registry) (call : RegistryCall) :
    (r.perform call).1.handles.length =
      r.handles.length + (r.perform call).2.id?.toList.length := by
  cases call with
  | create remote => exact List.length_append
  | remove id =>
      simp only [perform, remove]
      split
      · exact List.length_modify ..
      · rfl
  | clear => exact r.length_stopAll r.live
  | stop id => exact List.length_modify ..
  | conclude id => exact List.length_modify ..

/-- A handle that is known after a call was touched by it, or the call has created it. -/
theorem touched_or_fresh {r : Registry} {call : RegistryCall} {id : Nat} {later : Handle}
    (h : (r.perform call).1.handle? id = some later) :
    (∃ handle, r.handle? id = some handle ∧ later = call.touch r id handle) ∨
      ∃ remote, call = .create remote ∧ id = r.handles.length ∧ later = .fresh id remote := by
  cases hknown : r.handle? id with
  | some handle =>
      rw [handle?_perform call hknown, Option.some.injEq] at h
      exact .inl ⟨handle, rfl, h.symm⟩
  | none =>
      have hge : r.handles.length ≤ id := List.getElem?_eq_none_iff.1 hknown
      obtain ⟨hlt, _⟩ := List.getElem?_eq_some_iff.1 h
      rw [length_perform] at hlt
      cases call with
      | create remote =>
          have hid : id = r.handles.length := by
            have hone : (perform r (.create remote)).2.id?.toList.length = 1 := rfl
            omega
          subst hid
          have hnew : (r.perform (.create remote)).1.handle? r.handles.length =
              some (.fresh r.handles.length remote) := List.getElem?_concat_length
          rw [hnew, Option.some.injEq] at h
          exact .inr ⟨remote, rfl, rfl, h.symm⟩
      | remove _ | clear | stop _ | conclude _ => exact absurd hlt (Nat.not_lt.2 hge)

/-- **What stays registered.** A connection is registered after a call if the call has created it,
or if it was registered and the call neither takes it out nor clears the registry. -/
theorem contains_perform_iff (r : Registry) (call : RegistryCall) (id : Nat) :
    (r.perform call).1.contains id = true ↔
      (r.contains id = true ∧ call ≠ .remove id ∧ call ≠ .clear) ∨
        (r.perform call).2 = .created id := by
  cases call with
  | create remote =>
      have hlive : (r.perform (.create remote)).1.contains id = true ↔
          id ∈ r.live ∨ id = r.handles.length := by
        simp [perform, create, contains, Handle.fresh]
      have hnew : (r.perform (.create remote)).2 = .created id ↔ id = r.handles.length := by
        rw [perform, RegistryReply.created.injEq]
        exact eq_comm
      rw [hlive, hnew, contains, List.contains_iff_mem]
      simp
  | remove other =>
      by_cases hlive : r.contains other = true
      · have hrest : (r.perform (.remove other)).1.contains id = true ↔
            id ∈ r.live ∧ id ≠ other := by
          rw [perform, remove, if_pos hlive]
          simp [contains]
        rw [hrest, contains, List.contains_iff_mem, ne_comm]
        simp [perform]
      · have hrest : (r.perform (.remove other)).1 = r := by
          rw [perform, remove, if_neg hlive]
        rw [hrest]
        constructor
        · intro hcontains
          refine .inl ⟨hcontains, ?_, RegistryCall.noConfusion⟩
          rintro ⟨rfl⟩
          exact hlive hcontains
        · rintro (⟨hcontains, _⟩ | hnew)
          · exact hcontains
          · cases hnew
  | clear => simp [perform, clear, contains]
  | stop other => simp [perform, stop, modify, contains]
  | conclude other => simp [perform, conclude, modify, contains]

/-- Registered connections stay distinct: the number of a new one was not known before. -/
theorem nodup_perform {r : Registry} (call : RegistryCall) (hnodup : r.live.Nodup)
    (hknown : ∀ id ∈ r.live, id < r.handles.length) : (r.perform call).1.live.Nodup := by
  cases call with
  | create remote =>
      refine List.nodup_append.2 ⟨hnodup, List.nodup_singleton _, ?_⟩
      rintro id hid _ hnew rfl
      have hlt := hknown id hid
      rw [List.mem_singleton.1 hnew] at hlt
      exact Nat.lt_irrefl _ hlt
  | remove id =>
      simp only [perform, remove]
      split
      · exact hnodup.filter _
      · exact hnodup
  | clear => exact List.nodup_nil
  | stop id => exact hnodup
  | conclude id => exact hnodup

/-! ## Every state -/

/-- **What all registries have in common** that come about by calls. -/
structure Sound (r : Registry) : Prop where
  nodup_live : r.live.Nodup
  known : ∀ id ∈ r.live, id < r.handles.length
  /-- A connection that is not registered any more is stopped. -/
  stopped_of_gone : ∀ id handle, r.handle? id = some handle → r.contains id = false →
    handle.stopped = true
  /-- The stopped connections are the ones whose responses are dead. -/
  stopped_iff_dead : ∀ id handle, r.handle? id = some handle →
    (handle.stopped = true ↔ handle.conclusion.alive = false)

/-- To be stopped and to be dead stays the same. -/
theorem stopped_iff_dead_touch (call : RegistryCall) (r : Registry) (id : Nat) {h : Handle}
    (hdead : h.stopped = true ↔ h.conclusion.alive = false) :
    (call.touch r id h).stopped = true ↔ (call.touch r id h).conclusion.alive = false := by
  have hstop : h.stop.1.stopped = true ↔ h.stop.1.conclusion.alive = false :=
    ⟨h.stop.1.dead_of_stopped, fun _ => h.stopped_stop⟩
  cases call with
  | create remote => exact hdead
  | remove other | clear | stop other =>
      simp only [RegistryCall.touch]
      split
      · exact hstop
      · exact hdead
  | conclude other =>
      simp only [RegistryCall.touch]
      split
      · exact hdead
      · exact hdead

/-- **One call keeps a registry sound.** -/
theorem sound_perform {r : Registry} (h : r.Sound) (call : RegistryCall) :
    (r.perform call).1.Sound where
  nodup_live := nodup_perform call h.nodup_live h.known
  known id hid := by
    rw [length_perform]
    rcases (r.contains_perform_iff call id).1 (List.contains_iff_mem.2 hid) with ⟨hlive, _⟩ | hnew
    · exact Nat.lt_add_right _ (h.known id (List.contains_iff_mem.1 hlive))
    · cases call with
      | create remote =>
          cases hnew
          exact Nat.lt_succ_self _
      | remove _ | clear | stop _ | conclude _ => cases hnew
  stopped_of_gone id later hlater hgone := by
    rcases touched_or_fresh hlater with ⟨handle, hhandle, rfl⟩ | ⟨remote, rfl, rfl, rfl⟩
    · cases hlive : r.contains id with
      | false =>
          exact (handle.retains_touch call r id).stopped (h.stopped_of_gone id handle hhandle hlive)
      | true =>
          -- It was registered, so it is this call that takes it out, and stops it.
          have hout : call = .remove id ∨ call = .clear := by
            by_contra hstays
            rw [not_or] at hstays
            have hkept := (r.contains_perform_iff call id).2 (.inl ⟨hlive, hstays⟩)
            rw [hgone] at hkept
            cases hkept
          rcases hout with rfl | rfl
          · rw [RegistryCall.touch, if_pos ⟨rfl, hlive⟩]
            exact handle.stopped_stop
          · rw [RegistryCall.touch, if_pos hlive]
            exact handle.stopped_stop
    · have hnew := (r.contains_perform_iff (.create remote) r.handles.length).2 (.inr rfl)
      rw [hgone] at hnew
      cases hnew
  stopped_iff_dead id later hlater := by
    rcases touched_or_fresh hlater with ⟨handle, hhandle, rfl⟩ | ⟨remote, _, _, rfl⟩
    · exact stopped_iff_dead_touch call r id (h.stopped_iff_dead id handle hhandle)
    · exact ⟨nofun, nofun⟩

/-- **Every registry is sound**, by induction on the calls from the end. -/
theorem sound_after (calls : List RegistryCall) : (after calls).Sound := by
  induction calls using List.reverseRecOn with
  | nil => exact ⟨List.nodup_nil, nofun, nofun, nofun⟩
  | append_singleton calls call ih =>
      rw [after_concat]
      exact sound_perform ih call

/-- Handles stay known through any calls, with their marks. -/
theorem retains_performAll {r : Registry} {id : Nat} {handle : Handle}
    (h : r.handle? id = some handle) (calls : List RegistryCall) :
    ∃ later, (r.performAll calls).handle? id = some later ∧ handle.Retains later := by
  induction calls generalizing r handle with
  | nil => exact ⟨handle, h, .refl handle⟩
  | cons call calls ih =>
      obtain ⟨later, hlater, hretains⟩ := ih (handle?_perform call h)
      exact ⟨later, hlater, (handle.retains_touch call r id).trans hretains⟩

/-! ## What happens once -/

/-- In a history, at most one call does what is asked for. -/
def Once (calls : List RegistryCall) (does : Registry → RegistryCall → Prop) : Prop :=
  ∀ before call between other later, calls = before ++ call :: (between ++ other :: later) →
    does (after before) call → ¬ does (after (before ++ call :: between)) other

/-- **What leaves a lasting mark happens once**, if it does not happen where the mark is. -/
theorem once_of_mark (mark : Registry → Prop) {does : Registry → RegistryCall → Prop}
    (hlasts : ∀ r call, mark r → mark (r.perform call).1)
    (hleaves : ∀ r call, r.Sound → does r call → mark (r.perform call).1)
    (hmarked : ∀ r call, mark r → ¬ does r call) (calls : List RegistryCall) : Once calls does := by
  rintro before call between other later - hdoes
  refine hmarked _ _ ?_
  rw [after_append]
  have hfirst : mark ((after before).perform call).1 := hleaves _ _ (sound_after before) hdoes
  change mark (((after before).perform call).1.performAll between)
  generalize ((after before).perform call).1 = r at hfirst
  induction between generalizing r with
  | nil => exact hfirst
  | cons next between ih => exact ih _ (hlasts r next hfirst)

/-- The call stops a connection that ran until then. -/
def Stops (r : Registry) (call : RegistryCall) (id : Nat) : Prop :=
  ∃ handle later, r.handle? id = some handle ∧ handle.stopped = false ∧
    (r.perform call).1.handle? id = some later ∧ later.stopped = true

/-- Stopping by the handle says whether it was this call that stopped the connection. -/
theorem stop_answered_iff (r : Registry) (id : Nat) :
    (r.perform (.stop id)).2 = .answered true ↔ r.Stops (.stop id) id := by
  rw [perform, RegistryReply.answered.injEq, stop, Option.any_eq_true]
  constructor
  · rintro ⟨handle, hhandle, hstops⟩
    have hrunning : handle.stopped = false := by
      rw [Handle.stop] at hstops
      split at hstops
      · cases hstops
      · rename_i hrunning
        exact (Bool.not_eq_true _).mp hrunning
    refine ⟨handle, _, hhandle, hrunning, handle?_perform (.stop id) hhandle, ?_⟩
    rw [RegistryCall.touch, if_pos rfl]
    exact handle.stopped_stop
  · rintro ⟨handle, _, hhandle, hrunning, _⟩
    refine ⟨handle, hhandle, ?_⟩
    rw [Handle.stop, if_neg (by simp [hrunning])]

/-- The one who concludes a response is told so if nobody has claimed it before. -/
theorem conclude_answered_iff (r : Registry) (id : Nat) :
    (r.perform (.conclude id)).2 = .answered true ↔
      ∃ handle, r.handle? id = some handle ∧ handle.conclusion.claimed = false := by
  rw [perform, RegistryReply.answered.injEq, conclude, Option.any_eq_true]
  simp [Handle.conclude, Conclusion.conclude]

/-- Taking out a connection is answered with whether it was there. -/
theorem remove_answered_iff (r : Registry) (id : Nat) :
    (r.perform (.remove id)).2 = .answered true ↔ r.contains id = true := by
  rw [perform, RegistryReply.answered.injEq, remove]
  split
  · rename_i hlive
    exact iff_of_true rfl hlive
  · rename_i hgone
    exact iff_of_false Bool.false_ne_true hgone

/-- A connection is taken out once: its number does not come again. -/
theorem once_removed (calls : List RegistryCall) (id : Nat) :
    Once calls fun r call => call = .remove id ∧ (r.perform call).2 = .answered true := by
  -- What was known and is gone is never registered again, for its number is not handed out twice.
  refine once_of_mark (fun r => id < r.handles.length ∧ r.contains id = false) ?_ ?_ ?_ calls
  · rintro r call ⟨hknown, hgone⟩
    refine ⟨Nat.lt_of_lt_of_le hknown ?_, ?_⟩
    · rw [length_perform]
      exact Nat.le_add_right ..
    · rw [← Bool.not_eq_true, contains_perform_iff, hgone]
      rintro (⟨hlive, _⟩ | hnew)
      · cases hlive
      · cases call with
        | create remote =>
            cases hnew
            exact Nat.lt_irrefl _ hknown
        | remove _ | clear | stop _ | conclude _ => cases hnew
  · rintro r _ hsound ⟨rfl, htaken⟩
    have hlive := (r.remove_answered_iff id).1 htaken
    refine ⟨?_, r.contains_remove id⟩
    rw [length_perform]
    exact Nat.lt_add_right _ (hsound.known id (List.contains_iff_mem.1 hlive))
  · rintro r _ ⟨_, hgone⟩ ⟨rfl, htaken⟩
    rw [remove_answered_iff, hgone] at htaken
    cases htaken

/-- A connection is stopped once: the mark that this leaves is not taken back. -/
theorem once_stopped (calls : List RegistryCall) (id : Nat) :
    Once calls fun r call => r.Stops call id := by
  refine once_of_mark (fun r => r.IsStopped id) ?_ ?_ ?_ calls
  · rintro r call ⟨handle, hhandle, hstopped⟩
    exact ⟨_, handle?_perform call hhandle, (handle.retains_touch call r id).stopped hstopped⟩
  · rintro r call _ ⟨_, later, _, _, hlater, hstopped⟩
    exact ⟨later, hlater, hstopped⟩
  · rintro r call ⟨handle, hhandle, hstopped⟩ ⟨found, _, hfound, hrunning, _⟩
    rw [hhandle] at hfound
    cases hfound
    rw [hstopped] at hrunning
    cases hrunning

/-- A response is concluded once: its claim is not taken back. -/
theorem once_concluded (calls : List RegistryCall) (id : Nat) :
    Once calls fun r call => call = .conclude id ∧ (r.perform call).2 = .answered true := by
  refine once_of_mark
    (fun r => ∃ handle, r.handle? id = some handle ∧ handle.conclusion.claimed = true)
    ?_ ?_ ?_ calls
  · rintro r call ⟨handle, hhandle, hclaimed⟩
    exact ⟨_, handle?_perform call hhandle, (handle.retains_touch call r id).claimed hclaimed⟩
  · rintro r _ _ ⟨rfl, hfirst⟩
    obtain ⟨handle, hhandle, _⟩ := (r.conclude_answered_iff id).1 hfirst
    refine ⟨_, handle?_perform (.conclude id) hhandle, ?_⟩
    rw [RegistryCall.touch, if_pos rfl]
    rfl
  · rintro r _ ⟨handle, hhandle, hclaimed⟩ ⟨rfl, hfirst⟩
    obtain ⟨found, hfound, hfree⟩ := (r.conclude_answered_iff id).1 hfirst
    rw [hhandle] at hfound
    cases hfound
    rw [hclaimed] at hfree
    cases hfree

/-! ## Histories -/

/-- The numbers that a history hands out, oldest first. -/
def handedOut (calls : List RegistryCall) : List Nat :=
  (replies {} calls).filterMap RegistryReply.id?

/-- Numbers are handed out in order. -/
theorem handedOut_eq_range (calls : List RegistryCall) :
    handedOut calls = List.range (after calls).handles.length := by
  induction calls using List.reverseRecOn with
  | nil => rfl
  | append_singleton calls call ih =>
      have hlast : handedOut (calls ++ [call]) =
          handedOut calls ++ ((after calls).perform call).2.id?.toList := by
        rw [handedOut, replies_append, List.filterMap_append]
        exact congrArg (handedOut calls ++ ·) (List.filterMap_cons ..)
      rw [hlast, ih, after_concat, length_perform]
      cases call with
      | create remote => exact List.range_succ.symm
      | remove _ | clear | stop _ | conclude _ => exact List.append_nil _

/-- The connection was created, and it was neither taken out nor cleared since. -/
def Remains (calls : List RegistryCall) (id : Nat) : Prop :=
  ∃ before remote later, calls = before ++ .create remote :: later ∧
    ((after before).perform (.create remote)).2 = .created id ∧
    .remove id ∉ later ∧ .clear ∉ later

/-- A connection stays registered unless a call takes it out or clears the registry, and a new one
is registered. -/
theorem remains_concat (calls : List RegistryCall) (call : RegistryCall) (id : Nat) :
    Remains (calls ++ [call]) id ↔
      (Remains calls id ∧ call ≠ .remove id ∧ call ≠ .clear) ∨
        ((after calls).perform call).2 = .created id := by
  constructor
  · rintro ⟨before, remote, later, hcalls, hnew, hremove, hclear⟩
    rcases List.eq_nil_or_concat later with rfl | ⟨later, last, rfl⟩
    · obtain ⟨rfl, hlast⟩ := List.append_inj' hcalls rfl
      cases hlast
      exact .inr hnew
    · rw [List.concat_eq_append] at hcalls hremove hclear
      rw [← List.cons_append, ← List.append_assoc] at hcalls
      obtain ⟨rfl, hlast⟩ := List.append_inj' hcalls rfl
      cases hlast
      simp only [List.mem_append, List.mem_singleton, not_or] at hremove hclear
      exact .inl ⟨⟨before, remote, later, rfl, hnew, hremove.1, hclear.1⟩,
        Ne.symm hremove.2, Ne.symm hclear.2⟩
  · rintro (⟨⟨before, remote, later, rfl, hnew, hremove, hclear⟩, hother, hkept⟩ | hnew)
    · refine ⟨before, remote, later ++ [call], by simp, hnew, ?_, ?_⟩
      · simp [hremove, Ne.symm hother]
      · simp [hclear, Ne.symm hkept]
    · cases call with
      | create remote => exact ⟨calls, remote, [], rfl, hnew, List.not_mem_nil, List.not_mem_nil⟩
      | remove _ | clear | stop _ | conclude _ => cases hnew

/-- **The registry has just those connections** that the history has left in it. -/
theorem contains_after_iff (calls : List RegistryCall) (id : Nat) :
    (after calls).contains id = true ↔ Remains calls id := by
  induction calls using List.reverseRecOn with
  | nil =>
      refine iff_of_false Bool.false_ne_true ?_
      rintro ⟨before, remote, later, hcalls, _⟩
      simp at hcalls
  | append_singleton calls call ih =>
      rw [after_concat, contains_perform_iff, remains_concat, ih]

/-- The size counts every registered connection once. -/
theorem Sound.size_eq {r : Registry} (h : r.Sound) :
    r.size = {id | r.contains id = true}.ncard := by
  have hset : {id | r.contains id = true} = (r.live.toFinset : Set Nat) := by
    ext id
    simp [contains]
  rw [hset, Set.ncard_coe_finset, List.toFinset_card_of_nodup h.nodup_live, size]

/-- A call leaves every connection alone that it does not name. -/
theorem touch_of_not_mem_names {call : RegistryCall} {r : Registry} {id : Nat}
    (h : id ∉ call.names r) (handle : Handle) : call.touch r id handle = handle := by
  cases call with
  | create remote => rfl
  | remove other =>
      have hother : other ≠ id := fun hsame => h (List.mem_singleton.2 hsame.symm)
      exact if_neg fun hnamed => hother hnamed.1
  | clear => exact if_neg fun hlive => h (List.contains_iff_mem.1 hlive)
  | stop other => exact if_neg fun hsame => h (List.mem_singleton.2 hsame.symm)
  | conclude other => exact if_neg fun hsame => h (List.mem_singleton.2 hsame.symm)

/-- **What holds after any history of calls.** -/
structure Lawful (calls : List RegistryCall) : Prop where
  distinct : (handedOut calls).Nodup
  registered : ∀ id, (after calls).contains id = true ↔ Remains calls id
  stopped_of_gone : ∀ id handle, (after calls).handle? id = some handle →
    (after calls).contains id = false → handle.stopped = true
  stopped_iff_dead : ∀ id handle, (after calls).handle? id = some handle →
    (handle.stopped = true ↔ handle.conclusion.alive = false)
  /-- More calls take back neither that a connection is stopped nor that its response is
  concluded. -/
  lasting : ∀ more id handle, (after calls).handle? id = some handle →
    ∃ later, (after (calls ++ more)).handle? id = some later ∧ handle.Retains later
  removed_iff : ∀ id, ((after calls).perform (.remove id)).2 = .answered true ↔
    (after calls).contains id = true
  removed_once : ∀ id, Once calls fun r call =>
    call = .remove id ∧ (r.perform call).2 = .answered true
  /-- Stopping by the handle is answered with whether this call did it. -/
  stopped_iff : ∀ id, ((after calls).perform (.stop id)).2 = .answered true ↔
    (after calls).Stops (.stop id) id
  /-- Of all calls that stop a connection or take it out, one stops it. -/
  stopped_once : ∀ id, Once calls fun r call => r.Stops call id
  concluded_once : ∀ id, Once calls fun r call =>
    call = .conclude id ∧ (r.perform call).2 = .answered true
  counted : (after calls).size = {id | (after calls).contains id = true}.ncard
  /-- A call changes no connection but those that it names. -/
  untouched : ∀ call id handle, (after calls).handle? id = some handle →
    id ∉ call.names (after calls) → ((after calls).perform call).1.handle? id = some handle

/-- **The laws of a registry.** However connections are created, taken out and cleared, and their
handles stopped and their responses concluded: the numbers handed out are distinct, registered are
the connections that were created and neither taken out nor cleared since, all others are stopped,
and a connection is stopped exactly if its response is dead. Nothing of this is taken back. Taking a
connection out succeeds once, and then it was registered; one call stops it, and one concludes its
response. The size is the number of registered connections, and no call changes a connection that it
does not name. -/
theorem lawful_after (calls : List RegistryCall) : Lawful calls := by
  have hsound := sound_after calls
  constructor
  case distinct =>
    rw [handedOut_eq_range]
    exact List.nodup_range
  case registered => exact contains_after_iff calls
  case stopped_of_gone => exact hsound.stopped_of_gone
  case stopped_iff_dead => exact hsound.stopped_iff_dead
  case lasting =>
    intro more id handle hhandle
    rw [after_append]
    exact retains_performAll hhandle more
  case removed_iff => exact (after calls).remove_answered_iff
  case removed_once => exact once_removed calls
  case stopped_iff => exact (after calls).stop_answered_iff
  case stopped_once => exact once_stopped calls
  case concluded_once => exact once_concluded calls
  case counted => exact hsound.size_eq
  case untouched =>
    intro call id handle hhandle hother
    rw [handle?_perform call hhandle, touch_of_not_mem_names hother]

end Registry

end HttpServer
