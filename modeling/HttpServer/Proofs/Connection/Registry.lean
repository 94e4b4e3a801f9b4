import HttpServer.Connection.Registry

/-!
# How a registry ages

Connections stay known, a stopped connection stays stopped and a concluded response concluded
(`Handle.Ages`), and a registered connection is registered until it is stopped (`Registry.Ages`).
Every operation that exchanges perform on the registry ages it. A
connection that is served, that is, registered or already stopped, is stopped when it is taken out
(`Registry.isStopped_remove`).
-/

namespace HttpServer

namespace Handle

/-- **What a handle does not take back.** -/
structure Ages (h later : Handle) : Prop where
  stopped : h.stopped = true → later.stopped = true
  concluded : h.conclusion.hasConcluded = true → later.conclusion.hasConcluded = true

theorem Ages.refl (h : Handle) : h.Ages h where
  stopped hstopped := hstopped
  concluded hconcluded := hconcluded

/-- A handle ages in steps. -/
theorem Ages.trans {h mid later : Handle} (first : h.Ages mid) (second : mid.Ages later) :
    h.Ages later :=
  ⟨second.stopped ∘ first.stopped, second.concluded ∘ first.concluded⟩

/-- A response whose connection has died is over. -/
theorem hasConcluded_die (c : Conclusion) : c.die.hasConcluded = true := by
  rw [Conclusion.hasConcluded, Conclusion.die, Bool.not_false, Bool.or_true]

/-- Stopping a handle stops it, also the second time. -/
theorem stopped_stop (h : Handle) : h.stop.1.stopped = true := by
  unfold stop
  split
  · assumption
  · rfl

/-- Stopping a handle takes back no conclusion. -/
theorem ages_stop (h : Handle) : h.Ages h.stop.1 := by
  refine ⟨fun _ => h.stopped_stop, fun hconcluded => ?_⟩
  unfold stop
  split
  · exact hconcluded
  · exact hasConcluded_die _

/-- Concluding the response revives no connection. -/
theorem ages_conclude (h : Handle) : h.Ages h.conclude.1 where
  stopped hstopped := hstopped
  concluded _ := rfl

/-- The death of a connection revives nothing and takes back no conclusion. -/
theorem ages_die (h : Handle) : h.Ages h.die where
  stopped hstopped := hstopped
  concluded _ := hasConcluded_die _

theorem ages_markTimedOut (h : Handle) : h.Ages h.markTimedOut where
  stopped hstopped := hstopped
  concluded hconcluded := hconcluded

end Handle

namespace Registry

/-- **What a registry does not take back.** -/
def Ages (r later : Registry) : Prop :=
  ∀ id handle, r.handle? id = some handle → ∃ after, later.handle? id = some after ∧
    handle.Ages after ∧ (r.contains id = true → later.contains id = true ∨ after.stopped = true)

/-- The connection is known to be stopped. -/
def IsStopped (r : Registry) (id : Nat) : Prop :=
  ∃ handle, r.handle? id = some handle ∧ handle.stopped = true

/-- The connection is known, and it is registered or stopped. -/
def Serves (r : Registry) (id : Nat) : Prop :=
  ∃ handle, r.handle? id = some handle ∧ (r.contains id = true ∨ handle.stopped = true)

namespace Ages

theorem refl (r : Registry) : r.Ages r :=
  fun _ handle hhandle => ⟨handle, hhandle, .refl handle, .inl⟩

/-- A registry ages in steps. -/
theorem trans {r mid later : Registry} (first : r.Ages mid) (second : mid.Ages later) :
    r.Ages later := by
  intro id handle hhandle
  obtain ⟨between, hbetween, hages, hlive⟩ := first id handle hhandle
  obtain ⟨after, hafter, hlaterAges, hlater⟩ := second id between hbetween
  refine ⟨after, hafter, hages.trans hlaterAges, fun hregistered => ?_⟩
  rcases hlive hregistered with hlive | hdead
  · exact hlater hlive
  · exact .inr (hlaterAges.stopped hdead)

/-- A connection that was stopped stays so while the registry ages. -/
theorem isStopped {r later : Registry} (h : r.Ages later) {id : Nat} (hstopped : r.IsStopped id) :
    later.IsStopped id := by
  obtain ⟨handle, hhandle, hdead⟩ := hstopped
  obtain ⟨after, hafter, hages, _⟩ := h id handle hhandle
  exact ⟨after, hafter, hages.stopped hdead⟩

/-- One that is served stays so, if only as one that was stopped. -/
theorem serves {r later : Registry} (h : r.Ages later) {id : Nat} (hserves : r.Serves id) :
    later.Serves id := by
  obtain ⟨handle, hhandle, hlive | hdead⟩ := hserves
  · obtain ⟨after, hafter, _, hlater⟩ := h id handle hhandle
    exact ⟨after, hafter, hlater hlive⟩
  · obtain ⟨after, hafter, hages, _⟩ := h id handle hhandle
    exact ⟨after, hafter, .inr (hages.stopped hdead)⟩

end Ages

/-- A new connection is served. -/
theorem serves_create (r : Registry) (remote : Option PeerAddress) :
    (r.create remote).1.Serves (r.create remote).2.id := by
  refine ⟨(r.create remote).2, ?_, .inl ?_⟩
  · exact List.getElem?_concat_length
  · exact List.contains_iff_mem.2 (List.mem_append_right _ List.mem_cons_self)

/-- A handle is found as it was after another one was changed, and changed after a change of its
own. -/
theorem handle?_modify {r : Registry} {other : Nat} {handle : Handle}
    (h : r.handle? other = some handle) (id : Nat) (change : Handle → Handle) :
    (r.modify id change).handle? other = some (if id = other then change handle else handle) := by
  rw [handle?] at h
  rw [handle?, modify, List.getElem?_modify, h]
  rfl

/-- A registry ages if the one handle that is changed does. -/
theorem ages_modify (r : Registry) (id : Nat) {change : Handle → Handle}
    (h : ∀ handle : Handle, handle.Ages (change handle)) : r.Ages (r.modify id change) := by
  intro other handle hhandle
  refine ⟨_, handle?_modify hhandle id change, ?_, .inl⟩
  split
  · exact h handle
  · exact .refl handle

/-- Stopping a connection ages the registry. -/
theorem ages_stop (r : Registry) (id : Nat) : r.Ages (r.stop id).1 :=
  r.ages_modify id Handle.ages_stop

/-- A connection that is known can be stopped. -/
theorem isStopped_stop {r : Registry} {id : Nat} {handle : Handle}
    (h : r.handle? id = some handle) : (r.stop id).1.IsStopped id := by
  refine ⟨handle.stop.1, ?_, handle.stopped_stop⟩
  have hlookup := handle?_modify h id fun handle => handle.stop.1
  rw [if_pos rfl] at hlookup
  exact hlookup

/-- Concluding a response ages the registry. -/
theorem ages_conclude (r : Registry) (id : Nat) : r.Ages (r.conclude id).1 :=
  r.ages_modify id Handle.ages_conclude

/-- Connections may leave the registry if they are stopped. -/
theorem ages_live {r later : Registry} (h : r.Ages later) {live : List Nat}
    (hleft : ∀ id handle, r.handle? id = some handle → later.contains id = true →
      live.contains id = true ∨ later.IsStopped id) : r.Ages { later with live } := by
  intro id handle hhandle
  obtain ⟨after, hafter, hages, hlater⟩ := h id handle hhandle
  refine ⟨after, hafter, hages, fun hregistered => ?_⟩
  rcases hlater hregistered with hlive | hdead
  · rcases hleft id handle hhandle hlive with hstays | ⟨found, hfound, hdead⟩
    · exact .inl hstays
    · rw [hafter] at hfound
      cases hfound
      exact .inr hdead
  · exact .inr hdead

/-- A connection that is taken out of the registry is stopped by that. -/
theorem ages_remove (r : Registry) (id : Nat) : r.Ages (r.remove id).1 := by
  unfold remove
  split
  · refine ages_live (r.ages_stop id) fun other handle hhandle hlive => ?_
    by_cases hsame : other = id
    · rw [hsame] at hhandle ⊢
      exact .inr (isStopped_stop hhandle)
    · refine .inl ?_
      rw [contains, stop, modify, List.contains_iff_mem] at hlive
      rw [List.contains_iff_mem]
      exact List.mem_filter.2 ⟨hlive, by simpa using hsame⟩
  · exact .refl r

/-- A connection that was served is stopped when it is taken out. -/
theorem isStopped_remove {r : Registry} {id : Nat} (h : r.Serves id) :
    (r.remove id).1.IsStopped id := by
  obtain ⟨handle, hhandle, hlive | hdead⟩ := h
  · rw [remove, if_pos hlive]
    exact isStopped_stop hhandle
  · exact (r.ages_remove id).isStopped ⟨handle, hhandle, hdead⟩

/-- What is taken out is registered no more. -/
theorem contains_remove (r : Registry) (id : Nat) : (r.remove id).1.contains id = false := by
  unfold remove
  split
  · simp [contains]
  · rename_i habsent
    simpa using habsent

/-- Stops connections one after another. -/
def stopAll (r : Registry) (ids : List Nat) : Registry :=
  ids.foldl (fun registry id => (registry.stop id).1) r

/-- Stopping any number of connections ages the registry. -/
theorem ages_stopAll (r : Registry) (ids : List Nat) : r.Ages (r.stopAll ids) := by
  induction ids generalizing r with
  | nil => exact .refl r
  | cons id ids ih => exact (r.ages_stop id).trans (ih _)

/-- Stopping takes no connection out. -/
theorem live_stopAll (r : Registry) (ids : List Nat) : (r.stopAll ids).live = r.live := by
  induction ids generalizing r with
  | nil => rfl
  | cons id ids ih => exact ih (r.stop id).1

/-- Each of those that are to be stopped is, whatever the others are. -/
theorem isStopped_stopAll {r : Registry} {ids : List Nat} {id : Nat} {handle : Handle}
    (hid : id ∈ ids) (h : r.handle? id = some handle) : (r.stopAll ids).IsStopped id := by
  induction ids generalizing r handle with
  | nil => cases hid
  | cons first ids ih =>
      rcases List.mem_cons.1 hid with rfl | hid
      · exact (ages_stopAll _ ids).isStopped (isStopped_stop h)
      · exact ih hid (handle?_modify h first _)

/-- Clearing the registry stops every connection in it, and so ages it. -/
theorem ages_clear (r : Registry) : r.Ages r.clear := by
  refine ages_live (r.ages_stopAll r.live) fun id handle hhandle hlive => .inr ?_
  rw [contains, live_stopAll, List.contains_iff_mem] at hlive
  exact isStopped_stopAll hlive hhandle

end Registry

end HttpServer
