import HttpServer.Connection.Transport

/-!
# What a stream delivers

The bytes that a stream delivers before it ends, fails or falls silent stand in its script
(`Incoming.content`). How they are cut into arrivals, when they arrive and how many of them a read
asks for decides only which of them one read delivers: no read loses or invents a byte
(`Incoming.finds_poll`).
-/

namespace HttpServer

/-- The bytes that arrive before anything but bytes and pauses. -/
def Arrival.content : List Arrival → Bytes
  -- Whoever reads no bytes takes this for the end of the stream.
  | .bytes [] :: _ => []
  | .bytes data :: rest => data ++ content rest
  | .pause _ :: rest => content rest
  | _ => []

namespace Incoming

/-- The bytes that a stream delivers before it ends, fails or falls silent. -/
def content (i : Incoming) : Bytes := Arrival.content i.script

theorem content_bytes {data : Bytes} (h : data ≠ []) (rest : List Arrival) (due : Option Nat) :
    content { script := .bytes data :: rest, due } = data ++ Arrival.content rest := by
  cases data with
  | nil => exact absurd rfl h
  | cons first others => rfl

theorem content_ofBytes (data : Bytes) : (ofBytes data).content = data := by
  unfold ofBytes
  split
  · rename_i hnone
    exact hnone.symm
  · rename_i hsome
    exact (content_bytes hsome [] none).trans (List.append_nil data)

/-- **What a read can find** in a stream that has these bytes to deliver. -/
inductive Finds (content : Bytes) : Incoming × Delivery → Prop
  | bytes {later : Incoming} {data : Bytes} (hdata : data ≠ [])
      (hcontent : content = data ++ later.content) : Finds content (later, .bytes data)
  | ends {later : Incoming} (hnone : content = []) : Finds content (later, .bytes [])
  | fails {later : Incoming} (failure : IoError) (hnone : content = []) :
      Finds content (later, .failure failure)
  | pauses {later : Incoming} (due : Option Nat) (hsame : later.content = content) :
      Finds content (later, .later due)

theorem finds_pollScript {size : Nat} (hsize : 0 < size) (now : Nat) (due : Option Nat)
    (script : List Arrival) :
    Finds (Arrival.content script) (pollScript size now due script) := by
  induction script generalizing due with
  | nil => exact .ends rfl
  | cons arrival rest ih =>
      cases arrival with
      | bytes data =>
          by_cases hdata : data = []
          · subst hdata
            rw [pollScript, if_pos (by simp)]
            exact .ends rfl
          have hcontent := content_bytes hdata rest none
          rw [content] at hcontent
          rw [hcontent, pollScript]
          split
          · exact .bytes hdata rfl
          · rename_i hlong
            have hrest : data.drop size ≠ [] := by
              rw [ne_eq, List.drop_eq_nil_iff]
              omega
            refine .bytes ?_ ?_
            · rw [ne_eq, List.take_eq_nil_iff]
              exact not_or.2 ⟨by omega, hdata⟩
            · rw [content_bytes hrest, ← List.append_assoc, List.take_append_drop]
      | pause ms =>
          rw [pollScript]
          split
          · exact ih none
          · exact .pauses _ rfl
      | failure e => exact .fails e rfl
      | close => exact .ends rfl
      | silence => exact .pauses none rfl

/-- **No read loses or invents a byte.** -/
theorem finds_poll (i : Incoming) {size : Nat} (hsize : 0 < size) (now : Nat) :
    Finds i.content (i.poll size now) :=
  finds_pollScript hsize now i.due i.script

/-- The stream brings bytes until it ends. -/
def OnlyBytes (i : Incoming) : Prop :=
  ∀ arrival ∈ i.script, ∃ data, data ≠ [] ∧ arrival = .bytes data

/-- A stream of bytes that has not ended delivers some of them, and goes on like that. -/
theorem OnlyBytes.exists_poll {i : Incoming} (h : i.OnlyBytes) (hsome : i.script ≠ []) {size : Nat}
    (hsize : 0 < size) (now : Nat) :
    ∃ later data, data ≠ [] ∧ i.poll size now = (later, .bytes data) ∧ later.OnlyBytes := by
  obtain ⟨_ | ⟨arrival, rest⟩, due⟩ := i
  · exact absurd rfl hsome
  obtain ⟨⟨data, hdata, rfl⟩, hrest⟩ := List.forall_mem_cons.1 h
  rw [poll, pollScript]
  split
  · exact ⟨_, data, hdata, rfl, hrest⟩
  · rename_i hlong
    refine ⟨_, data.take size, ?_, rfl, List.forall_mem_cons.2 ⟨⟨_, ?_, rfl⟩, hrest⟩⟩
    · rw [ne_eq, List.take_eq_nil_iff]
      exact not_or.2 ⟨by omega, hdata⟩
    · rw [ne_eq, List.drop_eq_nil_iff]
      omega

end Incoming

end HttpServer
