import HttpServer.Proofs.Connection.Registry
import HttpServer.Proofs.Exchange.Running

/-!
# How exchanges evolve

Nothing that a handler does takes an exchange to another connection, changes the received header,
takes back what was written or a header that was sent, writes to a stopped connection or revives it
(`Exchange.Evolves`). What sends a response also leaves the request, the files and the sessions
alone (`Exchange.Sends`), what sends nothing leaves the response alone (`Exchange.Withholds`), and
the tasks that act while someone waits do both (`Exchange.Waits`). This is shown of each operation,
and so it holds of every program (`Action.evolves_run`).
-/

namespace HttpServer

/-- Both take the same bytes, whatever was written already. -/
def Outgoing.SamePeer (o other : Outgoing) : Prop :=
  o.limit = other.limit ∧ o.refusal = other.refusal ∧ o.flushFailure = other.flushFailure

theorem Outgoing.SamePeer.refl (o : Outgoing) : o.SamePeer o := ⟨rfl, rfl, rfl⟩

theorem Outgoing.SamePeer.trans {o mid other : Outgoing} (first : o.SamePeer mid)
    (second : mid.SamePeer other) : o.SamePeer other :=
  ⟨first.1.trans second.1, first.2.1.trans second.2.1, first.2.2.trans second.2.2⟩

namespace Exchange

variable {ν : Type}

/-- A connection is stopped exactly if the registry knows it to be. -/
theorem isStopped_iff (e : Exchange ν) :
    e.isStopped = true ↔ e.registry.IsStopped e.connection := by
  rw [isStopped, handle]
  constructor
  · intro hstopped
    cases hhandle : e.registry.handle? e.connection with
    | none =>
        rw [hhandle] at hstopped
        cases hstopped
    | some handle =>
        rw [hhandle] at hstopped
        exact ⟨handle, hhandle, hstopped⟩
  · rintro ⟨handle, hhandle, hstopped⟩
    rw [hhandle]
    exact hstopped

/-- **What stays as it is** while an exchange goes on, whatever its handler does. -/
structure Evolves (e later : Exchange ν) : Prop where
  connection : later.connection = e.connection
  settings : later.settings = e.settings
  header : later.request.map Request.header = e.request.map Request.header
  written : e.outgoing.written <+: later.outgoing.written
  headerSent : e.response.headerSent = true → later.response.headerSent = true
  registry : e.registry.Ages later.registry
  peer : later.outgoing.SamePeer e.outgoing
  silent : e.isStopped = true → later.outgoing.written = e.outgoing.written

/-- What stays as it is while a response is sent. -/
structure Sends (e later : Exchange ν) : Prop extends Evolves e later where
  request : later.request = e.request
  incoming : later.incoming = e.incoming
  files : later.files = e.files
  sessions : later.sessions = e.sessions

/-- What stays as it is while nothing is sent. -/
structure Withholds (e later : Exchange ν) : Prop extends Evolves e later where
  outgoing : later.outgoing = e.outgoing
  response : later.response = e.response

/-- What stays as it is while other tasks act. -/
structure Waits (e later : Exchange ν) : Prop extends Sends e later, Withholds e later

/-- A stopped exchange stays stopped. -/
theorem Evolves.isStopped {e later : Exchange ν} (h : e.Evolves later)
    (hstopped : e.isStopped = true) : later.isStopped = true := by
  rw [isStopped_iff] at hstopped ⊢
  rw [h.connection]
  exact h.registry.isStopped hstopped

instance : IsPreorder (Exchange ν) Evolves where
  refl _ := ⟨rfl, rfl, rfl, List.prefix_rfl, id, .refl _, .refl _, fun _ => rfl⟩
  trans _ _ _ first second :=
    ⟨second.connection.trans first.connection, second.settings.trans first.settings,
      second.header.trans first.header, first.written.trans second.written,
      second.headerSent ∘ first.headerSent, first.registry.trans second.registry,
      second.peer.trans first.peer,
      fun hstopped => (second.silent (first.isStopped hstopped)).trans (first.silent hstopped)⟩

instance : IsPreorder (Exchange ν) Sends where
  refl _ := ⟨Std.Refl.refl _, rfl, rfl, rfl, rfl⟩
  trans _ _ _ first second :=
    ⟨IsTrans.trans _ _ _ first.toEvolves second.toEvolves, second.request.trans first.request,
      second.incoming.trans first.incoming, second.files.trans first.files,
      second.sessions.trans first.sessions⟩

instance : IsPreorder (Exchange ν) Withholds where
  refl _ := ⟨Std.Refl.refl _, rfl, rfl⟩
  trans _ _ _ first second :=
    ⟨IsTrans.trans _ _ _ first.toEvolves second.toEvolves, second.outgoing.trans first.outgoing,
      second.response.trans first.response⟩

instance : IsPreorder (Exchange ν) Waits where
  refl _ := ⟨Std.Refl.refl _, rfl, rfl⟩
  trans _ _ _ first second :=
    ⟨IsTrans.trans _ _ _ first.toSends second.toSends, second.outgoing.trans first.outgoing,
      second.response.trans first.response⟩

/-- What leaves the connection, the settings, the received header and the response alone withholds
what is not sent, if the registry ages. -/
theorem withholds_of_ages {e later : Exchange ν} (hconnection : later.connection = e.connection)
    (hsettings : later.settings = e.settings)
    (hheader : later.request.map Request.header = e.request.map Request.header)
    (hregistry : e.registry.Ages later.registry) (houtgoing : later.outgoing = e.outgoing)
    (hresponse : later.response = e.response) : e.Withholds later :=
  ⟨⟨hconnection, hsettings, hheader, houtgoing ▸ List.prefix_rfl, fun hsent => hresponse ▸ hsent,
    hregistry, houtgoing ▸ .refl _, fun _ => congrArg Outgoing.written houtgoing⟩,
    houtgoing, hresponse⟩

/-- The response of a stopped exchange is over. -/
theorem hasConcluded_of_isStopped {e : Exchange ν} (h : e.isStopped = true) :
    e.hasConcluded = true := by
  have hdead : e.handle.conclusion.alive = false := e.handle.dead_of_stopped h
  rw [hasConcluded, Conclusion.hasConcluded, hdead, Bool.not_false, Bool.or_true, Bool.or_true]

/-- A response that is over stays over. -/
theorem Evolves.hasConcluded {e later : Exchange ν} (h : e.Evolves later)
    (hconcluded : e.hasConcluded = true) : later.hasConcluded = true := by
  rw [Exchange.hasConcluded, Bool.or_eq_true] at hconcluded ⊢
  refine hconcluded.imp h.headerSent fun hover => ?_
  unfold Exchange.handle at hover ⊢
  cases hhandle : e.registry.handle? e.connection with
  | none =>
      rw [hhandle] at hover
      cases hover
  | some handle =>
      rw [hhandle] at hover
      obtain ⟨after, hafter, hages, _⟩ := h.registry _ _ hhandle
      rw [h.connection, hafter]
      exact hages.concluded hover

/-- The connection of the exchange is registered or stopped. -/
def IsServed (e : Exchange ν) : Prop := e.registry.Serves e.connection

/-- A connection that is served stays so, whatever its handler does. -/
theorem Evolves.isServed {e later : Exchange ν} (h : e.Evolves later) (hserved : e.IsServed) :
    later.IsServed := by
  rw [IsServed, h.connection]
  exact h.registry.serves hserved

/-- A new exchange is served. -/
theorem isServed_accept (premises : Premises) (settings : Settings) (remote : Option PeerAddress)
    (incoming : Incoming) (outgoing : Outgoing) (agenda : List (Nat × Occurrence)) :
    (accept premises settings remote incoming outgoing agenda : Exchange ν).IsServed :=
  premises.registry.serves_create remote

/-! ## What other tasks do -/

/-- Whatever changes is none of what other tasks have to leave alone. -/
theorem waits_of_ages {e later : Exchange ν} (hconnection : later.connection = e.connection)
    (hsettings : later.settings = e.settings) (hregistry : e.registry.Ages later.registry)
    (hrequest : later.request = e.request) (hincoming : later.incoming = e.incoming)
    (hfiles : later.files = e.files) (hsessions : later.sessions = e.sessions)
    (houtgoing : later.outgoing = e.outgoing) (hresponse : later.response = e.response) :
    e.Waits later :=
  have hwithholds : e.Withholds later :=
    withholds_of_ages hconnection hsettings (hrequest ▸ rfl) hregistry houtgoing hresponse
  ⟨⟨hwithholds.toEvolves, hrequest, hincoming, hfiles, hsessions⟩, houtgoing, hresponse⟩

theorem Waits.refl (e : Exchange ν) : e.Waits e := Std.Refl.refl e

theorem Waits.trans {e mid later : Exchange ν} (first : e.Waits mid) (second : mid.Waits later) :
    e.Waits later :=
  IsTrans.trans _ _ _ first second

/-- Other tasks may change the registry if it ages by that. -/
theorem waits_registry (e : Exchange ν) {registry : Registry}
    (h : e.registry.Ages registry) : e.Waits { e with registry } :=
  waits_of_ages rfl rfl h rfl rfl rfl rfl rfl rfl

/-- What is fed to a body is nothing that the peer sees yet. -/
theorem waits_changeStream (e : Exchange ν) (change : BodyStream ν → BodyStream ν) :
    e.Waits (e.changeStream change) :=
  waits_of_ages rfl rfl (.refl _) rfl rfl rfl rfl rfl rfl

/-- An entry of the journal is only noted. -/
theorem waits_note (e : Exchange ν) (entry : ν) : e.Waits (e.note entry) :=
  waits_of_ages rfl rfl (.refl _) rfl rfl rfl rfl rfl rfl

/-- Time passes without anything being sent. -/
theorem waits_passTo (e : Exchange ν) (time : Nat) : e.Waits (e.passTo time) :=
  waits_of_ages rfl rfl (.refl _) rfl rfl rfl rfl rfl rfl

/-- What is due later may be changed. -/
theorem waits_agenda (e : Exchange ν) (agenda : List (Nat × Occurrence)) :
    e.Waits { e with agenda } :=
  waits_of_ages rfl rfl (.refl _) rfl rfl rfl rfl rfl rfl

/-- The connection may be taken out of the registry. -/
theorem waits_unregister (e : Exchange ν) : e.Waits e.unregister :=
  e.waits_registry (e.registry.ages_remove e.connection)

/-- Another task may stop the connection just as a use of it begins. -/
theorem waits_checkpoint (e : Exchange ν) : e.Waits e.checkpoint := by
  unfold checkpoint
  split
  · exact .refl e
  · exact waits_of_ages rfl rfl (e.registry.ages_stop e.connection) rfl rfl rfl rfl rfl rfl
  · exact waits_of_ages rfl rfl (.refl _) rfl rfl rfl rfl rfl rfl

/-- Any number of changes by other tasks is one such change. -/
theorem waits_foldl {σ : Type} {f : Exchange ν → σ → Exchange ν}
    (h : ∀ (e : Exchange ν) x, e.Waits (f e x)) (xs : List σ) (e : Exchange ν) :
    e.Waits (xs.foldl f e) := by
  induction xs generalizing e with
  | nil => exact .refl e
  | cons x xs ih => exact (h e x).trans (ih (f e x))

/-- A signal wakes a writer, or tells a task that the body has come to its end. -/
theorem waits_signal (e : Exchange ν) (s : Signal FeedTag) : e.Waits (e.signal s) := by
  unfold signal
  split
  · exact .refl e
  · exact e.waits_changeStream _
  · exact e.waits_note _
  · exact e.waits_note _

/-- A source that was changed is put back, and its signals are given. -/
theorem waits_putSource (e : Exchange ν) (changed : Source × List (Signal FeedTag)) :
    e.Waits (e.putSource changed) :=
  (e.waits_changeStream _).trans (waits_foldl waits_signal changed.2 _)

/-- Feeding a body leaves everything else alone, but it can end the connection. -/
theorem waits_feed (e : Exchange ν) (f : Feed) : e.Waits (e.feed f) := by
  unfold feed
  split
  · exact .refl e
  · rename_i stream hstream
    have hfed :=
      (e.waits_changeStream fun old => { old with source := (stream.source.feed f).1 }).trans
        (waits_foldl waits_signal (stream.source.feed f).2.1 _)
    dsimp only
    split
    · exact hfed.trans (waits_unregister _)
    · exact hfed
    · exact hfed.trans (waits_note _ _)

/-- **Whatever happens to an exchange while it waits** leaves the response alone. -/
theorem waits_undergo (e : Exchange ν) (o : Occurrence) : e.Waits (e.undergo o) := by
  cases o with
  | clearRegistry => exact e.waits_registry e.registry.ages_clear
  | feed batch => exact waits_foldl waits_feed batch e

end Exchange

namespace Serving

variable {ν α : Type}

open Exchange

theorem waits_expire (deadline : Option Nat) (e : Exchange ν) : e.Waits (expire deadline e).2 := by
  unfold expire
  split
  · split
    · exact e.waits_passTo _
    · exact .refl e
  · exact .refl e

theorem waits_awaitAmong (ready : Exchange ν → Bool) (deadline : Option Nat)
    (agenda : List (Nat × Occurrence)) (e : Exchange ν) :
    e.Waits (awaitAmong ready deadline agenda e).2 := by
  induction agenda generalizing e with
  | nil =>
      unfold awaitAmong
      split
      · exact .refl e
      · exact waits_expire deadline e
  | cons entry agenda ih =>
      unfold awaitAmong
      split
      · exact .refl e
      split
      · exact waits_expire deadline e
      split
      · exact .refl e
      · exact (((e.waits_agenda agenda).trans (waits_passTo _ _)).trans (waits_undergo _ _)).trans
          (ih _)

/-- Waiting goes on until something is ready, time has run out, or nothing is due any more. -/
theorem moves_await (ready : Exchange ν → Bool) (deadline : Option Nat) :
    Moves Waits (await ready deadline : Serving ν Awaited) :=
  fun e => waits_awaitAmong ready deadline e.agenda e

/-- Waiting until somebody stops the connection is only waiting. -/
theorem moves_awaitStop : Moves Waits (awaitStop : Serving ν Unit) :=
  moves_bind (moves_await _ _) fun _ => moves_pure _

/-- Other tasks act while one sleeps. -/
theorem moves_sleepUntil (time : Nat) : Moves Waits (sleepUntil time : Serving ν Unit) :=
  moves_bind (moves_await _ _) fun _ => moves_pure _

theorem moves_sleep (ms : Nat) : Moves Waits (sleep ms : Serving ν Unit) :=
  moves_bind moves_get fun _ => moves_sleepUntil _

/-- Waiting for ever is waiting until nothing is due any more. -/
theorem moves_never : Moves Waits (never : Serving ν α) :=
  moves_bind (moves_await _ _) fun _ => moves_failure

/-- Waiting for ever does not come to an end. -/
theorem exec_never (e : Exchange ν) : (exec (never : Serving ν α) e).1 = none := by
  rw [never, exec_bind]
  rcases exec (await (fun _ => false) none) e with ⟨_ | _, later⟩
  · rfl
  · rfl

theorem not_exec_never {e later : Exchange ν} {a : α} : exec never e ≠ (some a, later) := by
  intro h
  have hnever := exec_never (α := α) e
  rw [h] at hnever
  cases hnever

end Serving

end HttpServer
