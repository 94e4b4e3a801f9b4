import HttpServer.Connection.Registry
import HttpServer.Stream.Feed
import HttpServer.Stream.Writer
import Mathlib.Logic.Function.Basic

/-!
# A waiting writer misses nothing

A `Relay` is a writer, the producer that it empties, and the tasks that feed the producer or stop
the connection, with all that they share. Here a call of a task is no single step: it looks at a
flag, changes the buffer, looks up the produce callback and runs it one after another, and
everything else may happen in between (`CallStage`). Left alone, the steps of a call do what the
producer and the handle say (`Relay.run_alone`).

The writer looks at three things in turn before it waits, and each of them may change behind its
back. What keeps it from waiting for ever is that whoever changes one of them is still to signal, or
has left a permit (`Relay.Watched`). This holds after every step (`Relay.watched_step`), so a writer
that waits without a permit, while no call is under way, has nothing to do (`Relay.nothing_missed`).
-/

namespace HttpServer

/-- What a task may call on a producer, or on the handle of a connection. -/
inductive TaskCall
  | push (data : Bytes)
  | flush
  | finish
  /-- Stops the connection. -/
  | stop
  deriving DecidableEq

/-- Where a call stands. -/
inductive CallStage
  /-- About to look whether the producer still takes bytes. -/
  | pushing (data : Bytes)
  /-- About to append bytes and to show how many there are, under the lock of the buffer. -/
  | appending (data : Bytes)
  | finishing
  /-- About to look up the produce callback. -/
  | signalling
  /-- About to run the callback that was found. -/
  | running (tag : FeedTag)
  /-- About to mark the connection as stopped. -/
  | stopping
  /-- About to mark the response as dead. -/
  | dying
  /-- About to cancel whatever waits for the end of the connection. -/
  | cancelling
  deriving DecidableEq

def TaskCall.start : TaskCall → CallStage
  | .push data => .pushing data
  | .flush => .signalling
  | .finish => .finishing
  | .stop => .stopping

/-- Where the response stands that sends the body. -/
inductive Driver
  /-- About to register the callback that wakes the writer. -/
  | connecting
  /-- Sends the header. -/
  | announcing
  /-- The writer makes one call after another. -/
  | asking (w : Writer)
  /-- The header could not be sent. -/
  | gone

/-- A writer among tasks that feed it, between two steps of any of them. -/
structure Relay where
  producer : Producer FeedTag
  driver : Driver := .connecting
  /-- The call of the produce callback that the writer makes itself when it leaves bytes behind. -/
  errand : Option CallStage := none
  /-- The call that each task is making. -/
  tasks : Nat → Option CallStage := fun _ => none
  /-- The callback ran since the writer last waited. -/
  permit : Bool := false
  /-- The handle was stopped. -/
  stopped : Bool := false
  /-- The response was not marked as dead. -/
  alive : Bool := true
  /-- Waiting for the end of the connection is over. -/
  cancelled : Bool := false

/-- A step of one of those involved. -/
inductive Relay.Move
  /-- A task starts a call. -/
  | begin (task : Nat) (call : TaskCall)
  /-- A task takes the next step of its call. -/
  | proceed (task : Nat)
  /-- Sending the header ends like this. -/
  | announce (outcome : Except SendError Unit)
  /-- The writer takes its next step; if it is a write, it ends like this. -/
  | drive (outcome : Except ConnectionError Unit)

/-- Takes one step of a call: what it changes, and where the call stands then. -/
def CallStage.act (r : Relay) : CallStage → Relay × Option CallStage
  | .pushing data => (r, if data = [] ∨ r.producer.complete then none else some (.appending data))
  | .appending data =>
    ({ r with producer := { r.producer with buffer := r.producer.buffer ++ data } },
      some .signalling)
  | .finishing => ({ r with producer := { r.producer with complete := true } }, some .signalling)
  | .signalling => (r, r.producer.onProduce.map .running)
  | .running tag => ({ r with permit := r.permit || tag == .wake }, none)
  | .stopping => ({ r with stopped := true }, if r.stopped then none else some .dying)
  | .dying => ({ r with alive := false }, some .cancelling)
  | .cancelling => ({ r with cancelled := true }, none)

namespace Relay

/-- A task starts a call, if it is making none. -/
def start (r : Relay) (task : Nat) (call : TaskCall) : Option Relay :=
  if (r.tasks task).isSome then none
  else some { r with tasks := Function.update r.tasks task (some call.start) }

def proceed (r : Relay) (task : Nat) : Option Relay :=
  (r.tasks task).map fun stage =>
    let (later, next) := stage.act r
    { later with tasks := Function.update later.tasks task next }

/-- The header is sent, or production ends with the failure. -/
def announce (r : Relay) (outcome : Except SendError Unit) : Option Relay :=
  match r.driver, outcome with
  | .announcing, .ok () => some { r with driver := .asking {} }
  | .announcing, .error e =>
    some { r with producer := (r.producer.endProduction (some e.toIoError)).1, driver := .gone }
  | _, _ => none

/-- Answers a call of the writer. Waiting is over when the connection is cancelled or there is a
permit; the connection is looked at first, and leaves the permit alone. -/
def answer (r : Relay) (outcome : Except ConnectionError Unit) :
    (call : WriterCall) → Option (Relay × call.Reply)
  | .alive => some (r, r.alive)
  | .available => some (r, r.producer.available)
  | .data => some (r, r.producer.buffer)
  | .write _ => some (r, outcome)
  | .consume amount =>
    let left := (r.producer.consume amount).1
    some ({ r with
      producer := left
      errand := if left.buffer = [] then none else some .signalling }, ())
  | .complete => some (r, r.producer.complete)
  | .reportError _ => some (r, ())
  | .endProduction failure => some ({ r with producer := (r.producer.endProduction failure).1 }, ())
  | .wait =>
    if r.cancelled then some (r, ())
    else if r.permit then some ({ r with permit := false }, ())
    else none

/-- The writer connects, carries out its errand, or makes a call and goes on with the answer. -/
def drive (r : Relay) (outcome : Except ConnectionError Unit) : Option Relay :=
  match r.errand, r.driver with
  | some stage, _ =>
    let (later, next) := stage.act r
    some { later with errand := next }
  | none, .connecting =>
    some { r with producer := { r.producer with onProduce := some .wake }, driver := .announcing }
  | none, .asking w =>
    w.call.bind fun call => (r.answer outcome call).map fun (later, reply) =>
      { later with driver := .asking (w.resume call reply) }
  | none, .announcing => none
  | none, .gone => none

def step (r : Relay) : Move → Option Relay
  | .begin task call => r.start task call
  | .proceed task => r.proceed task
  | .announce outcome => r.announce outcome
  | .drive outcome => r.drive outcome

/-- Takes steps one after another, if each can be taken in its turn. -/
def run (r : Relay) (moves : List Move) : Option Relay := moves.foldlM step r

/-! ## Calls that are left alone -/

/-- The producer has changed and given signals, of which those for the writer leave a permit. -/
def react (r : Relay) (changed : Producer FeedTag × List (Signal FeedTag)) : Relay :=
  { r with producer := changed.1, permit := r.permit || changed.2.contains (.produced .wake) }

/-- A call as one step: the producer changes and its callbacks run, or the connection stops. -/
def perform (r : Relay) : TaskCall → Relay
  | .push data => r.react (r.producer.push data)
  | .flush => r.react r.producer.flush
  | .finish => r.react r.producer.finish
  | .stop => if r.stopped then r else { r with stopped := true, alive := false, cancelled := true }

/-- Someone who makes calls: where the stage of such a call is kept, and the move that takes its
next step. -/
structure Caller where
  put : Relay → Option CallStage → Relay
  move : Move
  step_put : ∀ r stage, (put r (some stage)).step move = some (put (stage.act r).1 (stage.act r).2)

/-- A task makes calls of its own. -/
def Caller.task (i : Nat) : Caller where
  put r stage := { r with tasks := Function.update r.tasks i stage }
  move := .proceed i
  step_put r stage := by
    simp only [step, proceed, Function.update_self, Option.map_some]
    cases stage <;> simp only [CallStage.act, Function.update_idem]

/-- The writer makes calls of the produce callback. -/
def Caller.writer : Caller where
  put r stage := { r with errand := stage }
  move := .drive (.ok ())
  step_put r stage := by
    rw [step, drive]
    cases stage <;> rfl

/-- Left alone, a call at this stage leads from one relay to the other. -/
def Settles (caller : Caller) (r : Relay) (stage : CallStage) (later : Relay) : Prop :=
  ∃ steps, (caller.put r (some stage)).run (List.replicate steps caller.move) =
    some (caller.put later none)

section Callers

variable {caller : Caller} {r mid later : Relay} {stage next : CallStage}

/-- A call is done with its last step. -/
theorem settles_of_none (h : stage.act r = (later, none)) : Settles caller r stage later := by
  refine ⟨1, ?_⟩
  rw [List.replicate_one, run, List.foldlM_cons, caller.step_put, h]
  rfl

/-- Any other step is followed by the rest of the call. -/
theorem settles_of_some (h : stage.act r = (mid, some next))
    (hrest : Settles caller mid next later) : Settles caller r stage later := by
  obtain ⟨steps, hsteps⟩ := hrest
  refine ⟨steps + 1, ?_⟩
  rw [List.replicate_succ, run, List.foldlM_cons, caller.step_put, h]
  exact hsteps

/-- A call that is to signal runs the produce callback, if there is one. -/
theorem settles_signalling (caller : Caller) (r : Relay) :
    Settles caller r .signalling (r.react (r.producer, r.producer.signals)) := by
  cases htag : r.producer.onProduce with
  | none =>
      refine settles_of_none ?_
      rw [CallStage.act, htag, react, Producer.signals, htag]
      simp
  | some tag =>
      have hfound : CallStage.signalling.act r = (r, some (.running tag)) := by
        rw [CallStage.act, htag]
        rfl
      refine settles_of_some hfound (settles_of_none ?_)
      rw [CallStage.act, react, Producer.signals, htag]
      cases tag <;> rfl

/-- **A call that is left alone** does what the producer and the handle say; the cases are those of
the calls. -/
theorem settles_start (caller : Caller) (r : Relay) (call : TaskCall) :
    Settles caller r call.start (r.perform call) := by
  cases call with
  | flush => exact settles_signalling caller r
  | finish => exact settles_of_some rfl (settles_signalling caller _)
  | push data =>
      by_cases hrefused : data = [] ∨ r.producer.complete = true
      · refine settles_of_none ?_
        rw [TaskCall.start, CallStage.act, if_pos hrefused, perform, Producer.push, if_pos hrefused,
          react]
        simp
      · have hgoes : (CallStage.pushing data).act r = (r, some (.appending data)) := by
          rw [CallStage.act, if_neg hrefused]
        rw [perform, Producer.push, if_neg hrefused]
        exact settles_of_some hgoes (settles_of_some rfl (settles_signalling caller _))
  | stop =>
      by_cases hstopped : r.stopped = true
      · refine settles_of_none ?_
        rw [TaskCall.start, CallStage.act, if_pos hstopped, perform, if_pos hstopped, ← hstopped]
      · have hfirst : CallStage.stopping.act r = ({ r with stopped := true }, some .dying) := by
          rw [CallStage.act, if_neg hstopped]
        have hdies : CallStage.dying.act { r with stopped := true } =
          ({ r with stopped := true, alive := false }, some .cancelling) := rfl
        rw [perform, if_neg hstopped]
        exact settles_of_some hfirst (settles_of_some hdies (settles_of_none rfl))

end Callers

/-- What a call does to the relay starts and ends no other call. -/
theorem tasks_perform (r : Relay) (call : TaskCall) : (r.perform call).tasks = r.tasks := by
  cases call with
  | push data | flush | finish => rfl
  | stop =>
      rw [perform]
      split <;> rfl

/-- **A call that is left alone** does what the producer, or the handle, does at once. -/
theorem run_alone (r : Relay) (task : Nat) (call : TaskCall) (hfree : r.tasks task = none) :
    ∃ steps, r.run (.begin task call :: List.replicate steps (.proceed task)) =
      some (r.perform call) := by
  obtain ⟨steps, hsteps⟩ := settles_start (.task task) r call
  refine ⟨steps, ?_⟩
  have hbegin : r.step (.begin task call) = some ((Caller.task task).put r (some call.start)) := by
    rw [step, start, if_neg (by simp [hfree])]
    rfl
  have hend : (Caller.task task).put (r.perform call) none = r.perform call := by
    rw [Caller.task]
    dsimp only
    rw [tasks_perform, ← hfree, Function.update_eq_self, ← tasks_perform r call]
  rw [run, List.foldlM_cons, hbegin]
  exact hsteps.trans (congrArg some hend)

/-- Stopping is what a handle does when it is stopped. -/
theorem perform_stop (r : Relay) (handle : Handle) (hstopped : r.stopped = handle.stopped)
    (halive : r.alive = handle.conclusion.alive) :
    (r.perform .stop).stopped = handle.stop.1.stopped ∧
      (r.perform .stop).alive = handle.stop.1.conclusion.alive := by
  rw [perform, Handle.stop, hstopped]
  split
  · exact ⟨hstopped, halive⟩
  · exact ⟨rfl, rfl⟩

/-- **Taking bytes**, left alone, is what the producer does at once, the writer's errand
included. -/
theorem run_consume {r : Relay} {w : Writer} {amount : Nat} (hnone : r.errand = none)
    (hw : r.driver = .asking w) (hstage : w.stage = .consuming amount) :
    ∃ steps, r.run (.drive (.ok ()) :: List.replicate steps (.drive (.ok ()))) =
      some { r.react (r.producer.consume amount) with
        driver := .asking (w.goTo .checkingLife) } := by
  have hcall : w.call = some (.consume amount) := by rw [Writer.call, hstage]
  have hresume : w.resume (.consume amount) () = w.goTo .checkingLife := by
    simp only [Writer.resume, hstage]
  let left : Relay := { r with
    producer := (r.producer.consume amount).1
    driver := .asking (w.goTo .checkingLife) }
  have hdrive : r.step (.drive (.ok ())) = some
      { left with errand := if left.producer.buffer = [] then none else some .signalling } := by
    simp only [step, drive, hnone, hw, hcall, Option.bind_some, answer, Option.map_some, hresume]
    rfl
  have hrun : ∀ moves, r.run (.drive (.ok ()) :: moves) =
      Relay.run { left with errand := if left.producer.buffer = [] then none else some .signalling }
        moves := fun moves => by
    rw [run, List.foldlM_cons, hdrive]
    rfl
  by_cases hempty : left.producer.buffer = []
  · have hsignals : (r.producer.consume amount).2 = [] := if_pos hempty
    refine ⟨0, ?_⟩
    rw [hrun, if_pos hempty, react, hsignals, ← hnone, List.contains_nil, Bool.or_false]
    rfl
  · have hsignals : (r.producer.consume amount).2 = r.producer.signals := if_neg hempty
    obtain ⟨steps, hsteps⟩ := settles_signalling .writer left
    refine ⟨steps, ?_⟩
    rw [hrun, if_neg hempty, react, hsignals, hnone]
    exact hsteps

/-! ## What keeps the writer from waiting for ever -/

/-- There is a permit, or a task will leave one. -/
def Signalled (r : Relay) : Prop :=
  r.permit = true ∨ ∃ task, r.tasks task = some .signalling ∨ r.tasks task = some (.running .wake)

/-- If the response is dead then waiting is over, or a task will end it. -/
def DeathTold (r : Relay) : Prop :=
  r.alive = false → r.cancelled = true ∨ ∃ task, r.tasks task = some .cancelling

end Relay

/-- What a writer relies on in a stage: it will hear of everything it has already looked for. -/
def WriterStage.Watches (r : Relay) : WriterStage → Prop
  | .lookingForBytes => r.DeathTold
  | .copying available => r.DeathTold ∧ 0 < available ∧ r.producer.buffer ≠ []
  | .checkingCompletion => r.DeathTold ∧ (r.producer.buffer ≠ [] → r.Signalled)
  | .waiting =>
    r.DeathTold ∧ (r.producer.buffer ≠ [] ∨ r.producer.complete = true → r.Signalled)
  | _ => True

namespace Relay

/-- **The invariant**: the callback is registered, the writer runs its errand before it looks for
anything, and it will hear of everything it has already looked for. -/
structure Watched (r : Relay) : Prop where
  connected : r.driver ≠ .connecting → r.producer.onProduce = some .wake
  errand : r.errand ≠ none → ∃ w, r.driver = .asking w ∧ w.stage = .checkingLife
  watches : ∀ w, r.driver = .asking w → w.stage.Watches r

/-- What the steps of other tasks leave as it is for the writer, or make known to it. -/
structure Evolves (r later : Relay) : Prop where
  driver : later.driver = r.driver
  errand : later.errand = r.errand
  onProduce : later.producer.onProduce = r.producer.onProduce
  signalled : r.Signalled → later.Signalled
  told : r.DeathTold → later.DeathTold
  kept : r.producer.buffer ≠ [] → later.producer.buffer ≠ []
  /-- Whoever changes what the writer looks for is about to signal. -/
  changed : (later.producer.buffer = r.producer.buffer ∧
    later.producer.complete = r.producer.complete) ∨ later.Signalled

/-- What the writer watches goes on being watched while the relay evolves. -/
theorem Evolves.watches {r later : Relay} (h : Evolves r later) {stage : WriterStage}
    (hwatches : stage.Watches r) : stage.Watches later := by
  cases stage with
  | lookingForBytes => exact h.told hwatches
  | copying available => exact ⟨h.told hwatches.1, hwatches.2.1, h.kept hwatches.2.2⟩
  | checkingCompletion =>
      refine ⟨h.told hwatches.1, ?_⟩
      intro hbytes
      rcases h.changed with ⟨hbuffer, -⟩ | hsignalled
      · exact h.signalled (hwatches.2 (hbuffer ▸ hbytes))
      · exact hsignalled
  | waiting =>
      refine ⟨h.told hwatches.1, ?_⟩
      intro hwork
      rcases h.changed with ⟨hbuffer, hcomplete⟩ | hsignalled
      · exact h.signalled (hwatches.2 (by rwa [← hbuffer, ← hcomplete]))
      · exact hsignalled
  | _ => trivial

/-- A relay stays watched while it evolves. -/
theorem Evolves.watched {r later : Relay} (h : Evolves r later) (hwatched : r.Watched) :
    later.Watched := by
  constructor
  case connected =>
    intro hdriver
    rw [h.onProduce]
    exact hwatched.connected (h.driver ▸ hdriver)
  case errand =>
    rw [h.errand, h.driver]
    exact hwatched.errand
  case watches =>
    intro w hw
    exact h.watches (hwatched.watches w (h.driver ▸ hw))

section Tasks

variable {r later : Relay} {task : Nat} {next : Option CallStage}

/-- A signal that is on its way stays so when another task takes a step, and arrives by its own. -/
theorem Signalled.update (h : r.Signalled)
    (htasks : later.tasks = Function.update r.tasks task next)
    (hpermit : r.permit = true → later.permit = true)
    (hlook : r.tasks task = some .signalling → next = some (.running .wake))
    (hrun : r.tasks task = some (.running .wake) → later.permit = true) : later.Signalled := by
  rcases h with hleft | ⟨other, hother⟩
  · exact .inl (hpermit hleft)
  by_cases hsame : other = task
  · subst hsame
    rcases hother with hother | hother
    · refine .inr ⟨other, .inr ?_⟩
      rw [htasks, Function.update_self, hlook hother]
    · exact .inl (hrun hother)
  · refine .inr ⟨other, ?_⟩
    rwa [htasks, Function.update_of_ne hsame]

/-- A task that goes on leaves word of the death, if it was the one that had to tell of it. -/
theorem DeathTold.update (h : r.DeathTold)
    (htasks : later.tasks = Function.update r.tasks task next) (halive : later.alive = r.alive)
    (hcancelled : r.cancelled = true → later.cancelled = true)
    (hcancel : r.tasks task = some .cancelling → later.cancelled = true) : later.DeathTold := by
  intro hdead
  rcases h (halive ▸ hdead) with hover | ⟨other, hother⟩
  · exact .inl (hcancelled hover)
  by_cases hsame : other = task
  · subst hsame
    exact .inl (hcancel hother)
  · refine .inr ⟨other, ?_⟩
    rwa [htasks, Function.update_of_ne hsame]

/-- A task that is about to look up the callback will signal. -/
theorem signalled_of_task (h : later.tasks = Function.update r.tasks task (some .signalling)) :
    later.Signalled :=
  .inr ⟨task, .inl (by rw [h, Function.update_self])⟩

/-- A step that leaves the producer alone loses no signal, if it loses none of its own. -/
theorem Evolves.of_producer (hdriver : later.driver = r.driver) (herrand : later.errand = r.errand)
    (hproducer : later.producer = r.producer) (hsignalled : r.Signalled → later.Signalled)
    (htold : r.DeathTold → later.DeathTold) : Evolves r later := by
  refine ⟨hdriver, herrand, by rw [hproducer], hsignalled, htold, ?_, .inl ?_⟩
  · rw [hproducer]
    exact id
  · rw [hproducer]
    exact ⟨rfl, rfl⟩

/-- A call that begins has changed nothing yet. -/
theorem evolves_start {call : TaskCall} (h : r.start task call = some later) : Evolves r later := by
  unfold start at h
  split at h
  · cases h
  rename_i hfree
  have hnone : r.tasks task = none := by simpa using hfree
  cases h
  refine Evolves.of_producer rfl rfl rfl ?_ ?_
  · intro hsignalled
    exact hsignalled.update rfl id (by simp [hnone]) (by simp [hnone])
  · intro htold
    exact htold.update rfl rfl id (by simp [hnone])

/-- The steps of a task lose no signal once the writer is connected. -/
theorem evolves_proceed (hwake : r.producer.onProduce = some .wake)
    (h : r.proceed task = some later) : Evolves r later := by
  obtain ⟨stage, hstage, hlater⟩ := Option.map_eq_some_iff.1 h
  subst hlater
  cases stage with
  | pushing data | stopping =>
      refine Evolves.of_producer rfl rfl rfl ?_ ?_
      · intro hsignalled
        exact hsignalled.update rfl id (by simp [hstage]) (by simp [hstage])
      · intro htold
        exact htold.update rfl rfl id (by simp [hstage])
  | signalling =>
      refine Evolves.of_producer rfl rfl rfl ?_ ?_
      · intro hsignalled
        refine hsignalled.update rfl id ?_ ?_
        · intro _
          rw [CallStage.act, hwake]
          rfl
        · simp [hstage]
      · intro htold
        exact htold.update rfl rfl id (by simp [hstage])
  | running tag =>
      refine Evolves.of_producer rfl rfl rfl ?_ ?_
      · intro hsignalled
        refine hsignalled.update rfl ?_ ?_ ?_
        · intro hpermit
          exact Bool.or_eq_true_iff.2 (.inl hpermit)
        · simp [hstage]
        · intro hwakes
          rw [hstage] at hwakes
          cases hwakes
          exact Bool.or_eq_true_iff.2 (.inr rfl)
      · intro htold
        exact htold.update rfl rfl id (by simp [hstage])
  | dying =>
      refine Evolves.of_producer rfl rfl rfl ?_ ?_
      · intro hsignalled
        exact hsignalled.update rfl id (by simp [hstage]) (by simp [hstage])
      · intro _ _
        exact .inr ⟨task, Function.update_self ..⟩
  | cancelling =>
      refine Evolves.of_producer rfl rfl rfl ?_ ?_
      · intro hsignalled
        exact hsignalled.update rfl id (by simp [hstage]) (by simp [hstage])
      · intro _ _
        exact .inl rfl
  | appending data =>
      -- From here on the task is about to look up the callback, as it is below.
      refine ⟨rfl, rfl, rfl, fun _ => signalled_of_task rfl, ?_, ?_, .inr (signalled_of_task rfl)⟩
      · intro htold
        exact htold.update rfl rfl id (by simp [hstage])
      · intro hbytes
        exact List.append_ne_nil_of_left_ne_nil hbytes data
  | finishing =>
      refine ⟨rfl, rfl, rfl, fun _ => signalled_of_task rfl, ?_, id, .inr (signalled_of_task rfl)⟩
      intro htold
      exact htold.update rfl rfl id (by simp [hstage])

/-- A task that goes on leaves the writer where it is. -/
theorem driver_proceed (h : r.proceed task = some later) :
    later.driver = r.driver ∧ later.errand = r.errand := by
  obtain ⟨stage, _, rfl⟩ := Option.map_eq_some_iff.1 h
  cases stage <;> exact ⟨rfl, rfl⟩

end Tasks

/-- Nobody runs errands but a writer that makes calls. -/
theorem Watched.errand_eq_none {r : Relay} (hwatched : r.Watched)
    (hdriver : ∀ w, r.driver ≠ .asking w) : r.errand = none := by
  apply Classical.not_not.1
  intro hsome
  obtain ⟨w, hw, -⟩ := hwatched.errand hsome
  exact hdriver w hw

/-- Before and after its calls a writer needs to know of nothing. -/
theorem watched_of_not_asking {r : Relay}
    (hwake : r.driver ≠ .connecting → r.producer.onProduce = some .wake) (herrand : r.errand = none)
    (hdriver : ∀ w, r.driver ≠ .asking w) : r.Watched := by
  constructor
  case connected => exact hwake
  case errand =>
    intro hsome
    exact absurd herrand hsome
  case watches =>
    intro w hw
    exact absurd hw (hdriver w)

/-- Before the writer is connected there is nothing to watch. -/
theorem watched_of_connecting {r : Relay} (hdriver : r.driver = .connecting)
    (herrand : r.errand = none) : r.Watched :=
  watched_of_not_asking (absurd hdriver) herrand (by simp [hdriver])

/-- A connected writer is watched if its stage is, and no call of its own is under way. -/
theorem watched_of_asking {r : Relay} {w : Writer} (hw : r.driver = .asking w)
    (hwake : r.producer.onProduce = some .wake)
    (herrand : r.errand = none ∨ w.stage = .checkingLife) (hwatches : w.stage.Watches r) :
    r.Watched := by
  constructor
  case connected =>
    intro _
    exact hwake
  case errand =>
    intro hsome
    exact ⟨w, hw, herrand.resolve_left hsome⟩
  case watches =>
    intro other hother
    rw [hw] at hother
    cases hother
    exact hwatches

/-- **A step of a task keeps the relay watched**: what it changes it is still to signal. -/
theorem watched_proceed {r later : Relay} {task : Nat} (hwatched : r.Watched)
    (h : r.proceed task = some later) : later.Watched := by
  by_cases hdriver : r.driver = .connecting
  · obtain ⟨hsame, herrand⟩ := driver_proceed h
    have hnone := hwatched.errand_eq_none (by simp [hdriver])
    exact watched_of_connecting (hsame.trans hdriver) (herrand.trans hnone)
  · exact (evolves_proceed (hwatched.connected hdriver) h).watched hwatched

/-- Sending the header or refusing it keeps it watched. -/
theorem watched_announce {r later : Relay} {outcome : Except SendError Unit} (hwatched : r.Watched)
    (h : r.announce outcome = some later) : later.Watched := by
  unfold announce at h
  cases hdriver : r.driver with
  | announcing =>
      have hwake := hwatched.connected (by simp [hdriver])
      have hnone := hwatched.errand_eq_none (by simp [hdriver])
      rw [hdriver] at h
      cases outcome with
      | ok _ =>
          cases h
          exact watched_of_asking rfl hwake (.inl hnone) trivial
      | error e =>
          cases h
          exact watched_of_not_asking (fun _ => hwake) hnone (by simp)
  | connecting | asking w | gone =>
      rw [hdriver] at h
      cases h

/-- The errand of the writer is over before the writer looks for anything. -/
theorem watched_errand {r : Relay} {stage : CallStage} (hwatched : r.Watched)
    (h : r.errand = some stage) :
    Watched { (stage.act r).1 with errand := (stage.act r).2 } := by
  obtain ⟨w, hw, hstage⟩ := hwatched.errand (by simp [h])
  have hwake := hwatched.connected (by simp [hw])
  have hkept : (stage.act r).1.driver = r.driver ∧
      (stage.act r).1.producer.onProduce = r.producer.onProduce := by
    cases stage <;> exact ⟨rfl, rfl⟩
  refine watched_of_asking (hkept.1.trans hw) (hkept.2.trans hwake) (.inr hstage) ?_
  rw [hstage]
  trivial

/-- A write, however it ends, is followed by nothing that needs watching. -/
theorem watches_wrote {r : Relay} {w : Writer} {stage : WriterStage}
    (result : Except ConnectionError Unit) (h : stage.Watches r) :
    (w.wrote stage result).stage.Watches r := by
  cases result with
  | ok _ => exact h
  | error e =>
      rw [Writer.wrote, Writer.writeFailed]
      split <;> trivial

/-- **What a step of the writer preserves.** -/
theorem watched_call {r later : Relay} {w : Writer} {call : WriterCall}
    {outcome : Except ConnectionError Unit} {reply : call.Reply} (hwatched : r.Watched)
    (hw : r.driver = .asking w) (hnone : r.errand = none) (hcall : w.call = some call)
    (h : r.answer outcome call = some (later, reply)) :
    Watched { later with driver := .asking (w.resume call reply) } := by
  have hwake := hwatched.connected (by simp [hw])
  have hwatches := hwatched.watches w hw
  -- The stage says which call is made, and what its answer is worth.
  cases hstage : w.stage <;> rw [hstage] at hwatches <;> rw [Writer.call, hstage] at hcall <;>
    cases hcall
  case checkingLife =>
    cases h
    refine watched_of_asking rfl hwake (.inl hnone) ?_
    simp only [Writer.resume, hstage, Writer.sawLife]
    split
    · rename_i halive
      exact fun hdead => absurd halive (ne_true_of_eq_false hdead)
    · trivial
  case lookingForBytes =>
    cases h
    refine watched_of_asking rfl hwake (.inl hnone) ?_
    simp only [Writer.resume, hstage, Writer.sawBytes]
    split
    · rename_i havailable
      exact ⟨hwatches, fun hbytes => absurd (List.eq_nil_of_length_eq_zero havailable) hbytes⟩
    · rename_i havailable
      exact ⟨hwatches, Nat.pos_of_ne_zero havailable, fun hnil => havailable (by
        rw [Producer.available, hnil, List.length_nil])⟩
  case copying available =>
    cases h
    refine watched_of_asking rfl hwake (.inl hnone) ?_
    have htaken : r.producer.buffer.take available ≠ [] := by
      rw [ne_eq, List.take_eq_nil_iff, not_or]
      exact ⟨Nat.pos_iff_ne_zero.1 hwatches.2.1, hwatches.2.2⟩
    simp only [Writer.resume, hstage, Writer.takeChunk, if_neg htaken]
    trivial
  case checkingCompletion =>
    cases h
    refine watched_of_asking rfl hwake (.inl hnone) ?_
    simp only [Writer.resume, hstage, Writer.sawCompletion]
    split
    · trivial
    · rename_i hopen
      exact ⟨hwatches.1, fun hwork => hwatches.2 (hwork.resolve_right hopen)⟩
  case consuming amount =>
    cases h
    refine watched_of_asking rfl hwake (.inr ?_) ?_
    · simp only [Writer.resume, hstage]
      rfl
    · simp only [Writer.resume, hstage]
      trivial
  case writing taken framed =>
    cases h
    refine watched_of_asking rfl hwake (.inl hnone) ?_
    simp only [Writer.resume, hstage]
    exact watches_wrote outcome trivial
  case writingLast framed =>
    cases h
    refine watched_of_asking rfl hwake (.inl hnone) ?_
    simp only [Writer.resume, hstage]
    exact watches_wrote outcome trivial
  case endingWell | reporting | endingBadly =>
    cases h
    refine watched_of_asking rfl hwake (.inl hnone) ?_
    simp only [Writer.resume, hstage]
    trivial
  case waiting =>
    -- Waiting is over, whether the connection is or a permit was left.
    have hsame : later.producer = r.producer ∧ later.errand = r.errand := by
      rw [answer] at h
      split at h
      · cases h
        exact ⟨rfl, rfl⟩
      split at h <;> cases h
      exact ⟨rfl, rfl⟩
    refine watched_of_asking rfl ?_ (.inl (hsame.2.trans hnone)) ?_
    · rw [← hwake, ← hsame.1]
    · simp only [Writer.resume, hstage]
      trivial

/-- **A step of the writer keeps the relay watched**; the cases are those of its stages. -/
theorem watched_drive {r later : Relay} {outcome : Except ConnectionError Unit}
    (hwatched : r.Watched) (h : r.drive outcome = some later) : later.Watched := by
  unfold drive at h
  cases herrand : r.errand with
  | some stage =>
      rw [herrand] at h
      cases h
      exact watched_errand hwatched herrand
  | none =>
      rw [herrand] at h
      cases hdriver : r.driver with
      | connecting =>
          rw [hdriver] at h
          cases h
          exact watched_of_not_asking (fun _ => rfl) rfl (by simp)
      | announcing | gone =>
          rw [hdriver] at h
          cases h
      | asking w =>
          rw [hdriver] at h
          obtain ⟨call, hcall, hanswer⟩ := Option.bind_eq_some_iff.1 h
          obtain ⟨⟨mid, reply⟩, hmid, rfl⟩ := Option.map_eq_some_iff.1 hanswer
          exact watched_call hwatched hdriver herrand hcall hmid

/-- **Every step keeps the writer informed.** -/
theorem watched_step {r later : Relay} (move : Move) (hwatched : r.Watched)
    (h : r.step move = some later) : later.Watched := by
  cases move with
  | begin task call => exact (evolves_start h).watched hwatched
  | proceed task => exact watched_proceed hwatched h
  | announce outcome => exact watched_announce hwatched h
  | drive outcome => exact watched_drive hwatched h

/-- **A relay stays watched through any steps**, by induction on them. -/
theorem watched_run {r later : Relay} {moves : List Move} (hwatched : r.Watched)
    (h : r.run moves = some later) : later.Watched := by
  induction moves generalizing r with
  | nil =>
      cases h
      exact hwatched
  | cons move moves ih =>
      obtain ⟨mid, hmid, hrest⟩ := Option.bind_eq_some_iff.1 h
      exact ih (watched_step move hwatched hmid) hrest

/-- The writer waits, and nothing that has happened ends this. -/
def IsSuspended (r : Relay) : Prop :=
  r.errand = none ∧ (∃ w, r.driver = .asking w ∧ w.stage = .waiting) ∧ r.permit = false ∧
    r.cancelled = false

/-- A writer is suspended if it asks for something and cannot take a step. -/
theorem isSuspended_iff {r : Relay} :
    r.IsSuspended ↔ (∀ outcome, r.drive outcome = none) ∧
      ∃ w, r.driver = .asking w ∧ w.call ≠ none := by
  constructor
  · rintro ⟨herrand, ⟨w, hw, hstage⟩, hpermit, hcancelled⟩
    have hcall : w.call = some .wait := by rw [Writer.call, hstage]
    refine ⟨fun outcome => ?_, w, hw, by simp [hcall]⟩
    simp [drive, herrand, hw, hcall, answer, hpermit, hcancelled]
  · rintro ⟨hstuck, w, hw, hasks⟩
    have hnow := hstuck (.ok ())
    cases herrand : r.errand with
    | some stage => simp [drive, herrand] at hnow
    | none =>
        simp only [drive, herrand, hw, Option.bind_eq_none_iff, Option.map_eq_none_iff] at hnow
        cases hstage : w.stage <;> rw [Writer.call, hstage] at hnow hasks
        case waiting =>
          have hwait := hnow .wait rfl
          rw [answer] at hwait
          split at hwait
          · cases hwait
          rename_i hcancelled
          split at hwait
          · cases hwait
          rename_i hpermit
          exact ⟨herrand, ⟨w, hw, hstage⟩, by simpa using hpermit, by simpa using hcancelled⟩
        case finished | failed => exact absurd rfl hasks
        all_goals exact absurd (hnow _ rfl) (by simp [answer])

/-- Whatever a suspended writer should look at, a task is about to wake it. -/
theorem exists_waker {r : Relay} (hwatched : r.Watched) (hsuspended : r.IsSuspended)
    (hwork : r.producer.available ≠ 0 ∨ r.producer.complete = true ∨ r.alive = false) :
    ∃ task stage, r.tasks task = some stage ∧
      (stage = .signalling ∨ stage = .running .wake ∨ stage = .cancelling) := by
  obtain ⟨-, ⟨w, hw, hstage⟩, hpermit, hcancelled⟩ := hsuspended
  have hwatches := hwatched.watches w hw
  rw [hstage] at hwatches
  obtain ⟨htold, hsignalled⟩ := hwatches
  have hsignal : r.Signalled → ∃ task stage, r.tasks task = some stage ∧
      (stage = .signalling ∨ stage = .running .wake ∨ stage = .cancelling) := by
    rintro (hleft | ⟨task, htask | htask⟩)
    · rw [hpermit] at hleft
      cases hleft
    · exact ⟨task, _, htask, .inl rfl⟩
    · exact ⟨task, _, htask, .inr (.inl rfl)⟩
  rcases hwork with havailable | hcomplete | hdead
  · refine hsignal (hsignalled (.inl fun hnil => havailable ?_))
    rw [Producer.available, hnil, List.length_nil]
  · exact hsignal (hsignalled (.inr hcomplete))
  · rcases htold hdead with hover | ⟨task, htask⟩
    · rw [hcancelled] at hover
      cases hover
    · exact ⟨task, _, htask, .inr (.inr rfl)⟩

/-- **A waiting writer misses nothing.** Take any producer and any tasks, with calls under way or
not, on a connection that was stopped or not, and let a writer connect to the producer and go on in
any order with the steps of the tasks, of which new calls may start at any time. Whenever the writer
is suspended and no call is under way, no bytes are available, the producer is not complete, and the
response is not dead. -/
theorem nothing_missed (producer : Producer FeedTag) (tasks : Nat → Option CallStage)
    (stopped alive cancelled : Bool) (moves : List Move) (r : Relay)
    (hrun : ({ producer, tasks, stopped, alive, cancelled } : Relay).run moves = some r)
    (hsuspended : r.IsSuspended) (hidle : ∀ task, r.tasks task = none) :
    r.producer.available = 0 ∧ r.producer.complete = false ∧ r.alive = true := by
  have hwatched : r.Watched := watched_run (watched_of_connecting rfl rfl) hrun
  have hnothing : ¬ (r.producer.available ≠ 0 ∨ r.producer.complete = true ∨ r.alive = false) := by
    intro hwork
    obtain ⟨task, stage, hstage, -⟩ := exists_waker hwatched hsuspended hwork
    rw [hidle task] at hstage
    cases hstage
  simpa [not_or] using hnothing

/-- Steps of a writer whose writes succeed. -/
def driveSteps (n : Nat) : List Move := List.replicate n (.drive (.ok ()))

/-- A task pushes a byte after the writer has found none and before it waits; the task signals only
when the writer waits already. The writer wakes, sends the byte, and waits again. -/
def pushedBeforeWaiting : List Move :=
  driveSteps 1 ++ [.announce (.ok ())] ++ driveSteps 2 ++
    [.begin 0 (.push [0x78]), .proceed 0, .proceed 0] ++ driveSteps 1 ++ [.proceed 0, .proceed 0] ++
    driveSteps 9

/-- A byte that is pushed while the writer is about to wait leaves a permit. -/
theorem nothing_missed_pushedBeforeWaiting :
    ∃ r, ({ producer := {} } : Relay).run pushedBeforeWaiting = some r ∧ r.IsSuspended ∧
      (∀ task, r.tasks task = none) ∧ r.producer.available = 0 ∧ r.producer.complete = false ∧
      r.alive = true := by
  have hrun : ∃ r, ({ producer := {} } : Relay).run pushedBeforeWaiting = some r ∧ r.IsSuspended ∧
      ∀ task, r.tasks task = none := by
    refine ⟨_, rfl, ⟨rfl, ⟨_, rfl, rfl⟩, rfl, rfl⟩, fun task => ?_⟩
    cases task <;> rfl
  obtain ⟨r, hrun, hsuspended, hidle⟩ := hrun
  exact ⟨r, hrun, hsuspended, hidle,
    nothing_missed {} _ false true false _ r hrun hsuspended hidle⟩

end Relay

end HttpServer
