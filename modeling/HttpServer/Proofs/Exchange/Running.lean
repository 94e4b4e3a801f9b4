import HttpServer.Exchange.Action
import Mathlib.Order.Defs.Unbundled

/-!
# Running computations on an exchange

`Serving.exec` runs a computation from a given exchange: what came of it, if it came to an end, and
the exchange that it leaves behind. A relation between exchanges that is reflexive and transitive
holds of a whole computation if it holds of every step (`Serving.Moves`), and so of a program if it
holds of every operation (`Action.moves_run`).

What a program does can be told from the program (`Action.Only`) and from one run of it
(`Action.trace`). A run performs only what the program can perform (`Action.Only.trace`), and the
run of a composed program first performs what the first part does (`Action.trace_bind`).
-/

namespace HttpServer

namespace Serving

variable {ν α β ε δ : Type}

/-- Runs a computation. -/
def exec (c : Serving ν α) (e : Exchange ν) : Option α × Exchange ν := c.run.run e

/-- Looking at the exchange leaves it as it is. -/
theorem exec_get (e : Exchange ν) : exec get e = (some e, e) := rfl

/-- A change of the exchange always comes to an end. -/
theorem exec_modify (f : Exchange ν → Exchange ν) (e : Exchange ν) :
    exec (modify f) e = (some (), f e) := rfl

/-- Looking at the exchange does not fail. -/
theorem exec_eget (e : Exchange ν) :
    exec (get : ExceptT ε (Serving ν) (Exchange ν)).run e = (some (.ok e), e) := rfl

theorem exec_emodify (f : Exchange ν → Exchange ν) (e : Exchange ν) :
    exec (modify f : ExceptT ε (Serving ν) Unit).run e = (some (.ok ()), f e) := rfl

theorem exec_eset (later e : Exchange ν) :
    exec (set later : ExceptT ε (Serving ν) Unit).run e = (some (.ok ()), later) := rfl

/-- What comes second runs from the exchange that the first has left, if the first comes to an
end. -/
theorem exec_bind (c : Serving ν α) (f : α → Serving ν β) (e : Exchange ν) :
    exec (c >>= f) e = match exec c e with
      | (some a, later) => exec (f a) later
      | (none, later) => (none, later) := by
  have hrun : exec (c >>= f) e = StateT.run (OptionT.run (c >>= f)) e := rfl
  rw [hrun, OptionT.run_bind]
  rcases h : exec c e with ⟨_ | a, later⟩
  · have hc : c.run.run e = (none, later) := h
    simp [Option.elimM, StateT.run_bind, hc]
    rfl
  · have hc : c.run.run e = (some a, later) := h
    simp [Option.elimM, StateT.run_bind, hc]
    rfl

/-- Of two computations that can fail the second is run only if the first has succeeded. -/
theorem exec_ebind (x : ExceptT ε (Serving ν) α) (f : α → ExceptT ε (Serving ν) β)
    (e : Exchange ν) :
    exec (x >>= f).run e = match exec x.run e with
      | (some (.ok a), later) => exec (f a).run later
      | (some (.error failure), later) => (some (.error failure), later)
      | (none, later) => (none, later) := by
  change exec (x.run >>= _) e = _
  rw [exec_bind]
  rcases exec x.run e with ⟨_ | _ | a, later⟩ <;> rfl

/-- What succeeds in the end has succeeded in its first part. -/
theorem exists_of_exec_ebind {x : ExceptT ε (Serving ν) α} {f : α → ExceptT ε (Serving ν) β}
    {e later : Exchange ν} {b : β} (h : exec (x >>= f).run e = (some (.ok b), later)) :
    ∃ a mid, exec x.run e = (some (.ok a), mid) ∧ exec (f a).run mid = (some (.ok b), later) := by
  rw [exec_ebind] at h
  rcases hx : exec x.run e with ⟨_ | _ | a, mid⟩
  · rw [hx] at h
    cases h
  · rw [hx] at h
    cases h
  · rw [hx] at h
    exact ⟨a, mid, rfl, h⟩

/-- A computation that cannot fail succeeds where failing would be allowed. -/
theorem exec_lift (c : Serving ν α) (e : Exchange ν) :
    exec (ExceptT.lift c : ExceptT ε (Serving ν) α).run e =
      ((exec c e).1.map .ok, (exec c e).2) := by
  rw [ExceptT.run_lift, map_eq_pure_bind, exec_bind]
  rcases exec c e with ⟨_ | a, later⟩ <;> rfl

theorem exec_liftM (c : Serving ν α) (e : Exchange ν) :
    exec (liftM c : ExceptT ε (Serving ν) α).run e = ((exec c e).1.map .ok, (exec c e).2) :=
  exec_lift c e

/-- Renaming the failures of a computation leaves what it does as it is. -/
theorem exec_adapt (f : ε → δ) (x : ExceptT ε (Serving ν) α) (e : Exchange ν) :
    exec (x.adapt f).run e = ((exec x.run e).1.map (Except.mapError f), (exec x.run e).2) := by
  change exec (x.run >>= fun r => pure (r.mapError f)) e = _
  rw [exec_bind]
  rcases exec x.run e with ⟨_ | a, later⟩ <;> rfl

/-- A success under other names for the failures was one before. -/
theorem exec_of_exec_adapt {f : ε → δ} {x : ExceptT ε (Serving ν) α} {e later : Exchange ν} {a : α}
    (h : exec (x.adapt f).run e = (some (.ok a), later)) :
    exec x.run e = (some (.ok a), later) := by
  rw [exec_adapt] at h
  rcases hx : exec x.run e with ⟨_ | _ | b, mid⟩
  · rw [hx] at h
    cases h
  · rw [hx] at h
    cases h
  · rw [hx] at h
    cases h
    rfl

/-- Whatever comes of a computation, it leaves an exchange behind that is related to the first. -/
def Moves (R : Exchange ν → Exchange ν → Prop) (c : Serving ν α) : Prop := ∀ e, R e (exec c e).2

/-- A computation that moves by a relation moves by every wider one. -/
theorem Moves.mono {R S : Exchange ν → Exchange ν → Prop} {c : Serving ν α} (h : Moves R c)
    (hRS : ∀ e later, R e later → S e later) : Moves S c :=
  fun e => hRS e _ (h e)

variable {R : Exchange ν → Exchange ν → Prop}

/-- One run of it, named by its outcome. -/
theorem Moves.exec {c : Serving ν α} (h : Moves R c) {e later : Exchange ν} {result : Option α}
    (hexec : c.exec e = (result, later)) : R e later := by
  have hmoves := h e
  rw [hexec] at hmoves
  exact hmoves

/-- A change moves by the relation that it keeps. -/
theorem moves_modify {f : Exchange ν → Exchange ν} (h : ∀ e, R e (f e)) : Moves R (modify f) := h

theorem moves_emodify {f : Exchange ν → Exchange ν} (h : ∀ e, R e (f e)) :
    Moves R (modify f : ExceptT ε (Serving ν) Unit).run := h

/-- A computation that starts by looking may do something else in each exchange. -/
theorem moves_get_bind {f : Exchange ν → Serving ν α} (h : ∀ e, R e (exec (f e) e).2) :
    Moves R (get >>= f) := by
  intro e
  rw [exec_bind, exec_get]
  exact h e

/-- What looks at the exchange first is judged for each exchange on its own. -/
theorem moves_eget_bind {f : Exchange ν → ExceptT ε (Serving ν) α}
    (h : ∀ e, R e (exec (f e).run e).2) : Moves R (get >>= f).run := by
  intro e
  rw [exec_ebind, exec_eget]
  exact h e

/-- The names of the failures do not matter to how an exchange moves. -/
theorem moves_adapt {f : ε → δ} {x : ExceptT ε (Serving ν) α} (h : Moves R x.run) :
    Moves R (x.adapt f).run := by
  intro e
  rw [exec_adapt]
  exact h e

theorem moves_lift {c : Serving ν α} (h : Moves R c) :
    Moves R (ExceptT.lift c : ExceptT ε (Serving ν) α).run := by
  intro e
  rw [exec_lift]
  exact h e

theorem moves_liftM {c : Serving ν α} (h : Moves R c) :
    Moves R (liftM c : ExceptT ε (Serving ν) α).run :=
  moves_lift h

section Preorder

variable [IsPreorder (Exchange ν) R]

/-- An answer that is there already moves nothing. -/
theorem moves_pure (a : α) : Moves R (pure a) := fun e => Std.Refl.refl e

/-- Looking moves nothing. -/
theorem moves_get : Moves R (get : Serving ν (Exchange ν)) := fun e => Std.Refl.refl e

/-- A computation that never ends moves nothing. -/
theorem moves_failure : Moves R (failure : Serving ν α) := fun e => Std.Refl.refl e

/-- Two steps move by a relation that is transitive if each of them does. -/
theorem moves_bind {c : Serving ν α} {f : α → Serving ν β} (hc : Moves R c)
    (hf : ∀ a, Moves R (f a)) : Moves R (c >>= f) := by
  intro e
  have hfirst := hc e
  rw [exec_bind]
  rcases h : exec c e with ⟨_ | a, later⟩
  · rw [h] at hfirst
    exact hfirst
  · rw [h] at hfirst
    exact IsTrans.trans _ _ _ hfirst (hf a later)

theorem moves_epure (a : α) : Moves R (pure a : ExceptT ε (Serving ν) α).run :=
  fun e => Std.Refl.refl e

/-- Failing moves nothing. -/
theorem moves_throw (failure : ε) : Moves R (throw failure : ExceptT ε (Serving ν) α).run :=
  fun e => Std.Refl.refl e

theorem moves_eget : Moves R (get : ExceptT ε (Serving ν) (Exchange ν)).run :=
  fun e => Std.Refl.refl e

/-- Two steps that can fail move by a transitive relation if each of them does. -/
theorem moves_ebind {x : ExceptT ε (Serving ν) α} {f : α → ExceptT ε (Serving ν) β}
    (hx : Moves R x.run) (hf : ∀ a, Moves R (f a).run) : Moves R (x >>= f).run := by
  intro e
  have hfirst := hx e
  rw [exec_ebind]
  rcases h : exec x.run e with ⟨_ | failure | a, later⟩
  · rw [h] at hfirst
    exact hfirst
  · rw [h] at hfirst
    exact hfirst
  · rw [h] at hfirst
    exact IsTrans.trans _ _ _ hfirst (hf a later)

/-- A computation that puts another exchange in the place of the first may go on from there. -/
theorem moves_set_bind {f : Unit → Serving ν α} {e later : Exchange ν} (hset : R e later)
    (hf : Moves R (f ())) : R e (exec (set later >>= f) e).2 := by
  rw [exec_bind]
  exact IsTrans.trans _ _ _ hset (hf later)

/-- An exchange that is put in place of the current one has to be related to it. -/
theorem moves_eset_bind {f : Unit → ExceptT ε (Serving ν) α} {e later : Exchange ν}
    (hset : R e later) (hf : Moves R (f ()).run) : R e (exec (set later >>= f).run e).2 := by
  rw [exec_ebind]
  exact IsTrans.trans _ _ _ hset (hf later)

end Preorder

end Serving

namespace Action

variable {ν α β : Type}

/-- What a program performs when it is run, in order. -/
def trace : Action ν α → Exchange ν → List (Operation ν)
  | .done _, _ => []
  | .panic, _ => []
  | .perform op next, e =>
    op :: match Serving.exec (Serving.perform op) e with
      | (some reply, later) => (next reply).trace later
      | (none, _) => []

/-- Whatever it is answered, the program performs only operations of one kind. -/
def Only (P : Operation ν → Prop) : Action ν α → Prop
  | .done _ => True
  | .panic => True
  | .perform op next => P op ∧ ∀ reply, (next reply).Only P

/-- Three programs in a row are grouped either way. -/
theorem bind_assoc {γ : Type} (p : Action ν α) (f : α → Action ν β) (g : β → Action ν γ) :
    (p.bind f).bind g = p.bind fun a => (f a).bind g := by
  induction p with
  | done a => rfl
  | panic => rfl
  | perform op next ih => exact congrArg (Action.perform op) (funext fun reply => ih reply)

/-- A program that begins with an operation goes on with the reply to it. -/
theorem exec_run_perform (op : Operation ν) (next : op.Reply → Action ν α) (e : Exchange ν) :
    Serving.exec (Action.perform op next).run e =
      match Serving.exec (Serving.perform op) e with
      | (some reply, later) => Serving.exec (next reply).run later
      | (none, later) => (none, later) := by
  rw [Action.run, Serving.exec_bind]
  rcases Serving.exec (Serving.perform op) e with ⟨_ | reply, later⟩ <;> rfl

/-- A composed program runs its second part from where the first has ended without a panic. -/
theorem exec_run_bind (p : Action ν α) (f : α → Action ν β) (e : Exchange ν) :
    Serving.exec (p.bind f).run e = match Serving.exec p.run e with
      | (some (some a), later) => Serving.exec (f a).run later
      | (some none, later) => (some none, later)
      | (none, later) => (none, later) := by
  induction p generalizing e with
  | done a => rfl
  | panic => rfl
  | perform op next ih =>
      rw [bind, exec_run_perform, exec_run_perform]
      rcases Serving.exec (Serving.perform op) e with ⟨_ | reply, later⟩
      · rfl
      · exact ih reply later

/-- The run of a composed program performs what the first part does, and then what the second one
does. -/
theorem trace_bind (p : Action ν α) (f : α → Action ν β) (e : Exchange ν) :
    (p.bind f).trace e = p.trace e ++ match Serving.exec p.run e with
      | (some (some a), later) => (f a).trace later
      | _ => [] := by
  induction p generalizing e with
  | done a => rfl
  | panic => rfl
  | perform op next ih =>
      rw [bind, trace, trace, exec_run_perform]
      rcases Serving.exec (Serving.perform op) e with ⟨_ | reply, later⟩
      · rfl
      · exact congrArg (op :: ·) (ih reply later)

/-- **A run performs only what the program can perform.** -/
theorem Only.trace {P : Operation ν → Prop} {p : Action ν α} (h : p.Only P) (e : Exchange ν) :
    ∀ op ∈ p.trace e, P op := by
  induction p generalizing e with
  | done a => exact fun _ hmem => absurd hmem List.not_mem_nil
  | panic => exact fun _ hmem => absurd hmem List.not_mem_nil
  | perform op next ih =>
      intro performed hmem
      rw [Action.trace] at hmem
      rcases List.mem_cons.1 hmem with rfl | hmem
      · exact h.1
      · rcases hop : Serving.exec (Serving.perform op) e with ⟨_ | reply, later⟩
        · rw [hop] at hmem
          cases hmem
        · rw [hop] at hmem
          exact ih reply (h.2 reply) later performed hmem

/-- What two programs can perform, the two in a row can perform, and nothing else. -/
theorem Only.bind {P : Operation ν → Prop} {p : Action ν α} {f : α → Action ν β} (hp : p.Only P)
    (hf : ∀ a, (f a).Only P) : (p.bind f).Only P := by
  induction p with
  | done a => exact hf a
  | panic => trivial
  | perform op next ih => exact ⟨hp.1, fun reply => ih reply (hp.2 reply)⟩

/-- What relates an exchange to the one that each operation leaves behind also relates it to the one
that a program leaves behind. -/
theorem moves_run {R : Exchange ν → Exchange ν → Prop} [IsPreorder (Exchange ν) R]
    (hperform : ∀ op : Operation ν, Serving.Moves R (Serving.perform op)) (p : Action ν α) :
    Serving.Moves R p.run := by
  induction p with
  | done a => exact Serving.moves_pure _
  | panic => exact Serving.moves_pure _
  | perform op next ih => exact Serving.moves_bind (hperform op) ih

/-! ## Programs that can fail -/

section Failing

variable {ε : Type} {P : Operation ν → Prop}

/-- A program of one operation ends with its reply and does not panic. -/
theorem exec_run_ofOperation (op : Operation ν) (e : Exchange ν) :
    Serving.exec (ofOperation op).run e =
      ((Serving.exec (Serving.perform op) e).1.map some,
        (Serving.exec (Serving.perform op) e).2) := by
  rw [ofOperation, exec_run_perform]
  rcases Serving.exec (Serving.perform op) e with ⟨_ | reply, later⟩ <;> rfl

/-- A program that has failed or panicked leaves out what would come next. -/
theorem exec_run_ebind (x : ExceptT ε (Action ν) α) (f : α → ExceptT ε (Action ν) β)
    (e : Exchange ν) :
    Serving.exec (x >>= f).run.run e = match Serving.exec x.run.run e with
      | (some (some (.ok a)), later) => Serving.exec (f a).run.run later
      | (some (some (.error failure)), later) => (some (some (.error failure)), later)
      | (some none, later) => (some none, later)
      | (none, later) => (none, later) := by
  change Serving.exec (Action.bind x.run _).run e = _
  rw [exec_run_bind]
  rcases Serving.exec x.run.run e with ⟨_ | _ | _ | a, later⟩ <;> rfl

/-- A program that cannot fail, as a part of one that can. -/
theorem exec_run_lift (p : Action ν α) (e : Exchange ν) :
    Serving.exec (ExceptT.lift p : ExceptT ε (Action ν) α).run.run e =
      ((Serving.exec p.run e).1.map (Option.map Except.ok), (Serving.exec p.run e).2) := by
  change Serving.exec (Action.bind p (Action.done ∘ Except.ok)).run e = _
  rw [exec_run_bind]
  rcases Serving.exec p.run e with ⟨_ | _ | a, later⟩ <;> rfl

/-- An operation does not fail as such: its failures stand in its reply. -/
theorem exec_run_eperform (op : Operation ν) (e : Exchange ν) :
    Serving.exec (Performs.perform op : ExceptT ε (Action ν) op.Reply).run.run e =
      ((Serving.exec (Serving.perform op) e).1.map fun reply => some (.ok reply),
        (Serving.exec (Serving.perform op) e).2) := by
  change Serving.exec (ExceptT.lift (ofOperation op) : ExceptT ε (Action ν) op.Reply).run.run e = _
  rw [exec_run_lift, exec_run_ofOperation]
  rcases Serving.exec (Serving.perform op) e with ⟨_ | reply, later⟩ <;> rfl

/-- Looking changes nothing. -/
theorem exec_run_look (e : Exchange ν) :
    Serving.exec (look : ExceptT ε (Action ν) View).run.run e = (some (some (.ok e.view)), e) :=
  exec_run_eperform .look e

/-- A change of the header is there at once. -/
theorem exec_run_change (c : HeaderChange) (e : Exchange ν) :
    Serving.exec (change c : ExceptT ε (Action ν) Unit).run.run e =
      (some (some (.ok ())), e.changeHeader c.apply) :=
  exec_run_eperform (.change c) e

/-- A call that answers does what the same call of the server does. -/
theorem exec_run_respond (call : ResponseCall) (e : Exchange ν) :
    Serving.exec (respond call : Answering ν Unit).run.run e =
      ((Serving.exec (Serving.respond call).run e).1.map some,
        (Serving.exec (Serving.respond call).run e).2) :=
  exec_run_ofOperation (.respond call) e

/-- A failure to send becomes that of the handler. -/
theorem exec_run_send (call : ResponseCall) (e : Exchange ν) :
    Serving.exec (send call : Handling ν Unit).run.run e =
      ((Serving.exec (Serving.respond call).run e).1.map fun reply => some (reply.mapError .send),
        (Serving.exec (Serving.respond call).run e).2) := by
  change Serving.exec (Action.bind (respond call).run _).run e = _
  rw [exec_run_bind, exec_run_respond]
  rcases Serving.exec (Serving.respond call).run e with ⟨_ | _ | _, later⟩ <;> rfl

/-- What two programs that can fail perform, the two in a row perform. -/
theorem only_ebind {x : ExceptT ε (Action ν) α} {f : α → ExceptT ε (Action ν) β}
    (hx : x.run.Only P) (hf : ∀ a, (f a).run.Only P) : (x >>= f).run.Only P := by
  refine Only.bind hx fun r => ?_
  cases r with
  | ok a => exact hf a
  | error failure => trivial

/-- A single operation performs itself. -/
theorem only_eperform {op : Operation ν} (h : P op) :
    (Performs.perform op : ExceptT ε (Action ν) op.Reply).run.Only P :=
  ⟨h, fun _ => trivial⟩

/-- Sending performs the one call that is sent. -/
theorem only_send {call : ResponseCall} (h : P (.respond call)) :
    (send call : Handling ν Unit).run.Only P :=
  ⟨h, fun _ => trivial⟩

/-- Reading the body performs that reading and nothing else. -/
theorem only_readBody {sink : Sink} {limit : Nat} (h : P (.readBody sink limit)) :
    (readBody sink limit : Handling ν Nat).run.Only P :=
  ⟨h, fun _ => trivial⟩

end Failing

end Action

end HttpServer
